import DataEngine.Lib.Trace

/-!
Machines that make one move at a time.

A move that is not possible has no result; one that is may put something out. A run is a list
of moves each of which is possible where it is made. What holds of a run is shown for one move
and then by induction on the moves, the last one first.
-/

namespace Lib.Machine

open Lib.Trace

variable {S M O : Type} (step : S → M → Option (S × List O))

/-- The moves one after the other, and all that is put out. -/
def run (s : S) : List M → Option (S × List O)
  | [] => some (s, [])
  | m :: ms => do
    let (t, o) ← step s m
    let (u, p) ← run t ms
    some (u, o ++ p)

@[simp] lemma run_nil (s : S) : run step s [] = some (s, []) := rfl

variable {step}

lemma run_cons {s u : S} {m : M} {ms : List M} {q : List O} :
    run step s (m :: ms) = some (u, q) ↔
      ∃ t o p, step s m = some (t, o) ∧ run step t ms = some (u, p) ∧ q = o ++ p := by
  simp only [run, Option.bind_eq_bind, Option.bind_eq_some_iff, Option.some.injEq, Prod.mk.injEq,
    Prod.exists]
  constructor
  · rintro ⟨t, o, hstep, u', p, hrun, rfl, rfl⟩
    exact ⟨t, o, p, hstep, hrun, rfl⟩
  · rintro ⟨t, o, p, hstep, hrun, rfl⟩
    exact ⟨t, o, hstep, u, p, hrun, rfl, rfl⟩

lemma run_append {s u : S} {ms ns : List M} {q : List O} :
    run step s (ms ++ ns) = some (u, q) ↔
      ∃ t o p, run step s ms = some (t, o) ∧ run step t ns = some (u, p) ∧ q = o ++ p := by
  induction ms generalizing s q with
  | nil => simp
  | cons m ms ih =>
    rw [List.cons_append, run_cons]
    constructor
    · rintro ⟨t, o, p, hstep, hrun, rfl⟩
      obtain ⟨v, o', p', hms, hns, rfl⟩ := ih.mp hrun
      exact ⟨v, o ++ o', p', run_cons.mpr ⟨t, o, o', hstep, hms, rfl⟩, hns, by simp⟩
    · rintro ⟨v, o, p, hms, hns, rfl⟩
      obtain ⟨t, o', p', hstep, hrun, rfl⟩ := run_cons.mp hms
      exact ⟨t, o', p' ++ p, hstep, ih.mpr ⟨v, p', p, hrun, hns, rfl⟩, by simp⟩

@[simp] lemma run_singleton (s : S) (m : M) : run step s [m] = step s m := by
  rcases h : step s m with _ | ⟨t, o⟩ <;> simp [run, h]

lemma run_snoc {s u : S} {ms : List M} {m : M} {q : List O} :
    run step s (ms ++ [m]) = some (u, q) ↔
      ∃ t o p, run step s ms = some (t, o) ∧ step t m = some (u, p) ∧ q = o ++ p := by
  simp [run_append]

/-! ### Conditions on the moves -/

variable (step) in
/-- Each move of the run is made in a state that meets the condition with it. -/
def Along (C : S → M → Prop) (s : S) (ms : List M) : Prop :=
  Each (fun pre m => ∀ t o, run step s pre = some (t, o) → C t m) ms

lemma along_of_forall {C : S → M → Prop} {ms : List M} (h : ∀ m ∈ ms, ∀ t, C t m) (s : S) :
    Along step C s ms := by
  rintro pre m post rfl t _ _
  exact h m (by simp) t

lemma along_true (s : S) (ms : List M) : Along step (fun _ _ => True) s ms :=
  along_of_forall (fun _ _ _ => trivial) s

lemma along_snoc {C : S → M → Prop} {s t : S} {ms : List M} {o : List O}
    (hrun : run step s ms = some (t, o)) {m : M} :
    Along step C s (ms ++ [m]) ↔ Along step C s ms ∧ C t m := by
  unfold Along
  rw [each_snoc]
  refine and_congr_right fun _ => ⟨fun h => h t o hrun, fun h t' o' hrun' => ?_⟩
  obtain ⟨rfl, -⟩ : t = t' ∧ o = o' := by simpa using hrun.symm.trans hrun'
  exact h

lemma along_cons {C : S → M → Prop} {s : S} {m : M} {ms : List M} :
    Along step C s (m :: ms) ↔
      C s m ∧ ∀ t o, step s m = some (t, o) → Along step C t ms := by
  constructor
  · intro h
    refine ⟨h [] m ms rfl s [] rfl, ?_⟩
    rintro t o hstep pre n post rfl u p hrun
    exact h (m :: pre) n post rfl u (o ++ p) (run_cons.mpr ⟨t, o, p, hstep, hrun, rfl⟩)
  · rintro ⟨hm, hms⟩ pre n post heq u p hrun
    rcases pre with _ | ⟨m', pre⟩
    · obtain ⟨rfl, rfl⟩ : m = n ∧ ms = post := by simpa using heq
      obtain ⟨rfl, -⟩ : s = u ∧ _ := by simpa using hrun
      exact hm
    · obtain ⟨rfl, rfl⟩ : m = m' ∧ ms = pre ++ n :: post := by simpa using heq
      obtain ⟨t, o, q, hstep, hrest, -⟩ := run_cons.mp hrun
      exact hms t o hstep pre n post rfl u q hrest

/-- Conditions that agree wherever the run may come agree along it. -/
lemma along_congr {C D : S → M → Prop} {I : S → Prop}
    (hstep : ∀ s m t o, I s → step s m = some (t, o) → I t)
    (h : ∀ s m, I s → (C s m ↔ D s m)) {s : S} (hs : I s) (ms : List M) :
    Along step C s ms ↔ Along step D s ms := by
  induction ms generalizing s with
  | nil => exact iff_of_true each_nil each_nil
  | cons m ms ih =>
    rw [along_cons, along_cons, h s m hs]
    refine and_congr_right fun _ => ?_
    exact forall₂_congr fun t o => imp_congr_right fun ht => ih (hstep s m t o hs ht)

instance decidableAlong {C : S → M → Prop} [∀ s m, Decidable (C s m)] :
    (s : S) → (ms : List M) → Decidable (Along step C s ms)
  | _, [] => .isTrue each_nil
  | s, m :: ms =>
    match h : step s m with
    | none => decidable_of_iff (C s m) (by simp [along_cons, h])
    | some (t, _) =>
      have : Decidable (Along step C t ms) := decidableAlong t ms
      decidable_of_iff (C s m ∧ Along step C t ms) (by simp [along_cons, h])

/-- What holds at the start and is kept by every move that meets the condition holds at the end
of a run, with the moves made and all that has been put out. -/
lemma run_inv {C : S → M → Prop} {I : List M → S → List O → Prop} {s : S} (hstart : I [] s [])
    (hstep : ∀ ms t o m u p, I ms t o → C t m → step t m = some (u, p) → I (ms ++ [m]) u (o ++ p))
    {ms : List M} {t : S} {o : List O} (hrun : run step s ms = some (t, o))
    (hc : Along step C s ms) : I ms t o := by
  induction ms using List.reverseRecOn generalizing t o with
  | nil =>
    obtain ⟨rfl, rfl⟩ : s = t ∧ [] = o := by simpa using hrun
    exact hstart
  | append_singleton ms m ih =>
    obtain ⟨u, p, q, hms, hm, rfl⟩ := run_snoc.mp hrun
    obtain ⟨hms', hm'⟩ := (along_snoc hms).mp hc
    exact hstep ms u p m t q (ih hms hms') hm' hm

/-! ### The states of a run -/

variable (step) in
/-- `P` holds of every state the run goes through, as far as it goes. -/
def Always (P : S → Prop) (s : S) (ms : List M) : Prop :=
  ∀ pre post t o, ms = pre ++ post → run step s pre = some (t, o) → P t

lemma always_nil {P : S → Prop} {s : S} : Always step P s [] ↔ P s := by
  constructor
  · intro h
    exact h [] [] s [] rfl rfl
  · intro h pre post t o heq hrun
    obtain ⟨rfl, -⟩ : pre = [] ∧ post = [] := by simpa using heq.symm
    obtain ⟨rfl, -⟩ : s = t ∧ _ := by simpa using hrun
    exact h

lemma always_cons {P : S → Prop} {s : S} {m : M} {ms : List M} :
    Always step P s (m :: ms) ↔
      P s ∧ ∀ t o, step s m = some (t, o) → Always step P t ms := by
  constructor
  · intro h
    refine ⟨h [] (m :: ms) s [] rfl rfl, ?_⟩
    rintro t o hstep pre post u p rfl hrun
    exact h (m :: pre) post u (o ++ p) rfl (run_cons.mpr ⟨t, o, p, hstep, hrun, rfl⟩)
  · rintro ⟨hs, hms⟩ pre post u p heq hrun
    rcases pre with _ | ⟨m', pre⟩
    · obtain ⟨rfl, -⟩ : s = u ∧ _ := by simpa using hrun
      exact hs
    · obtain ⟨rfl, rfl⟩ : m = m' ∧ ms = pre ++ post := by simpa using heq
      obtain ⟨t, o, q, hstep, hrest, -⟩ := run_cons.mp hrun
      exact hms t o hstep pre post u q rfl hrest

/-- What every move keeps holds all along. -/
lemma always_of_step {P : S → Prop} (hstep : ∀ s m t o, P s → step s m = some (t, o) → P t)
    {s : S} (hp : P s) (ms : List M) : Always step P s ms := by
  induction ms generalizing s with
  | nil => exact always_nil.mpr hp
  | cons m ms ih => exact always_cons.mpr ⟨hp, fun t o h => ih (hstep s m t o hp h)⟩

/-- If a move keeps `P` exactly if it meets the condition, a run keeps it exactly if its moves
all do. A move that is not possible has to meet it. -/
lemma always_iff_along {C : S → M → Prop} {I P : S → Prop}
    (hstep : ∀ s m t o, I s → P s → step s m = some (t, o) → I t ∧ (P t ↔ C s m))
    (hstuck : ∀ s m, I s → P s → step s m = none → C s m) {s : S} (hi : I s) (hp : P s)
    (ms : List M) : Always step P s ms ↔ Along step C s ms := by
  induction ms generalizing s with
  | nil => exact iff_of_true (always_nil.mpr hp) each_nil
  | cons m ms ih =>
    rw [always_cons, along_cons]
    rcases h : step s m with _ | ⟨t, o⟩
    · simpa [hp] using hstuck s m hi hp h
    · obtain ⟨hi', hiff⟩ := hstep s m t o hi hp h
      have hnext : ∀ Q : S → Prop, (∀ u p, some (t, o) = some (u, p) → Q u) ↔ Q t := by
        intro Q
        simp
      rw [hnext, hnext, ← hiff]
      constructor
      · rintro ⟨-, hall⟩
        have ht : P t := hall [] ms t [] rfl rfl
        exact ⟨ht, (ih hi' ht).mp hall⟩
      · rintro ⟨ht, halong⟩
        exact ⟨hp, (ih hi' ht).mpr halong⟩

/-! ### What moves can lead to -/

variable (step) in
/-- Some moves of a kind lead to a state that meets `P` with what they put out. -/
def Leads (A : M → Prop) (s : S) (P : S → List O → Prop) : Prop :=
  ∃ ms t o, (∀ m ∈ ms, A m) ∧ run step s ms = some (t, o) ∧ P t o

section Leads

variable {A : M → Prop} {s t : S} {P Q : S → List O → Prop}

lemma Leads.here (h : P s []) : Leads step A s P := ⟨[], s, [], by simp, rfl, h⟩

lemma Leads.move {m : M} {o : List O} (hstep : step s m = some (t, o)) (hm : A m)
    (h : Leads step A t fun u p => P u (o ++ p)) : Leads step A s P := by
  obtain ⟨ms, u, p, hms, hrun, hp⟩ := h
  exact ⟨m :: ms, u, o ++ p, by simpa [hm] using hms, run_cons.mpr ⟨t, o, p, hstep, hrun, rfl⟩, hp⟩

lemma Leads.then (h : Leads step A s Q)
    (hq : ∀ t o, Q t o → Leads step A t fun u p => P u (o ++ p)) : Leads step A s P := by
  obtain ⟨ms, t, o, hms, hrun, hto⟩ := h
  obtain ⟨ns, u, p, hns, hrun', hp⟩ := hq t o hto
  refine ⟨ms ++ ns, u, o ++ p, fun m hm => ?_, run_append.mpr ⟨t, o, p, hrun, hrun', rfl⟩, hp⟩
  exact (List.mem_append.mp hm).elim (hms m) (hns m)

end Leads

end Lib.Machine
