import DataEngine.Log.Log

/-!
What a rotation does to the file that is open.

Whether to rotate is asked before a record is written, of whole megabytes and of a counter of
32 bits: a file goes on to be written until it is a megabyte over the limit, and again when the
counter has gone round. That a file is open is asked before the rotation, not after it.
-/

namespace DataEngine.Log

open Json Lib.Machine Lib.Trace

variable {R : Type} [Double R]

/-! ### The size of a file -/

section Size

variable {L : ℕ} {s t : State} {c : Call}

/-- The counter is the number of bytes in the open file, as far as it can count them. -/
structure State.Counts (L : ℕ) (s : State) : Prop where
  limit : s.maxLogSize.toNat = L
  count : ∀ f, s.fLog = some f → s.fLength = UInt32.ofNat f.written.length

/-- A file has just been opened, and the limit is `L` megabytes. -/
structure State.Opened (L : ℕ) (s : State) : Prop where
  limit : s.maxLogSize.toNat = L
  length : s.fLength = 0
  file : ∃ path, s.fLog = some ⟨path, []⟩

lemma State.Opened.counts (h : s.Opened L) : s.Counts L where
  limit := h.limit
  count f hf := by
    obtain ⟨path, hpath⟩ := h.file
    obtain rfl := Option.some.inj (hf.symm.trans hpath)
    exact h.length

/-- The open file is within the limit by now, or the call begins another one. -/
def State.Fits (L : ℕ) (s : State) : Prop :=
  ∀ f, s.fLog = some f →
    f.written.length ≤ L * 2 ^ 20 ∨ (L + 1) * 2 ^ 20 ≤ f.written.length % 2 ^ 32

/-- After the call the open file is over the limit by its last record at most. -/
def Limited (L : ℕ) (s : State) (c : Call) : Prop :=
  ∀ t o, step s c = some (t, o) → ∀ f, t.fLog = some f →
    f.written.length ≤ L * 2 ^ 20 + c.buffer.length

/-- What `Rotates` compares, told by the bytes in the file. -/
lemma rotates_iff (h : s.Counts L) {f : LogFile} (hf : s.fLog = some f) :
    s.Rotates ↔ (L + 1) * 2 ^ 20 ≤ f.written.length % 2 ^ 32 := by
  have hshift : (s.fLength >>> 20).toNat = f.written.length % 2 ^ 32 / 2 ^ 20 := by
    rw [h.count f hf, UInt32.toNat_shiftRight, UInt32.toNat_ofNat', Nat.shiftRight_eq_div_pow]
    rfl
  rw [State.Rotates, UInt32.lt_iff_toNat_lt, h.limit, hshift, ← Nat.succ_le_iff,
    Nat.le_div_iff_mul_le (by decide)]

lemma createFile_fLength (s : State) (m : Moment) : (s.createFile m).2.fLength = s.fLength := by
  unfold State.createFile State.clearLater
  split_ifs <;> rfl

lemma createFile_maxLogSize (s : State) (m : Moment) :
    (s.createFile m).2.maxLogSize = s.maxLogSize := by
  unfold State.createFile State.clearLater
  split_ifs <;> rfl

/-- The file of a rotation that goes well has just been opened. -/
lemma opened_createFile (h : s.Counts L) {m : Moment} (hopens : m.opens = true) :
    (s.updateLogNum.closeFile.createFile m).2.Opened L where
  limit := by
    rw [createFile_maxLogSize, State.updateLogNum_eq]
    exact h.limit
  length := by
    rw [createFile_fLength]
    rfl
  file := ⟨_, by rw [State.createFile_fLog, if_pos hopens]⟩

/-- A write adds the record to the open file and to the counter. -/
lemma write_adds {buffer : List UInt8} (h : s.Counts L) (hw : s.write buffer = .ok t) :
    ∃ f, s.fLog = some f ∧ t.fLog = some { f with written := f.written ++ buffer } ∧
      t.Counts L := by
  unfold State.write at hw
  split at hw
  · cases hw
  · rename_i f hf
    obtain rfl := Except.ok.inj hw
    refine ⟨f, hf, rfl, h.limit, fun g hg => ?_⟩
    obtain rfl := Option.some.inj hg
    show s.fLength + UInt32.ofNat buffer.length = UInt32.ofNat (f.written ++ buffer).length
    rw [h.count f hf, List.length_append, UInt32.ofNat_add]

/-- What a call that returns has written to the file that is open then. -/
lemma saveLog_adds {o : List Unit} (h : s.Counts L) (hstep : step s c = some (t, o)) :
    (s.fLog = none ∧ t = s) ∨ ∃ f g, s.fLog = some f ∧ t.fLog = some g ∧ t.Counts L ∧
      g.written = (if s.Rotates then [] else f.written) ++ c.buffer := by
  obtain ⟨hnone, rfl⟩ | ⟨hopen, hrot, hopens, hw⟩ | ⟨hopen, hrot, hw⟩ :=
    State.saveLog_cases (saveLog_of_step hstep)
  · exact .inl ⟨hnone, rfl⟩
  · obtain ⟨f, hf⟩ := Option.ne_none_iff_exists'.mp hopen
    have hnew := opened_createFile h hopens
    obtain ⟨g, hg, ht, hcounts⟩ := write_adds hnew.counts hw
    obtain ⟨path, hpath⟩ := hnew.file
    obtain rfl := Option.some.inj (hg.symm.trans hpath)
    exact .inr ⟨f, _, hf, ht, hcounts, by rw [if_pos hrot]⟩
  · obtain ⟨f, hf, ht, hcounts⟩ := write_adds h hw
    exact .inr ⟨f, _, hf, ht, hcounts, by rw [if_neg hrot]⟩

lemma counts_step {o : List Unit} (h : s.Counts L) (hstep : step s c = some (t, o)) :
    t.Counts L := by
  obtain ⟨-, rfl⟩ | ⟨_, _, -, -, hcounts, -⟩ := saveLog_adds h hstep
  · exact h
  · exact hcounts

/-- One call keeps to the limit exactly if it comes upon a file that is within it, or over it by
so much that it is rotated. -/
lemma limited_iff (h : s.Counts L) (c : Call) : Limited L s c ↔ s.Fits L := by
  rcases hf : s.fLog with _ | f
  · refine iff_of_true (fun t o hstep g hg => ?_) fun g hg => by simp [hf] at hg
    obtain ⟨-, rfl⟩ | ⟨f, -, hsome, -⟩ := saveLog_adds h hstep
    · simp [hf] at hg
    · simp [hf] at hsome
  have hfits : s.Fits L ↔ f.written.length ≤ L * 2 ^ 20 ∨ s.Rotates := by
    rw [rotates_iff h hf, State.Fits]
    simp [hf]
  rw [hfits]
  by_cases hrot : s.Rotates
  · refine iff_of_true (fun t o hstep g hg => ?_) (.inr hrot)
    obtain ⟨hnone, -⟩ | ⟨_, g', -, hg', -, hw⟩ := saveLog_adds h hstep
    · simp [hf] at hnone
    · obtain rfl := Option.some.inj (hg.symm.trans hg')
      rw [hw, if_pos hrot, List.nil_append]
      exact Nat.le_add_left _ _
  · rw [or_iff_left hrot]
    obtain ⟨t, hstep⟩ := step_of_opens (s := s) (c := c) fun hr => absurd hr hrot
    obtain ⟨hnone, -⟩ | ⟨f', g, hf', hg, -, hw⟩ := saveLog_adds h hstep
    · simp [hf] at hnone
    obtain rfl := Option.some.inj (hf.symm.trans hf')
    rw [if_neg hrot] at hw
    constructor
    · intro hlimited
      have hle := hlimited t [] hstep g hg
      rw [hw, List.length_append] at hle
      omega
    · intro hle u o hstep' g' hg'
      obtain ⟨rfl, -⟩ : t = u ∧ _ := by simpa using hstep.symm.trans hstep'
      obtain rfl := Option.some.inj (hg.symm.trans hg')
      rw [hw, List.length_append]
      omega

lemma opened_init {name : String} {cfgValue : Value R} {disk : Finset String} {m : Moment}
    (hL : L < 2 ^ 32) (hsize : cfgInt cfgValue "logLimitSize" = .ok (L : ℤ))
    (hinit : init name cfgValue disk m = .ok (true, s)) : s.Opened L := by
  obtain ⟨maxLogNum, maxLogSize, -, hsize', hopens, rfl⟩ := init_eq_true hinit
  obtain rfl : (L : ℤ) = maxLogSize := Except.ok.inj (hsize.symm.trans hsize')
  set t := (constructed name disk maxLogNum L).processLog
  refine ⟨?_, rfl, ⟨curLogPath t.name m.sTime, ?_⟩⟩
  · rw [State.updateLogNum_eq]
    show (t.createFile m).2.maxLogSize.toNat = L
    rw [createFile_maxLogSize]
    show (UInt32.ofInt L).toNat = L
    simp only [UInt32.ofInt, UInt32.toNat_ofNat']
    omega
  · rw [State.updateLogNum_eq]
    show (t.createFile m).2.fLog = _
    rw [State.createFile_fLog, if_pos hopens]

/-- **The limit on the size of a file** is kept by every call exactly if each comes upon a file
that is within it, or over it by a megabyte and more, as the counter counts. -/
theorem size_limit_iff (L : ℕ) (hL : L < 2 ^ 32) :
    (∀ (name : String) (cfgValue : Value R) (disk : Finset String) (m : Moment) (s : State),
      cfgInt cfgValue "logLimitSize" = .ok (L : ℤ) → init name cfgValue disk m = .ok (true, s) →
        s.Opened L) ∧
    ∀ (s : State), s.Opened L → ∀ calls : List Call,
      Along step (Limited L) s calls ↔ Along step (fun t _ => t.Fits L) s calls := by
  refine ⟨fun name cfgValue disk m s hsize hinit => opened_init hL hsize hinit,
    fun s hs calls => ?_⟩
  exact along_congr (fun _ _ _ _ h hstep => counts_step h hstep) (fun _ c h => limited_iff h c)
    hs.counts calls

/-- What the limit comes to: with records so small that the counter does not go round, a file is
over it by less than a megabyte and its last record. -/
theorem written_lt (hL : L < 4095) {calls : List Call}
    (hsmall : ∀ c ∈ calls, c.buffer.length ≤ (4095 - L) * 2 ^ 20) (hs : s.Opened L) :
    Along step (fun s c => ∀ t o, step s c = some (t, o) → ∀ f, t.fLog = some f →
      f.written.length < (L + 1) * 2 ^ 20 + c.buffer.length) s calls := by
  have hstart : ∀ f, s.fLog = some f → f.written.length < 2 ^ 32 := by
    intro f hf
    obtain ⟨path, hpath⟩ := hs.file
    obtain rfl := Option.some.inj (hf.symm.trans hpath)
    exact Nat.two_pow_pos 32
  replace hs := hs.counts
  induction calls generalizing s with
  | nil => exact each_nil
  | cons c calls ih =>
    have hstep : ∀ t o, step s c = some (t, o) → ∀ f, t.fLog = some f →
        f.written.length < (L + 1) * 2 ^ 20 + c.buffer.length := by
      intro t o ht g hg
      obtain ⟨hnone, rfl⟩ | ⟨f, g', hf, hg', -, hw⟩ := saveLog_adds hs ht
      · simp [hnone] at hg
      obtain rfl := Option.some.inj (hg.symm.trans hg')
      have hlt := hstart f hf
      rw [hw, List.length_append]
      split_ifs with hrot
      · rw [List.length_nil]
        omega
      · rw [rotates_iff hs hf, Nat.mod_eq_of_lt hlt] at hrot
        omega
    have hc := hsmall c List.mem_cons_self
    refine along_cons.mpr ⟨hstep, fun t o ht => ?_⟩
    refine ih (fun d hd => hsmall d (List.mem_cons_of_mem c hd)) (fun f hf => ?_)
      (counts_step hs ht)
    have hlt := hstep t o ht f hf
    omega

theorem megabyte_rotated : ∃ s, init "dev" (limited 2) ∅ (second 0) = .ok (true, s) ∧
    Along step (Limited 0) s twoCalls := by
  obtain ⟨-, hinit⟩ := init_fresh (n := 2) (by decide) (by decide)
  obtain ⟨hopened, hcalls⟩ := size_limit_iff (R := ℚ) 0 (by decide)
  refine ⟨_, hinit, (hcalls _ (hopened "dev" (limited 2) ∅ (second 0) _ rfl hinit) twoCalls).mpr
    (along_twoCalls (fun _ f hf => ?_) fun f hf => ?_)⟩
  · obtain rfl := Option.some.inj hf
    exact .inl (Nat.zero_le _)
  · obtain rfl := Option.some.inj hf
    right
    simp only [megabyte, List.length_replicate]
    decide

/-- A call that does not rotate makes the file longer by its record. -/
lemma fills (h : s.Counts L) {f : LogFile} (hf : s.fLog = some f) (hrot : ¬ s.Rotates) (c : Call) :
    ∃ t g, step s c = some (t, []) ∧ t.Counts L ∧ t.fLog = some g ∧
      g.written.length = f.written.length + c.buffer.length := by
  obtain ⟨t, hstep⟩ := step_of_opens (s := s) (c := c) fun hr => absurd hr hrot
  obtain ⟨hnone, -⟩ | ⟨f', g, hf', hg, hcounts, hw⟩ := saveLog_adds h hstep
  · simp [hf] at hnone
  obtain rfl := Option.some.inj (hf.symm.trans hf')
  exact ⟨t, g, hstep, hcounts, hg, by rw [hw, if_neg hrot, List.length_append]⟩

/-- A log limited as in the tasks that come with the engine -/
def tenMegabytes : Value ℚ := .object [("logLimitNum", .int 5), ("logLimitSize", .int 10)]

/-- A record of ten megabytes -/
def filling : Call := ⟨List.replicate (10 * 2 ^ 20) 0, second 0⟩

lemma length_filling : filling.buffer.length = 10 * 2 ^ 20 := List.length_replicate

/-- A record of one byte -/
def oneByte : Call := ⟨[0x2a], second 0⟩

theorem eleventh_megabyte_begun : ¬ ∀ (name : String) (cfgValue : Value ℚ) (disk : Finset String)
    (m : Moment) (L : ℕ) (s : State), L < 2 ^ 32 → cfgInt cfgValue "logLimitSize" = .ok (L : ℤ) →
      init name cfgValue disk m = .ok (true, s) → ∀ calls : List Call,
        Along step (Limited L) s calls := by
  intro h
  obtain ⟨s, hinit⟩ : ∃ s, init "dev" tenMegabytes ∅ (second 0) = .ok (true, s) :=
    ⟨_, init_of_opens "dev" ∅ rfl rfl rfl⟩
  have hopened := opened_init (L := 10) (by decide) rfl hinit
  obtain ⟨path, hpath⟩ := hopened.file
  have halong := h "dev" tenMegabytes ∅ (second 0) 10 _ (by decide) rfl hinit
    [filling, oneByte, oneByte]
  -- neither of the first two calls rotates
  have hempty : ¬ s.Rotates := by
    rw [rotates_iff hopened.counts hpath, List.length_nil]
    decide
  obtain ⟨t, f, hfirst, ht, hf, hlen⟩ := fills hopened.counts hpath hempty filling
  rw [List.length_nil, length_filling] at hlen
  have hten : ¬ t.Rotates := by
    rw [rotates_iff ht hf, hlen]
    decide
  obtain ⟨u, g, hsecond, hu, hg, hlen'⟩ := fills ht hf hten oneByte
  have hrest := (along_cons.mp ((along_cons.mp halong).2 t _ hfirst)).2 u _ hsecond
  have hthird := (along_cons.mp hrest).1
  have hfits := (limited_iff hu _).mp hthird g hg
  rw [hlen', hlen] at hfits
  revert hfits
  decide

end Size

/-! ### A rotation that fails -/

lemma State.write_leaves_open {s t : State} {buffer : List UInt8} (h : s.write buffer = .ok t) :
    t.fLog ≠ none := by
  unfold State.write at h
  split at h
  · cases h
  · obtain rfl := Except.ok.inj h
    simp

/-- A rotation is given a file. -/
def OpensRotation (s : State) (c : Call) : Prop :=
  s.fLog ≠ none → s.Rotates → c.moment.opens = true

/-- A call writes to a null pointer exactly if the file of its rotation cannot be opened. -/
lemma saveLog_undefined_iff (s : State) (c : Call) :
    s.saveLog c.buffer c.moment = .error .undefined ↔ ¬ OpensRotation s c := by
  unfold State.saveLog OpensRotation
  split_ifs with hnone hrot
  · simp [hnone]
  · rcases hopens : c.moment.opens <;>
      simp [State.write, State.createFile_fLog, hopens, hnone, hrot]
  · obtain ⟨f, hf⟩ := Option.ne_none_iff_exists'.mp hnone
    simp [State.write, hf, hrot]

/-- **No call writes to a null pointer** exactly if every rotation is given a file. -/
theorem null_unused_iff (s : State) (calls : List Call) :
    Along step (fun s c => s.saveLog c.buffer c.moment ≠ .error .undefined) s calls ↔
      Along step OpensRotation s calls := by
  refine along_congr (I := fun _ => True) (fun _ _ _ _ _ _ => trivial) (fun s c _ => ?_) trivial
    calls
  rw [ne_eq, saveLog_undefined_iff, not_not]

/-- The call that fails to rotate. -/
theorem unopened_written : ¬ ∀ (name : String) (cfgValue : Value ℚ) (disk : Finset String)
    (m : Moment) (s : State), init name cfgValue disk m = .ok (true, s) → ∀ calls : List Call,
      Along step (fun s c => s.saveLog c.buffer c.moment ≠ .error .undefined) s calls := by
  intro h
  obtain ⟨-, hinit⟩ := init_fresh (n := 1) (by decide) (by decide)
  have halong := h "dev" (limited 1) ∅ (second 0) _ hinit
    [⟨megabyte, second 0⟩, ⟨[0x2a], { second 1 with opens := false }⟩]
  have hsecond := (along_cons.mp ((along_cons.mp halong).2 _ _ (step_full _))).1
  refine hsecond ((saveLog_undefined_iff _ ⟨[0x2a], { second 1 with opens := false }⟩).mpr
    fun h => ?_)
  exact absurd (h (by simp [full, fresh]) (full_rotates _)) (by simp)

/-- After `init` no call that is made finds the pointer null, so the check on entry never helps. -/
theorem handle_stays {name : String} {cfgValue : Value R} {disk : Finset String} {m : Moment}
    {s : State} (hinit : init name cfgValue disk m = .ok (true, s)) (calls : List Call) :
    Always step (fun s => s.fLog ≠ none) s calls := by
  obtain ⟨maxLogNum, maxLogSize, -, -, hopens, rfl⟩ := init_eq_true hinit
  refine always_of_step (fun s c t o hopen hstep => ?_) ?_ calls
  · obtain ⟨hnone, -⟩ | ⟨-, -, -, hw⟩ | ⟨-, -, hw⟩ := State.saveLog_cases (saveLog_of_step hstep)
    · exact absurd hnone hopen
    · exact State.write_leaves_open hw
    · exact State.write_leaves_open hw
  · rw [State.updateLogNum_eq]
    simp [State.createFile_fLog, hopens]

end DataEngine.Log
