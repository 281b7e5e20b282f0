import DataEngine.Lib.Machine
import DataEngine.Plug.IEC104.TransIEC104
import DataEngine.Rational

/-!
The log files of a device.

A log has one file open and a limit on how many it keeps. When the open file has grown too large
the next one is created; the files are told apart by the second in which they were created. The
regular files in the folder of the device are part of the state. To remove a file always
succeeds, to open one may fail.
-/

namespace DataEngine.Log

open Json Lib.Machine Lib.Trace
open TransIEC104 (SysTime)

variable {R : Type} [Double R]

/-- A `FILE *` other than null, with what has been written since it was opened. -/
structure LogFile where
  path : String
  written : List UInt8
  deriving DecidableEq

structure State where
  name : String
  fLog : Option LogFile
  fLength : UInt32
  maxLogSize : UInt32
  maxLogNum : UInt32
  minFName : Finset String
  /-- the paths of the regular files in the folder of the device -/
  disk : Finset String

/-- What `createFile` meets: the time, and whether the file can be opened. -/
structure Moment where
  sTime : SysTime
  opens : Bool

/-- `setw(2)` with the fill `0` -/
def setw2 (n : ℕ) : String := if n < 10 then "0" ++ toString n else toString n

def logPath (name : String) : String := "./log/engine/" ++ name

def curLogName (name : String) (sTime : SysTime) : String :=
  name ++ "_" ++ toString sTime.year ++ setw2 sTime.mon ++ setw2 sTime.day ++ "_" ++
    setw2 sTime.hour ++ setw2 sTime.min ++ setw2 sTime.sec ++ ".log"

/-- The path of the file that is created in the second `sTime`. -/
def curLogPath (name : String) (sTime : SysTime) : String :=
  logPath name ++ "/" ++ curLogName name sTime

namespace State

/-- `processLog` takes over the files in the folder. -/
def processLog (s : State) : State :=
  { s with
    minFName := s.minFName ∪ s.disk.filter fun strPath => ".log".toList <:+: strPath.toList }

/-- `remove` of all the files, if the clock is behind the first of them -/
def clearLater (s : State) (curLogName : String) : State :=
  if h : s.minFName.Nonempty then
    if curLogName < s.minFName.min' h then
      { s with minFName := ∅, disk := s.disk \ s.minFName }
    else s
  else s

@[simp] lemma clearLater_maxLogNum (s : State) (cur : String) :
    (s.clearLater cur).maxLogNum = s.maxLogNum := by
  unfold clearLater
  split_ifs <;> rfl

def createFile (s : State) (m : Moment) : Bool × State :=
  let t := s.clearLater (curLogName s.name m.sTime)
  let path := curLogPath s.name m.sTime
  let u := { t with minFName := insert path t.minFName }
  if m.opens then (true, { u with fLog := some ⟨path, []⟩, disk := insert path u.disk })
  else (false, { u with fLog := none })

@[simp] lemma createFile_maxLogNum (s : State) (m : Moment) :
    (s.createFile m).2.maxLogNum = s.maxLogNum := by
  unfold createFile
  split_ifs <;> simp

lemma createFile_minFName (s : State) (m : Moment) : (s.createFile m).2.minFName =
    insert (curLogPath s.name m.sTime)
      (s.clearLater (curLogName s.name m.sTime)).minFName := by
  unfold createFile
  split_ifs <;> rfl

@[simp] lemma createFile_fst (s : State) (m : Moment) : (s.createFile m).1 = m.opens := by
  unfold createFile
  split_ifs <;> simp [*]

/-- The file of the moment is open, if any is. -/
lemma createFile_fLog (s : State) (m : Moment) : (s.createFile m).2.fLog =
    if m.opens then some ⟨curLogPath s.name m.sTime, []⟩ else none := by
  unfold createFile
  split_ifs <;> rfl

def closeFile (s : State) : State := { s with fLog := none, fLength := 0 }

/-- A pass of the loop of `updateLogNum` -/
def removeFirst (s : State) (h : s.minFName.Nonempty) : State :=
  { s with
    minFName := s.minFName.erase (s.minFName.min' h)
    disk := s.disk.erase (s.minFName.min' h) }

def updateLogNum (s : State) : State :=
  if h : s.maxLogNum.toNat < s.minFName.card then
    (s.removeFirst (Finset.card_pos.mp (Nat.zero_lt_of_lt h))).updateLogNum
  else s
termination_by s.minFName.card
decreasing_by exact Finset.card_erase_lt_of_mem (Finset.min'_mem _ _)

/-- What the loop does is not seen elsewhere. -/
lemma updateLogNum_eq (s : State) : s.updateLogNum =
    { s with minFName := s.updateLogNum.minFName, disk := s.updateLogNum.disk } := by
  induction s using updateLogNum.induct with
  | case1 s h ih =>
    rw [updateLogNum, dif_pos h]
    exact ih
  | case2 s h => rw [updateLogNum, dif_neg h]

lemma updateLogNum_maxLogNum (s : State) : s.updateLogNum.maxLogNum = s.maxLogNum := by
  rw [updateLogNum_eq s]

lemma updateLogNum_of_le {s : State} (h : s.minFName.card ≤ s.maxLogNum.toNat) :
    s.updateLogNum = s := by
  rw [updateLogNum, dif_neg (by omega)]

lemma card_updateLogNum (s : State) : s.updateLogNum.minFName.card ≤ s.maxLogNum.toNat := by
  induction s using updateLogNum.induct with
  | case1 s h ih =>
    rw [updateLogNum, dif_pos h]
    exact ih
  | case2 s h =>
    rw [updateLogNum, dif_neg h]
    omega

/-- The size in whole megabytes is over the limit. -/
def Rotates (s : State) : Prop := s.maxLogSize < s.fLength >>> 20

instance (s : State) : Decidable s.Rotates := inferInstanceAs (Decidable (_ < _))

/-- `fwrite`, `fflush` and the count. To write to a null pointer is undefined. -/
def write (s : State) (buffer : List UInt8) : Except Fault State :=
  match s.fLog with
  | none => .error .undefined
  | some f => .ok { s with
      fLog := some { f with written := f.written ++ buffer }
      fLength := s.fLength + UInt32.ofNat buffer.length }

def saveLog (s : State) (buffer : List UInt8) (m : Moment) : Except Fault State :=
  if s.fLog = none then .ok s
  else if s.Rotates then (s.updateLogNum.closeFile.createFile m).2.write buffer
  else s.write buffer

lemma write_open {s t : State} {buffer : List UInt8} (h : s.write buffer = .ok t) :
    s.fLog ≠ none := by
  rintro hnone
  simp [write, hnone] at h

/-- What a call of `saveLog` that returns has done. -/
lemma saveLog_cases {s t : State} {buffer : List UInt8} {m : Moment}
    (h : s.saveLog buffer m = .ok t) :
    (s.fLog = none ∧ t = s) ∨
    (s.fLog ≠ none ∧ s.Rotates ∧ m.opens = true ∧
      (s.updateLogNum.closeFile.createFile m).2.write buffer = .ok t) ∨
    (s.fLog ≠ none ∧ ¬ s.Rotates ∧ s.write buffer = .ok t) := by
  unfold saveLog at h
  split_ifs at h with hnone hrot
  · exact .inl ⟨hnone, (Except.ok.inj h).symm⟩
  · have hopens : m.opens = true := by
      by_contra hfail
      exact write_open h (by rw [createFile_fLog, if_neg hfail])
    exact .inr (.inl ⟨hnone, hrot, hopens, h⟩)
  · exact .inr (.inr ⟨hnone, hrot, h⟩)

end State

/-- `cfgValue[key].asInt()` -/
def cfgInt (cfgValue : Value R) (key : String) : Except Fault ℤ := do
  (← cfgValue.member key).asInt

/-- A log that has just been constructed and given its limits -/
def constructed (name : String) (disk : Finset String) (maxLogNum maxLogSize : ℤ) : State :=
  ⟨name, none, 0, UInt32.ofInt maxLogSize, UInt32.ofInt maxLogNum, ∅, disk⟩

/-- `init` of a log that has just been constructed. Both members it compares with zero are
unsigned. -/
def init (name : String) (cfgValue : Value R) (disk : Finset String) (m : Moment) :
    Except Fault (Bool × State) := do
  let maxLogNum ← cfgInt cfgValue "logLimitNum"
  let maxLogSize ← cfgInt cfgValue "logLimitSize"
  let s := constructed name disk maxLogNum maxLogSize
  if s.maxLogNum < 0 ∨ s.maxLogSize < 0 then
    return (false, s)
  else
    let (created, t) := s.processLog.createFile m
    if !created then
      return (false, t)
    else
      return (true, { t.updateLogNum with fLength := 0 })

/-- What `init` has done if it says so. -/
lemma init_eq_true {name : String} {cfgValue : Value R} {disk : Finset String} {m : Moment}
    {s : State} (h : init name cfgValue disk m = .ok (true, s)) : ∃ maxLogNum maxLogSize,
      cfgInt cfgValue "logLimitNum" = .ok maxLogNum ∧
      cfgInt cfgValue "logLimitSize" = .ok maxLogSize ∧ m.opens = true ∧ s =
        { ((constructed name disk maxLogNum maxLogSize).processLog.createFile m).2.updateLogNum with
          fLength := 0 } := by
  rcases hnum : cfgInt cfgValue "logLimitNum" with e | maxLogNum
  · simp [init, hnum, bind, Except.bind] at h
  rcases hsize : cfgInt cfgValue "logLimitSize" with e | maxLogSize
  · simp [init, hnum, hsize, bind, Except.bind] at h
  simp only [init, hnum, hsize, bind, Except.bind] at h
  split_ifs at h with hneg hcreated
  · simp [pure, Except.pure] at h
  · simp [pure, Except.pure] at h
  · obtain rfl : _ = s := by simpa [pure, Except.pure] using h
    exact ⟨maxLogNum, maxLogSize, rfl, rfl, by simpa using hcreated, rfl⟩

/-- `init` goes well if its limits are integers and its file can be opened. -/
lemma init_of_opens (name : String) {cfgValue : Value R} (disk : Finset String) {m : Moment}
    {maxLogNum maxLogSize : ℤ} (hnum : cfgInt cfgValue "logLimitNum" = .ok maxLogNum)
    (hsize : cfgInt cfgValue "logLimitSize" = .ok maxLogSize) (hopens : m.opens = true) :
    init name cfgValue disk m = .ok (true,
      { ((constructed name disk maxLogNum maxLogSize).processLog.createFile m).2.updateLogNum with
        fLength := 0 }) := by
  simp [init, hnum, hsize, bind, Except.bind, hopens, pure, Except.pure]

/-- A call of `saveLog` -/
structure Call where
  buffer : List UInt8
  moment : Moment

/-- A call that returns. -/
def step (s : State) (c : Call) : Option (State × List Unit) :=
  match s.saveLog c.buffer c.moment with
  | .ok t => some (t, [])
  | .error _ => none

lemma saveLog_of_step {s t : State} {c : Call} {o : List Unit} (h : step s c = some (t, o)) :
    s.saveLog c.buffer c.moment = .ok t := by
  unfold step at h
  split at h
  · rename_i u hu
    obtain ⟨rfl, -⟩ : u = t ∧ _ := by simpa using h
    exact hu
  · cases h

/-- There is room for the file of a rotation: fewer are kept than may be, or it is among them,
or the clock is behind them all. -/
def Room (n : ℕ) (s : State) (sTime : SysTime) : Prop :=
  s.minFName.card < n ∨ curLogPath s.name sTime ∈ s.minFName ∨
    ∃ h : s.minFName.Nonempty, curLogName s.name sTime < s.minFName.min' h

/-- A rotation that goes well has room. -/
def RotatesInto (n : ℕ) (s : State) (c : Call) : Prop :=
  s.fLog ≠ none → s.Rotates → c.moment.opens = true → Room n s c.moment.sTime

/-! ### What is kept is on the disk -/

/-- Every file that is kept is there. -/
def State.OnDisk (s : State) : Prop := s.minFName ⊆ s.disk

namespace State.OnDisk

variable {s t : State} {m : Moment}

lemma updateLogNum (h : s.OnDisk) : s.updateLogNum.OnDisk := by
  induction s using State.updateLogNum.induct with
  | case1 s hlt ih =>
    rw [State.updateLogNum, dif_pos hlt]
    exact ih (Finset.erase_subset_erase _ h)
  | case2 s hle => rwa [State.updateLogNum, dif_neg hle]

lemma clearLater (h : s.OnDisk) (cur : String) : (s.clearLater cur).OnDisk := by
  unfold State.clearLater
  split_ifs
  · exact Finset.empty_subset _
  · exact h
  · exact h

lemma createFile (h : s.OnDisk) (hopens : m.opens = true) : (s.createFile m).2.OnDisk := by
  simp only [State.createFile, hopens, if_true]
  exact Finset.insert_subset_insert _ (h.clearLater _)

lemma write {buffer : List UInt8} (h : s.OnDisk) (hw : s.write buffer = .ok t) : t.OnDisk := by
  unfold State.write at hw
  split at hw
  · cases hw
  · obtain rfl := Except.ok.inj hw
    exact h

lemma saveLog {buffer : List UInt8} (h : s.OnDisk) (hs : s.saveLog buffer m = .ok t) :
    t.OnDisk := by
  obtain ⟨-, rfl⟩ | ⟨-, -, hopens, hw⟩ | ⟨-, -, hw⟩ := State.saveLog_cases hs
  · exact h
  · exact write (createFile (s := s.updateLogNum.closeFile) h.updateLogNum hopens) hw
  · exact h.write hw

end State.OnDisk

/-- After `init` and after every call that returns the files that are kept are there. -/
theorem kept_on_disk {name : String} {cfgValue : Value R} {disk : Finset String} {m : Moment}
    {s : State} (hinit : init name cfgValue disk m = .ok (true, s)) (calls : List Call) :
    Always step State.OnDisk s calls := by
  refine always_of_step (fun t c u o h hstep => h.saveLog (saveLog_of_step hstep)) ?_ calls
  obtain ⟨maxLogNum, maxLogSize, -, -, hopens, rfl⟩ := init_eq_true hinit
  have hfound : (constructed name disk maxLogNum maxLogSize).processLog.OnDisk := by
    simp [State.OnDisk, State.processLog, constructed]
  exact (hfound.createFile hopens).updateLogNum

/-! ### How many files are kept -/

section Retention

variable {n : ℕ} {s t : State} {c : Call}

lemma write_eq_ok {buffer : List UInt8} (h : s.write buffer = .ok t) :
    t.minFName = s.minFName ∧ t.maxLogNum = s.maxLogNum := by
  unfold State.write at h
  split at h
  · cases h
  · obtain rfl := Except.ok.inj h
    exact ⟨rfl, rfl⟩

/-- One more file is kept than before, unless there is room. -/
lemma card_createFile (h : s.minFName.card ≤ n) (hpos : 1 ≤ n) (m : Moment) :
    (s.createFile m).2.minFName.card ≤ n ↔ Room n s m.sTime := by
  rw [State.createFile_minFName]
  by_cases hlater : ∃ h : s.minFName.Nonempty, curLogName s.name m.sTime < s.minFName.min' h
  · obtain ⟨hne, hlt⟩ := hlater
    have hclear : (s.clearLater (curLogName s.name m.sTime)).minFName = ∅ := by
      simp [State.clearLater, hne, hlt]
    rw [hclear]
    refine iff_of_true ?_ (.inr (.inr ⟨hne, hlt⟩))
    simpa using hpos
  · have hkeep : s.clearLater (curLogName s.name m.sTime) = s := by
      unfold State.clearLater
      split_ifs with hne hlt
      · exact absurd ⟨hne, hlt⟩ hlater
      · rfl
      · rfl
    rw [hkeep]
    by_cases hmem : curLogPath s.name m.sTime ∈ s.minFName
    · rw [Finset.insert_eq_of_mem hmem]
      exact iff_of_true h (.inr (.inl hmem))
    · rw [Finset.card_insert_of_notMem hmem]
      constructor
      · intro hcard
        exact .inl (by omega)
      · rintro (hcard | hin | hlt)
        · omega
        · exact absurd hin hmem
        · exact absurd hlt hlater

/-- What a call of `saveLog` that returns does to the number of files. -/
lemma card_step {o : List Unit} (hstep : step s c = some (t, o)) (hpos : 1 ≤ n)
    (hmax : s.maxLogNum.toNat = n) (hcard : s.minFName.card ≤ n) :
    t.maxLogNum.toNat = n ∧ (t.minFName.card ≤ n ↔ RotatesInto n s c) := by
  obtain ⟨hnone, rfl⟩ | ⟨hnone, hrot, hopens, hw⟩ | ⟨hnone, hrot, hw⟩ :=
    State.saveLog_cases (saveLog_of_step hstep)
  · exact ⟨hmax, iff_of_true hcard fun h => absurd hnone h⟩
  · obtain ⟨hmin, hnum⟩ := write_eq_ok hw
    rw [State.updateLogNum_of_le (by omega)] at hmin hnum
    refine ⟨by rw [hnum, State.createFile_maxLogNum]; exact hmax, ?_⟩
    have hroom := card_createFile (s := s.closeFile) hcard hpos c.moment
    rw [hmin, hroom]
    exact ⟨fun h _ _ _ => h, fun h => h hnone hrot hopens⟩
  · obtain ⟨hmin, hnum⟩ := write_eq_ok hw
    refine ⟨by rw [hnum]; exact hmax, iff_of_true (by rw [hmin]; exact hcard) ?_⟩
    exact fun _ h => absurd h hrot

/-- A call returns if the file of its rotation can be opened. -/
lemma step_of_opens (hopens : s.Rotates → c.moment.opens = true) :
    ∃ t, step s c = some (t, []) := by
  obtain ⟨t, ht⟩ : ∃ t, s.saveLog c.buffer c.moment = .ok t := by
    unfold State.saveLog
    split_ifs with hnone hrot
    · exact ⟨s, rfl⟩
    · simp [State.write, State.createFile_fLog, hopens hrot]
    · obtain ⟨f, hf⟩ := Option.ne_none_iff_exists'.mp hnone
      simp [State.write, hf]
  exact ⟨t, by rw [step, ht]⟩

/-- `init` prunes last. -/
lemma card_init {name : String} {cfgValue : Value R} {disk : Finset String} {m : Moment}
    (hlimit : cfgInt cfgValue "logLimitNum" = .ok (n : ℤ)) (hint : (n : ℤ) ≤ intMax)
    (hinit : init name cfgValue disk m = .ok (true, s)) :
    s.maxLogNum.toNat = n ∧ s.minFName.card ≤ n := by
  have hnum : (UInt32.ofInt n).toNat = n := by
    simp only [intMax] at hint
    simp only [UInt32.ofInt, UInt32.toNat_ofNat']
    omega
  obtain ⟨maxLogNum, maxLogSize, hlimit', -, -, rfl⟩ := init_eq_true hinit
  obtain rfl : (n : ℤ) = maxLogNum := Except.ok.inj (hlimit.symm.trans hlimit')
  have hcard := State.card_updateLogNum
    ((constructed name disk n maxLogSize).processLog.createFile m).2
  refine ⟨?_, ?_⟩
  · simp [State.updateLogNum_maxLogNum, State.processLog, constructed, hnum]
  · simpa [State.processLog, constructed, hnum] using hcard

/-- No more files than the limit are kept, after `init` and after every call of `saveLog` that
returns, exactly if every rotation has room for the file it creates. -/
theorem retention_iff (name : String) (cfgValue : Value R) (disk : Finset String) (m : Moment)
    (n : ℕ) (hlimit : cfgInt cfgValue "logLimitNum" = .ok (n : ℤ)) (hint : (n : ℤ) ≤ intMax)
    (hpos : 1 ≤ n) (s : State) (hinit : init name cfgValue disk m = .ok (true, s))
    (calls : List Call) :
    Always step (fun t => t.minFName.card ≤ n) s calls ↔
      Along step (RotatesInto n) s calls := by
  obtain ⟨hmax, hcard⟩ := card_init hlimit hint hinit
  refine always_iff_along (I := fun t : State => t.maxLogNum.toNat = n) ?_ ?_ hmax hcard calls
  · intro s c t o hmax hcard hstep
    exact card_step hstep hpos hmax hcard
  · intro s c _ _ hstuck _ _ hopens
    obtain ⟨t, ht⟩ := step_of_opens (s := s) (c := c) fun _ => hopens
    rw [hstuck] at ht
    cases ht

/-- A device that may keep `n` files and begins another one with every megabyte. -/
def limited (n : ℤ) : Value ℚ :=
  .object [("logLimitNum", .int n), ("logLimitSize", .int 0)]

/-- A second in which files can be opened. -/
def second (k : ℕ) : Moment := ⟨⟨0, k, 0, 12, 1, 7, 2024, 1⟩, true⟩

def megabyte : List UInt8 := List.replicate 1048576 0

/-- The log of `dev` after `init` in an empty folder -/
def fresh (n : UInt32) : State :=
  let path := curLogPath "dev" (second 0).sTime
  ⟨"dev", some ⟨path, []⟩, 0, 0, n, {path}, {path}⟩

lemma init_limited {n : ℕ} (hint : (n : ℤ) ≤ intMax) (name : String) (disk : Finset String)
    {m : Moment} (hopens : m.opens = true) : cfgInt (limited n) "logLimitNum" = .ok (n : ℤ) ∧
      init name (limited n) disk m = .ok (true,
        { ((constructed name disk n 0).processLog.createFile m).2.updateLogNum with
          fLength := 0 }) := by
  have hnum : cfgInt (limited n) "logLimitNum" = .ok (n : ℤ) := by
    show (if _ then _ else _) = _
    exact if_pos ⟨by simp only [intMin]; omega, hint⟩
  exact ⟨hnum, init_of_opens name disk hnum rfl hopens⟩

lemma init_fresh {n : ℕ} (hpos : 1 ≤ n) (hint : (n : ℤ) ≤ intMax) :
    cfgInt (limited n) "logLimitNum" = .ok (n : ℤ) ∧
      init "dev" (limited n) ∅ (second 0) = .ok (true, fresh (UInt32.ofInt n)) := by
  obtain ⟨hnum, hinit⟩ := init_limited hint "dev" ∅ (m := second 0) rfl
  have hkeep : (fresh (UInt32.ofInt n)).updateLogNum = fresh (UInt32.ofInt n) := by
    refine State.updateLogNum_of_le ?_
    simp only [intMax] at hint
    simp only [fresh, UInt32.ofInt, UInt32.toNat_ofNat', Finset.card_singleton]
    omega
  have hcreate : (constructed "dev" ∅ n 0).processLog.createFile (second 0) =
      (true, fresh (UInt32.ofInt n)) := rfl
  rw [hcreate, hkeep] at hinit
  exact ⟨hnum, hinit⟩

/-- The second call begins another file. -/
def twoCalls : List Call := [⟨megabyte, second 0⟩, ⟨[0x2a], second 1⟩]

/-- The log after a whole megabyte -/
def full (n : UInt32) : State :=
  { fresh n with
    fLog := some ⟨curLogPath "dev" (second 0).sTime, megabyte⟩
    fLength := 0 + UInt32.ofNat megabyte.length }

lemma step_full (n : UInt32) : step (fresh n) ⟨megabyte, second 0⟩ = some (full n, []) := by
  have hopen : (fresh n).fLog ≠ none := by simp [fresh]
  have hrot : ¬ (fresh n).Rotates := by simp [State.Rotates, fresh]
  simp only [step, State.saveLog, if_neg hopen, if_neg hrot]
  rfl

lemma run_twoCalls (n : UInt32) : ∃ t o, run step (fresh n) twoCalls = some (t, o) := by
  obtain ⟨t, ht⟩ := step_of_opens (s := full n) (c := ⟨[0x2a], second 1⟩) fun _ => rfl
  exact ⟨t, [], run_cons.mpr ⟨_, [], [], step_full _, by rw [run_singleton]; exact ht, rfl⟩⟩

/-- Nothing rotates before the second call. -/
lemma along_twoCalls {C : State → Call → Prop} {n : UInt32}
    (hfirst : ¬ (fresh n).Rotates → C (fresh n) ⟨megabyte, second 0⟩)
    (hsecond : C (full n) ⟨[0x2a], second 1⟩) : Along step C (fresh n) twoCalls := by
  refine along_cons.mpr ⟨hfirst (by simp [State.Rotates, fresh]), fun t o ht => ?_⟩
  obtain ⟨rfl, -⟩ : full n = t ∧ _ := by simpa using (step_full n).symm.trans ht
  exact along_cons.mpr ⟨hsecond, fun _ _ _ => each_nil⟩

lemma full_rotates (n : UInt32) : (full n).Rotates := by
  have hsize : (full n).fLength = 1048576 := by
    simp only [full, megabyte, List.length_replicate]
    decide
  rw [State.Rotates, hsize]
  show (0 : UInt32) < (1048576 : UInt32) >>> (20 : UInt32)
  decide

lemma no_room (n : UInt32) : ¬ Room 1 (full n) (second 1).sTime := by
  rintro (hcard | hmem | ⟨hne, hlt⟩)
  · simp [full, fresh] at hcard
  · revert hmem
    simp only [full, fresh, Finset.mem_singleton]
    decide
  · simp only [full, fresh, Finset.min'_singleton] at hlt
    revert hlt
    decide

theorem two_files_kept : ∃ s, init "dev" (limited 2) ∅ (second 0) = .ok (true, s) ∧
    (∃ t o, run step s twoCalls = some (t, o)) ∧
      Always step (fun t => t.minFName.card ≤ 2) s twoCalls := by
  obtain ⟨hlimit, hinit⟩ := init_fresh (n := 2) (by decide) (by decide)
  have hroom : Room 2 (full (UInt32.ofInt 2)) (second 1).sTime := .inl (by simp [full, fresh])
  refine ⟨_, hinit, run_twoCalls _, (retention_iff "dev" (limited 2) ∅ (second 0) 2 hlimit
    (by decide) (by decide) _ hinit twoCalls).mpr (along_twoCalls ?_ ?_)⟩
  · intro hfirst _ hrot
    exact absurd hrot hfirst
  · exact fun _ _ _ => hroom

theorem limit_exceeded : ¬ ∀ (name : String) (cfgValue : Value ℚ) (disk : Finset String)
    (m : Moment) (n : ℕ), cfgInt cfgValue "logLimitNum" = .ok (n : ℤ) → (n : ℤ) ≤ intMax → 1 ≤ n →
      ∀ s, init name cfgValue disk m = .ok (true, s) → ∀ calls : List Call,
        Always step (fun t => t.minFName.card ≤ n) s calls := by
  intro h
  obtain ⟨hlimit, hinit⟩ := init_fresh (n := 1) (by decide) (by decide)
  have hkept := h "dev" (limited 1) ∅ (second 0) 1 hlimit (by decide) (by decide) _ hinit twoCalls
  have hsecond := (always_cons.mp hkept).2 _ _ (step_full _)
  obtain ⟨t, ht⟩ := step_of_opens (s := full (UInt32.ofInt 1)) (c := ⟨[0x2a], second 1⟩)
    fun _ => rfl
  have hlast := (always_cons.mp hsecond).2 t [] ht
  have hcard := (always_nil (P := fun t : State => t.minFName.card ≤ 1)).mp hlast
  have hiff := (card_step ht le_rfl (by decide) (by simp [full, fresh])).2
  exact no_room _ (hiff.mp hcard (by simp [full, fresh]) (full_rotates _) rfl)

end Retention

end DataEngine.Log
