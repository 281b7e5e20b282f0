import DataEngine.Lib.Digits
import DataEngine.Log.Log

/-!
What a log does when the clock is behind its files.

The name of the new file is compared with the path of the first one that is kept. They differ
before either comes to its time, so it is the name of the device that decides whether the files
are removed. What is kept is pruned in the order of the paths, which is that of the times, the
open file like any other.
-/

namespace DataEngine.Log

open Json Lib.Digits Lib.Machine Lib.Trace
open TransIEC104 (SysTime)

variable {R : Type} [Double R]

/-! ### The comparison -/

/-- Texts that differ in time are compared by where they differ. -/
lemma append_lt_append_iff {a b : List Char} (hpre : ¬ a <+: b) (hlen : a.length ≤ b.length)
    (x y : List Char) : a ++ x < b ++ y ↔ a < b := by
  induction a generalizing b with
  | nil => exact absurd List.nil_prefix hpre
  | cons c a ih =>
    cases b with
    | nil => simp at hlen
    | cons d b =>
      rw [List.cons_append, List.cons_append, List.cons_lt_cons_iff, List.cons_lt_cons_iff]
      refine or_congr_right (and_congr_right fun hcd => ?_)
      subst hcd
      exact ih (fun h => hpre (List.cons_prefix_cons.mpr ⟨rfl, h⟩)) (by simpa using hlen)

/-- A text does not begin again, behind another, with itself and a character that is not in the
other one. -/
lemma not_prefix_append {c : Char} {folder : List Char} (hc : c ∉ folder) (hne : folder ≠ [])
    (name : List Char) : ¬ name ++ [c] <+: folder ++ name := by
  induction hn : name.length using Nat.strong_induction_on generalizing name with
  | _ n ih =>
    intro hpre
    by_cases hlen : folder.length ≤ name.length
    · -- the name begins with the folder, and what follows is shorter
      have hfolder : folder <+: name :=
        List.prefix_of_prefix_length_le (List.prefix_append folder name)
          ((List.prefix_append name [c]).trans hpre) hlen
      obtain ⟨rest, rfl⟩ := hfolder
      rw [List.append_assoc, List.prefix_append_right_inj] at hpre
      have hpos := List.length_pos_iff.mpr hne
      exact ih rest.length (by rw [List.length_append] at hn; omega) rest rfl hpre
    · have hmem : c ∈ folder := by
        have hshort : name ++ [c] <+: folder :=
          List.prefix_of_prefix_length_le hpre (List.prefix_append folder name)
            (by simp only [List.length_append, List.length_singleton]; omega)
        exact hshort.subset (by simp)
      exact hc hmem

/-- The name sorts before the folder of the device. -/
def SortsFirst (name : String) : Prop := name ++ "_" < "./log/engine/" ++ name

instance (name : String) : Decidable (SortsFirst name) := inferInstanceAs (Decidable (_ < _))

/-- A new file comes before one that is kept by the name of the device alone. -/
lemma curLogName_lt_iff (name : String) (t u : SysTime) :
    curLogName name t < curLogPath name u ↔ SortsFirst name := by
  have hname : (curLogName name t).toList = name.toList ++ ['_'] ++
      (toString t.year ++ setw2 t.mon ++ setw2 t.day ++ "_" ++ setw2 t.hour ++ setw2 t.min ++
        setw2 t.sec ++ ".log").toList := by
    simp [curLogName]
  have hpath : (curLogPath name u).toList = "./log/engine/".toList ++ name.toList ++
      ("/" ++ curLogName name u).toList := by
    simp [curLogPath, logPath]
  rw [SortsFirst, String.lt_iff_toList_lt, String.lt_iff_toList_lt, hname, hpath,
    append_lt_append_iff (not_prefix_append (by decide) (by decide) _)]
  · simp
  · simp

/-! ### What a new file removes -/

/-- A second that comes before another one. -/
def Earlier (t u : SysTime) : Prop :=
  [t.year, t.mon, t.day, t.hour, t.min, t.sec] < [u.year, u.mon, u.day, u.hour, u.min, u.sec]

instance (t u : SysTime) : Decidable (Earlier t u) := inferInstanceAs (Decidable (_ < _))

/-- The files that `createFile` removes -/
def State.removed (s : State) (m : Moment) : Finset String :=
  s.disk \ (s.clearLater (curLogName s.name m.sTime)).disk

/-- The new file removes all that are kept if it is earlier than each of them, else none. -/
def Purges (s : State) (logs : Finset SysTime) (m : Moment) : Prop :=
  s.removed m = if ∀ u ∈ logs, Earlier m.sTime u then s.minFName else ∅

/-- The files that are kept bear the name of the device and a time. -/
def State.Named (s : State) : Prop := ∀ p ∈ s.minFName, ∃ u, p = curLogPath s.name u

namespace State.Named

variable {s : State}

lemma clearLater (h : s.Named) (t : SysTime) : s.clearLater (curLogName s.name t) =
    if SortsFirst s.name then { s with minFName := ∅, disk := s.disk \ s.minFName } else s := by
  unfold State.clearLater
  by_cases hne : s.minFName.Nonempty
  · obtain ⟨u, hu⟩ := h _ (Finset.min'_mem _ hne)
    rw [dif_pos hne, hu]
    simp only [curLogName_lt_iff]
  · obtain hempty : s.minFName = ∅ := Finset.not_nonempty_iff_eq_empty.mp hne
    rw [dif_neg hne, hempty, Finset.sdiff_empty, ← hempty, ite_self]

lemma removed (h : s.Named) (hdisk : s.OnDisk) (m : Moment) :
    s.removed m = if SortsFirst s.name then s.minFName else ∅ := by
  rw [State.removed, h.clearLater]
  split_ifs
  · exact Finset.sdiff_sdiff_eq_self hdisk
  · exact Finset.sdiff_self _

end State.Named

lemma ite_empty_eq_iff {α : Type} {p q : Prop} [Decidable p] [Decidable q] {a : Finset α} :
    ((if p then a else ∅) = if q then a else ∅) ↔ a = ∅ ∨ (p ↔ q) := by
  by_cases hp : p <;> by_cases hq : q <;> simp [hp, hq, eq_comm]

/-- The files are treated as their times say exactly if the name says the same, or if there are
none. -/
lemma purges_iff {s : State} {logs : Finset SysTime}
    (hlogs : s.minFName = logs.image (curLogPath s.name)) (hdisk : s.OnDisk) (m : Moment) :
    Purges s logs m ↔ logs = ∅ ∨ (SortsFirst s.name ↔ ∀ u ∈ logs, Earlier m.sTime u) := by
  have hnamed : s.Named := by
    intro p hp
    rw [hlogs] at hp
    obtain ⟨u, -, rfl⟩ := Finset.mem_image.mp hp
    exact ⟨u, rfl⟩
  have hempty : s.minFName = ∅ ↔ logs = ∅ := by rw [hlogs, Finset.image_eq_empty]
  rw [Purges, hnamed.removed hdisk, ← hempty]
  exact ite_empty_eq_iff

/-! ### What is pruned -/

/-- The files that are kept and sort after the path -/
def State.behind (s : State) (path : String) : Finset String := {p ∈ s.minFName | path < p}

namespace State

variable {s : State} {path : String}

lemma card_behind_lt (hmem : path ∈ s.minFName) : (s.behind path).card < s.minFName.card := by
  refine Finset.card_lt_card ⟨Finset.filter_subset _ _, fun hsub => ?_⟩
  exact absurd (Finset.mem_filter.mp (hsub hmem)).2 (lt_irrefl path)

/-- The first file is behind no other, and it is behind every path that sorts before them. -/
lemma behind_removeFirst (h : s.minFName.Nonempty) :
    (s.removeFirst h).behind path = (s.behind path).erase (s.minFName.min' h) :=
  Finset.filter_erase _ _ _

lemma behind_eq_of_lt {h : s.minFName.Nonempty} (hlt : path < s.minFName.min' h) :
    s.behind path = s.minFName :=
  Finset.filter_true_of_mem fun p hp => hlt.trans_le (Finset.min'_le _ p hp)

/-- The pass leaves as many behind a path as there were, unless more are than may be kept. -/
lemma card_behind_removeFirst (path : String) (h : s.minFName.Nonempty)
    (hlt : s.maxLogNum.toNat < s.minFName.card) :
    ((s.removeFirst h).behind path).card < s.maxLogNum.toNat ↔
      (s.behind path).card < s.maxLogNum.toNat := by
  rw [behind_removeFirst]
  by_cases hfirst : path < s.minFName.min' h
  · rw [behind_eq_of_lt hfirst, Finset.card_erase_of_mem (Finset.min'_mem _ h)]
    omega
  · have hout : s.minFName.min' h ∉ s.behind path := fun hmem =>
      hfirst (Finset.mem_filter.mp hmem).2
    rw [Finset.erase_eq_of_notMem hout]

lemma card_behind_updateLogNum (s : State) (path : String) :
    (s.updateLogNum.behind path).card < s.maxLogNum.toNat ↔
      (s.behind path).card < s.maxLogNum.toNat := by
  induction s using State.updateLogNum.induct with
  | case1 s hlt ih =>
    rw [updateLogNum, dif_pos hlt]
    exact ih.trans (card_behind_removeFirst path _ hlt)
  | case2 s hle => rw [updateLogNum, dif_neg hle]

/-- A file stays if it is not one of those that are kept or fewer than the limit sort after it. -/
lemma mem_updateLogNum_disk (s : State) (path : String) : path ∈ s.updateLogNum.disk ↔
    path ∈ s.disk ∧ (path ∈ s.minFName → (s.behind path).card < s.maxLogNum.toNat) := by
  induction s using State.updateLogNum.induct with
  | case1 s hlt ih =>
    have hne : s.minFName.Nonempty := Finset.card_pos.mp (Nat.zero_lt_of_lt hlt)
    have hcard := card_behind_removeFirst path hne hlt
    rw [updateLogNum, dif_pos hlt, ih]
    rcases eq_or_ne path (s.minFName.min' hne) with rfl | hother
    · -- all the others are behind the first one
      have hmem := Finset.min'_mem _ hne
      have hall : s.behind (s.minFName.min' hne) = s.minFName.erase (s.minFName.min' hne) := by
        ext p
        rw [behind, Finset.mem_filter, Finset.mem_erase]
        refine ⟨fun h => ⟨h.2.ne', h.1⟩, fun h => ⟨h.2, ?_⟩⟩
        exact Finset.min'_lt_of_mem_erase_min' _ hne (Finset.mem_erase.mpr h)
      refine iff_of_false (fun h => Finset.notMem_erase _ _ h.1) fun h => ?_
      have hfew := h.2 hmem
      rw [hall, Finset.card_erase_of_mem hmem] at hfew
      omega
    · simp only [removeFirst, Finset.mem_erase, ne_eq, hother, not_false_eq_true, true_and]
        at hcard ⊢
      rw [hcard]
  | case2 s hle =>
    rw [updateLogNum, dif_neg hle]
    refine (and_iff_left fun hmem => ?_).symm
    have := card_behind_lt hmem
    omega

end State

/-! ### The open file -/

/-- `updateLogNum` does not remove the open file. -/
def KeepsOpen (s : State) : Prop :=
  ∀ f, s.fLog = some f → f.path ∈ s.disk → f.path ∈ s.updateLogNum.disk

/-- Pruning does not come to the file of the time: the others are removed before it is created, or
fewer of them than the limit sort after it. -/
def Ahead (n : ℕ) (name : String) (others : Finset String) (sTime : SysTime) : Prop :=
  SortsFirst name ∨ {p ∈ others | curLogPath name sTime < p}.card < n

/-- The year has four digits, the other fields have two at most. -/
structure Dated (t : SysTime) : Prop where
  year_ge : 10 ^ 3 ≤ t.year
  year_lt : t.year < 10 ^ 4
  mon : t.mon < 10 ^ 2
  day : t.day < 10 ^ 2
  hour : t.hour < 10 ^ 2
  min : t.min < 10 ^ 2
  sec : t.sec < 10 ^ 2

lemma toList_setw2 {n : ℕ} (h : n < 10 ^ 2) : (setw2 n).toList = fixed 10 2 n := by
  unfold setw2
  split_ifs with hlt
  · simp [Nat.toDigits_of_lt_base hlt, fixed, Nat.div_eq_of_lt hlt, Nat.mod_eq_of_lt hlt]
  · simp [fixed_eq_toDigits (show 1 < 10 by decide) (show 10 ^ 1 ≤ n by omega) h]

namespace Dated

variable {t u : SysTime}

/-- The path of a file, with the fields that tell it from the others of the device. -/
lemma toList_curLogPath (name : String) (h : Dated t) : (curLogPath name t).toList =
    (logPath name ++ "/" ++ name ++ "_").toList ++ (fixed 10 4 t.year ++ (fixed 10 2 t.mon ++
      (fixed 10 2 t.day ++ (['_'] ++ (fixed 10 2 t.hour ++ (fixed 10 2 t.min ++
        (fixed 10 2 t.sec ++ ".log".toList))))))) := by
  have hyear := fixed_eq_toDigits (show 1 < 10 by decide) h.year_ge h.year_lt
  simp [curLogPath, curLogName, hyear, toList_setw2 h.mon, toList_setw2 h.day,
    toList_setw2 h.hour, toList_setw2 h.min, toList_setw2 h.sec]

/-- The files of a device are sorted by their times. -/
lemma curLogPath_lt_iff (name : String) (ht : Dated t) (hu : Dated u) :
    curLogPath name t < curLogPath name u ↔ Earlier t u := by
  rw [String.lt_iff_toList_lt, ht.toList_curLogPath, hu.toList_curLogPath, append_left_lt_iff,
    fixed_append_lt_iff le_rfl ht.year_lt hu.year_lt, fixed_append_lt_iff le_rfl ht.mon hu.mon,
    fixed_append_lt_iff le_rfl ht.day hu.day, append_left_lt_iff,
    fixed_append_lt_iff le_rfl ht.hour hu.hour, fixed_append_lt_iff le_rfl ht.min hu.min,
    fixed_append_lt_iff le_rfl ht.sec hu.sec]
  simp only [Earlier, List.cons_lt_cons_iff, lt_irrefl, and_false, or_false]

end Dated

/-- The times tell whether pruning comes to the file: fewer of the logs than the limit are later. -/
lemma ahead_iff {n : ℕ} (name : String) {logs : Finset SysTime} {t : SysTime} (ht : Dated t)
    (hlogs : ∀ u ∈ logs, Dated u) : Ahead n name (logs.image (curLogPath name)) t ↔
      SortsFirst name ∨ ((logs.filter (Earlier t)).image (curLogPath name)).card < n := by
  have hlater : {p ∈ logs.image (curLogPath name) | curLogPath name t < p} =
      (logs.filter (Earlier t)).image (curLogPath name) := by
    rw [Finset.filter_image]
    congr 1
    exact Finset.filter_congr fun u hu => ht.curLogPath_lt_iff name (hlogs u hu)
  rw [Ahead, hlater]

/-- A rotation that goes well creates such a file. -/
def RotatesAhead (n : ℕ) (s : State) (c : Call) : Prop :=
  s.fLog ≠ none → s.Rotates → c.moment.opens = true → Ahead n s.name s.minFName c.moment.sTime

namespace State.Named

variable {s t : State}

lemma updateLogNum (h : s.Named) : s.updateLogNum.Named := by
  induction s using State.updateLogNum.induct with
  | case1 s hlt ih =>
    rw [State.updateLogNum, dif_pos hlt]
    exact ih fun p hp => h p (Finset.mem_of_mem_erase hp)
  | case2 s hle => rwa [State.updateLogNum, dif_neg hle]

lemma createFile (h : s.Named) (m : Moment) : (s.createFile m).2.Named := by
  intro p hp
  have hname : (s.createFile m).2.name = s.name := by
    unfold State.createFile State.clearLater
    split_ifs <;> rfl
  rw [hname]
  rw [State.createFile_minFName, h.clearLater] at hp
  rcases Finset.mem_insert.mp hp with rfl | hp
  · exact ⟨_, rfl⟩
  · split_ifs at hp
    · exact absurd hp (Finset.notMem_empty p)
    · exact h p hp

/-- The file that is created is kept by a limit of `n` files exactly if it is ahead. -/
lemma keepsOpen_createFile {n : ℕ} {m : Moment} (h : s.Named) (hpos : 1 ≤ n)
    (hmax : s.maxLogNum.toNat = n) (hopens : m.opens = true) :
    KeepsOpen (s.createFile m).2 ↔ Ahead n s.name s.minFName m.sTime := by
  set path := curLogPath s.name m.sTime with hpath
  have hopen : (s.createFile m).2.fLog = some ⟨path, []⟩ := by
    rw [State.createFile_fLog, if_pos hopens]
  have hdisk : path ∈ (s.createFile m).2.disk := by simp [State.createFile, hopens, hpath]
  have hkept : path ∈ (s.createFile m).2.minFName := by
    rw [State.createFile_minFName]
    exact Finset.mem_insert_self _ _
  have hbehind : (s.createFile m).2.behind path =
      if SortsFirst s.name then ∅ else s.behind path := by
    rw [State.behind, State.createFile_minFName, Finset.filter_insert, if_neg (lt_irrefl _),
      h.clearLater]
    split_ifs <;> simp [State.behind]
  have hkeeps : KeepsOpen (s.createFile m).2 ↔ ((s.createFile m).2.behind path).card < n := by
    simp [KeepsOpen, hopen, State.mem_updateLogNum_disk, hdisk, hkept, hmax]
  rw [hkeeps, hbehind, Ahead]
  split_ifs with hfirst
  · exact iff_of_true (by rw [Finset.card_empty]; omega) (.inl hfirst)
  · simp only [hfirst, false_or, hpath, State.behind]

end State.Named

section Runs

variable {n : ℕ} {s t : State} {c : Call}

/-- A write changes nothing but the open file and its length. -/
lemma write_keeps {buffer : List UInt8} (h : s.write buffer = .ok t) :
    (s.Named → t.Named) ∧ t.maxLogNum = s.maxLogNum ∧ (KeepsOpen t ↔ KeepsOpen s) := by
  unfold State.write at h
  split at h
  · cases h
  · rename_i f hf
    obtain rfl := Except.ok.inj h
    refine ⟨id, rfl, ?_⟩
    simp [KeepsOpen, hf, State.mem_updateLogNum_disk, State.behind]

/-- Where the open file is kept, it is so after a call of `saveLog` that returns, unless the file
of its rotation is not ahead. -/
lemma keepsOpen_step {o : List Unit} (hstep : step s c = some (t, o)) (hpos : 1 ≤ n)
    (hnamed : s.Named) (hmax : s.maxLogNum.toNat = n) (hkeeps : KeepsOpen s) :
    (t.Named ∧ t.maxLogNum.toNat = n) ∧ (KeepsOpen t ↔ RotatesAhead n s c) := by
  obtain ⟨hnone, rfl⟩ | ⟨hnone, hrot, hopens, hw⟩ | ⟨hnone, hrot, hw⟩ :=
    State.saveLog_cases (saveLog_of_step hstep)
  · exact ⟨⟨hnamed, hmax⟩, iff_of_true hkeeps fun h => absurd hnone h⟩
  · obtain ⟨hname, hnum, hiff⟩ := write_keeps hw
    have hpruned : s.updateLogNum.closeFile.Named := hnamed.updateLogNum
    have hlimit : s.updateLogNum.closeFile.maxLogNum.toNat = n := by
      rw [← hmax]
      exact congrArg UInt32.toNat s.updateLogNum_maxLogNum
    refine ⟨⟨hname (hpruned.createFile _), ?_⟩, ?_⟩
    · rw [hnum, State.createFile_maxLogNum]
      exact hlimit
    · have hsame : s.updateLogNum.closeFile.name = s.name := by
        rw [State.updateLogNum_eq]
        rfl
      have hahead : Ahead n s.name s.updateLogNum.minFName c.moment.sTime ↔
          Ahead n s.name s.minFName c.moment.sTime := by
        rw [Ahead, Ahead, ← hmax]
        exact or_congr_right (State.card_behind_updateLogNum s _)
      have hcreate := hpruned.keepsOpen_createFile hpos hlimit hopens
      rw [hsame] at hcreate
      calc KeepsOpen t
          ↔ KeepsOpen (s.updateLogNum.closeFile.createFile c.moment).2 := hiff
        _ ↔ Ahead n s.name s.updateLogNum.minFName c.moment.sTime := hcreate
        _ ↔ Ahead n s.name s.minFName c.moment.sTime := hahead
        _ ↔ RotatesAhead n s c := ⟨fun h _ _ _ => h, fun h => h hnone hrot hopens⟩
  · obtain ⟨hname, hnum, hiff⟩ := write_keeps hw
    exact ⟨⟨hname hnamed, by rw [hnum, hmax]⟩,
      iff_of_true (hiff.mpr hkeeps) fun _ h => absurd h hrot⟩

/-- The files in the folder that `processLog` takes over -/
def found (disk : Finset String) : Finset String :=
  disk.filter fun strPath => ".log".toList <:+: strPath.toList

/-- What `init` leaves if it says that it went well. -/
lemma keepsOpen_init {name : String} {cfgValue : Value R} {disk : Finset String} {m : Moment}
    (hlimit : cfgInt cfgValue "logLimitNum" = .ok (n : ℤ)) (hint : (n : ℤ) ≤ intMax) (hpos : 1 ≤ n)
    (hdisk : ∀ p ∈ found disk, ∃ u, p = curLogPath name u)
    (hinit : init name cfgValue disk m = .ok (true, s)) :
    s.Named ∧ KeepsOpen s ∧
      ((∃ f, s.fLog = some f ∧ f.path ∈ s.disk) ↔ Ahead n name (found disk) m.sTime) := by
  obtain ⟨hmax, hcard⟩ := card_init hlimit hint hinit
  obtain ⟨maxLogNum, maxLogSize, hlimit', -, hopens, rfl⟩ := init_eq_true hinit
  obtain rfl : (n : ℤ) = maxLogNum := Except.ok.inj (hlimit.symm.trans hlimit')
  set t := (constructed name disk n maxLogSize).processLog
  have hfound : t.minFName = found disk := Finset.empty_union _
  have hnamed : t.Named := by
    intro p hp
    rw [hfound] at hp
    exact hdisk p hp
  have hnum : t.maxLogNum.toNat = n := by
    rw [← hmax, State.updateLogNum_maxLogNum, State.createFile_maxLogNum]
  refine ⟨(hnamed.createFile m).updateLogNum, ?_, ?_⟩
  · intro f hf hmem
    rwa [State.updateLogNum_of_le (by rw [hmax]; exact hcard)]
  · have hcreate := hnamed.keepsOpen_createFile hpos hnum hopens
    rw [hfound] at hcreate
    refine Iff.trans ?_ hcreate
    rw [State.updateLogNum_eq]
    simp [KeepsOpen, State.createFile, hopens]

/-- A new file removes the others as the times say exactly if there are none or the name says the
same. Pruning does not take the open file, in `init` or in any state after it, exactly if the file
of `init` and those of the rotations are ahead. -/
theorem rollback_iff (name : String) :
    (∀ (s : State) (logs : Finset SysTime) (m : Moment), s.name = name →
      s.minFName = logs.image (curLogPath name) → s.OnDisk →
        (Purges s logs m ↔ logs = ∅ ∨ (SortsFirst name ↔ ∀ u ∈ logs, Earlier m.sTime u))) ∧
    ∀ (cfgValue : Value R) (disk : Finset String) (m : Moment) (n : ℕ) (s : State),
      cfgInt cfgValue "logLimitNum" = .ok (n : ℤ) → (n : ℤ) ≤ intMax → 1 ≤ n →
      (∀ p ∈ found disk, ∃ u, p = curLogPath name u) → init name cfgValue disk m = .ok (true, s) →
        ((∃ f, s.fLog = some f ∧ f.path ∈ s.disk) ↔ Ahead n name (found disk) m.sTime) ∧
        ∀ calls : List Call,
          Always step KeepsOpen s calls ↔ Along step (RotatesAhead n) s calls := by
  constructor
  · rintro s logs m rfl hlogs hdisk
    exact purges_iff hlogs hdisk m
  · intro cfgValue disk m n s hlimit hint hpos hdisk hinit
    obtain ⟨hnamed, hkeeps, hstart⟩ := keepsOpen_init hlimit hint hpos hdisk hinit
    refine ⟨hstart, fun calls => ?_⟩
    refine always_iff_along (I := fun t : State => t.Named ∧ t.maxLogNum.toNat = n) ?_ ?_
      ⟨hnamed, (card_init hlimit hint hinit).1⟩ hkeeps calls
    · rintro s c t o ⟨hnamed, hmax⟩ hkeeps hstep
      exact keepsOpen_step hstep hpos hnamed hmax hkeeps
    · intro s c _ _ hstuck _ _ hopens
      obtain ⟨t, ht⟩ := step_of_opens (s := s) (c := c) fun _ => hopens
      rw [hstuck] at ht
      cases ht

theorem two_files_ahead :
    Purges (fresh 2) {(second 0).sTime} (second 1) ∧
    ∃ s, init "dev" (limited 2) ∅ (second 0) = .ok (true, s) ∧
      (∃ f, s.fLog = some f ∧ f.path ∈ s.disk) ∧
      (∃ t o, run step s twoCalls = some (t, o)) ∧ Always step KeepsOpen s twoCalls := by
  obtain ⟨hlimit, hinit⟩ := init_fresh (n := 2) (by decide) (by decide)
  obtain ⟨hpurges, hruns⟩ := rollback_iff (R := ℚ) "dev"
  have hempty : found ∅ = ∅ := Finset.filter_empty _
  obtain ⟨hstart, hcalls⟩ := hruns (limited 2) ∅ (second 0) 2 _ hlimit (by decide) (by decide)
    (by simp [hempty]) hinit
  refine ⟨?_, _, hinit, hstart.mpr ?_, run_twoCalls _, (hcalls twoCalls).mpr (along_twoCalls ?_ ?_)⟩
  · refine (hpurges (fresh 2) {(second 0).sTime} (second 1) rfl rfl ?_).mpr (.inr ?_)
    · simp [State.OnDisk, fresh]
    · decide +kernel
  · exact .inr (by simp [hempty])
  · intro hfirst _ hrot
    exact absurd hrot hfirst
  · exact fun _ _ _ => .inr (by decide +kernel)

/-- The file of a second that is kept by `dev` while the clock is behind it -/
def laterLog : Finset String := {curLogPath "dev" (second 1).sTime}

theorem later_log_stays :
    (¬ ∀ (s : State) (logs : Finset SysTime) (m : Moment),
      s.minFName = logs.image (curLogPath s.name) → s.OnDisk → Purges s logs m) ∧
    ¬ ∀ (name : String) (cfgValue : Value ℚ) (disk : Finset String) (m : Moment) (n : ℕ)
      (s : State), cfgInt cfgValue "logLimitNum" = .ok (n : ℤ) → (n : ℤ) ≤ intMax → 1 ≤ n →
      (∀ p ∈ found disk, ∃ u, p = curLogPath name u) → init name cfgValue disk m = .ok (true, s) →
        ∃ f, s.fLog = some f ∧ f.path ∈ s.disk := by
  have hfound : found laterLog = laterLog := by decide +kernel
  constructor
  · intro h
    have hkept : ({ fresh 1 with minFName := laterLog, disk := laterLog } : State).OnDisk :=
      Finset.Subset.refl _
    have hpurges := h _ {(second 1).sTime} (second 0) rfl hkept
    revert hpurges
    rw [purges_iff rfl hkept]
    decide +kernel
  · intro h
    obtain ⟨hlimit, hinit⟩ := init_limited (n := 1) (by decide) "dev" laterLog
      (m := second 0) rfl
    have hnames : ∀ p ∈ found laterLog, ∃ u, p = curLogPath "dev" u := by
      intro p hp
      rw [hfound] at hp
      exact ⟨_, Finset.mem_singleton.mp hp⟩
    have hopen := h "dev" (limited 1) laterLog (second 0) 1 _ hlimit (by decide) le_rfl hnames hinit
    rw [(keepsOpen_init hlimit (by decide) le_rfl hnames hinit).2.2, hfound] at hopen
    revert hopen
    unfold Ahead
    decide +kernel

end Runs

end DataEngine.Log
