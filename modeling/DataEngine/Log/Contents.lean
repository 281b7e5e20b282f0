import DataEngine.Log.Rollback

/-!
What the log files hold.

A file is opened for appending: what is in it stays, and one that is not there is created empty.
What is written goes to the end of the open file; to a file that has been removed meanwhile it
goes no more. As long as the clock does not go back, the files that are kept hold all that has
been written last, in order, and none of the records is cut.
-/

namespace DataEngine.Log

open Json Lib.Machine Lib.Trace

variable {R : Type} [Double R]

/-- A log and what the files in its folder hold. -/
structure Folder where
  log : State
  contents : String → List UInt8

namespace Folder

/-- `createFile`, with `fopen` for appending -/
def createFile (s : Folder) (m : Moment) : Bool × Folder :=
  let path := curLogPath s.log.name m.sTime
  let t := s.log.clearLater (curLogName s.log.name m.sTime)
  let (created, log) := s.log.createFile m
  (created, ⟨log, if m.opens ∧ path ∉ t.disk then Function.update s.contents path []
    else s.contents⟩)

/-- `fwrite` and `fflush` -/
def write (s : Folder) (buffer : List UInt8) : Except Fault Folder := do
  let log ← s.log.write buffer
  let append (f : LogFile) : String → List UInt8 :=
    if f.path ∈ s.log.disk then
      Function.update s.contents f.path (s.contents f.path ++ buffer)
    else s.contents
  .ok ⟨log, (s.log.fLog.map append).getD s.contents⟩

def saveLog (s : Folder) (buffer : List UInt8) (m : Moment) : Except Fault Folder :=
  if s.log.fLog = none then .ok s
  else if s.log.Rotates then
    (createFile { s with log := s.log.updateLogNum.closeFile } m).2.write buffer
  else s.write buffer

/-- `init` of a log that has just been constructed, in a folder with these files. -/
def init (name : String) (cfgValue : Value R) (disk : Finset String)
    (contents : String → List UInt8) (m : Moment) : Except Fault (Bool × Folder) := do
  let maxLogNum ← cfgInt cfgValue "logLimitNum"
  let maxLogSize ← cfgInt cfgValue "logLimitSize"
  let s : Folder := ⟨constructed name disk maxLogNum maxLogSize, contents⟩
  if s.log.maxLogNum < 0 ∨ s.log.maxLogSize < 0 then
    return (false, s)
  else
    let (created, t) := createFile { s with log := s.log.processLog } m
    if !created then
      return (false, t)
    else
      return (true, { t with log := { t.log.updateLogNum with fLength := 0 } })

def step (s : Folder) (c : Call) : Option (Folder × List Unit) :=
  match s.saveLog c.buffer c.moment with
  | .ok t => some (t, [])
  | .error _ => none

/-! ### The log of a folder -/

@[simp] lemma createFile_fst (s : Folder) (m : Moment) : (s.createFile m).1 = m.opens :=
  s.log.createFile_fst m

@[simp] lemma createFile_log (s : Folder) (m : Moment) :
    (s.createFile m).2.log = (s.log.createFile m).2 := rfl

lemma write_log (s : Folder) (buffer : List UInt8) :
    log <$> s.write buffer = s.log.write buffer := by
  unfold write
  rcases s.log.write buffer with e | t <;> rfl

/-- What a folder does with its files is what the log does. -/
lemma saveLog_log (s : Folder) (buffer : List UInt8) (m : Moment) :
    log <$> s.saveLog buffer m = s.log.saveLog buffer m := by
  unfold saveLog State.saveLog
  split_ifs
  · rfl
  · exact write_log _ buffer
  · exact write_log s buffer

lemma init_log (name : String) (cfgValue : Value R) (disk : Finset String)
    (contents : String → List UInt8) (m : Moment) :
    Prod.map id log <$> init name cfgValue disk contents m = Log.init name cfgValue disk m := by
  unfold init Log.init
  rcases cfgInt cfgValue "logLimitNum" with e | maxLogNum
  · rfl
  rcases cfgInt cfgValue "logLimitSize" with e | maxLogSize
  · rfl
  simp only [bind, Except.bind]
  by_cases hneg : (constructed name disk maxLogNum maxLogSize).maxLogNum < 0 ∨
      (constructed name disk maxLogNum maxLogSize).maxLogSize < 0
  · simp only [if_pos hneg]
    rfl
  · simp only [if_neg hneg, createFile_fst, State.createFile_fst]
    cases m.opens <;> rfl

end Folder

/-! ### The kept files -/

/-- A file by its path, with the records it holds. -/
abbrev Kept : Type := String × List (List UInt8)

/-- Of the files that have been written, the oldest are gone and the others are those that are
kept. They hold the records one after another, as they have come. -/
structure Journal (n : ℕ) (s : Folder) (gone files : List Kept) (records : List (List UInt8)) :
    Prop where
  records : (gone ++ files).flatMap Prod.snd = records
  sorted : (files.map Prod.fst).Pairwise (· < ·)
  names : (files.map Prod.fst).toFinset = s.log.minFName
  holds : ∀ f ∈ files, s.contents f.1 = f.2.flatten
  least : gone = [] ∨ n ≤ files.length
  disk : found s.log.disk = s.log.minFName
  named : s.log.Named
  limit : s.log.maxLogNum.toNat = n

section Journal

variable {n : ℕ} {s t : Folder} {gone files : List Kept} {records : List (List UInt8)}

lemma Journal.card (h : Journal n s gone files records) :
    s.log.minFName.card = files.length := by
  have hnodup : (files.map Prod.fst).Nodup := h.sorted.imp ne_of_lt
  rw [← h.names, List.toFinset_card_of_nodup hnodup, List.length_map]

lemma Journal.mem (h : Journal n s gone files records) {p : String} :
    p ∈ s.log.minFName ↔ p ∈ files.map Prod.fst := by
  rw [← h.names, List.mem_toFinset]

lemma found_erase (disk : Finset String) (p : String) :
    found (disk.erase p) = (found disk).erase p := Finset.filter_erase _ _ _

/-- The first file is the one that pruning removes first. -/
lemma Journal.min' {f : Kept} (h : Journal n s gone (f :: files) records)
    (hne : s.log.minFName.Nonempty) : s.log.minFName.min' hne = f.1 := by
  have hsorted := List.pairwise_cons.mp h.sorted
  refine le_antisymm (Finset.min'_le _ _ (h.mem.mpr (by simp))) ?_
  refine Finset.le_min' _ hne _ fun p hp => ?_
  rcases List.mem_cons.mp (h.mem.mp hp) with rfl | hp
  · exact le_rfl
  · exact (hsorted.1 p hp).le

lemma Journal.removeFirst {f : Kept} (h : Journal n s gone (f :: files) records)
    (hne : s.log.minFName.Nonempty) (hn : n ≤ files.length) :
    Journal n { s with log := s.log.removeFirst hne } (gone ++ [f]) files records := by
  have hmin := h.min' hne
  have hsorted := List.pairwise_cons.mp h.sorted
  have hout : f.1 ∉ (files.map Prod.fst).toFinset := fun hin =>
    lt_irrefl f.1 (hsorted.1 _ (List.mem_toFinset.mp hin))
  refine ⟨?_, hsorted.2, ?_, fun g hg => h.holds g (List.mem_cons_of_mem _ hg), .inr hn, ?_, ?_,
    h.limit⟩
  · rw [← h.records, List.append_assoc, List.singleton_append]
  · show _ = s.log.minFName.erase _
    rw [hmin, ← h.names, List.map_cons, List.toFinset_cons, Finset.erase_insert hout]
  · show found (s.log.disk.erase _) = s.log.minFName.erase _
    rw [found_erase, h.disk]
  · exact fun p hp => h.named p (Finset.mem_of_mem_erase hp)

/-- Pruning takes files away at the old end, down to the limit. -/
lemma Journal.updateLogNum (h : Journal n s gone files records) :
    ∃ gone' files', Journal n { s with log := s.log.updateLogNum } gone' files' records ∧
      files' <:+ files ∧ files'.length = min files.length n := by
  obtain ⟨log, contents⟩ := s
  induction log using State.updateLogNum.induct generalizing gone files with
  | case1 log hlt ih =>
    have hcard := h.card
    have hlimit := h.limit
    dsimp only at hcard hlimit
    rcases files with _ | ⟨f, files⟩
    · rw [List.length_nil] at hcard
      omega
    · rw [List.length_cons] at hcard
      obtain ⟨gone', files', h', hsuffix, hlength⟩ := ih (h.removeFirst _ (by omega))
      refine ⟨gone', files', ?_, hsuffix.trans (List.suffix_cons f files), ?_⟩
      · rwa [State.updateLogNum, dif_pos hlt]
      · rw [hlength, List.length_cons]
        omega
  | case2 log hle =>
    have hcard := h.card
    have hlimit := h.limit
    dsimp only at hcard hlimit
    refine ⟨gone, files, ?_, List.suffix_refl _, by omega⟩
    rwa [State.updateLogNum, dif_neg hle]

/-- What the journal says does not depend on which file is open. -/
lemma Journal.reopen (h : Journal n s gone files records) (log : State)
    (hname : log.name = s.log.name) (hmin : log.minFName = s.log.minFName)
    (hdisk : log.disk = s.log.disk) (hmax : log.maxLogNum = s.log.maxLogNum) :
    Journal n { s with log := log } gone files records where
  records := h.records
  sorted := h.sorted
  names := h.names.trans hmin.symm
  holds := h.holds
  least := h.least
  disk := (congrArg found hdisk).trans (h.disk.trans hmin.symm)
  named := by
    intro p hp
    rw [hname]
    exact h.named p (hmin ▸ hp)
  limit := (congrArg UInt32.toNat hmax).trans h.limit

lemma Journal.mem_disk (h : Journal n s gone files records) {f : Kept} (hf : f ∈ files) :
    f.1 ∈ s.log.disk := by
  have hmem : f.1 ∈ found s.log.disk := by
    rw [h.disk, h.mem]
    exact List.mem_map_of_mem hf
  exact (Finset.mem_filter.mp hmem).1

/-- The open file is the last one. -/
def Writing (s : Folder) (files : List Kept) : Prop :=
  ∃ f r earlier, s.log.fLog = some f ∧ files = earlier ++ [(f.path, r)]

/-- A record is written to the end of the last file. -/
lemma Journal.write {buffer : List UInt8} (h : Journal n s gone files records)
    (hopen : Writing s files) (hw : s.write buffer = .ok t) :
    ∃ files', Journal n t gone files' (records ++ [buffer]) ∧ Writing t files' := by
  obtain ⟨f, r, earlier, hf, rfl⟩ := hopen
  have hdisk : f.path ∈ s.log.disk := h.mem_disk (f := (f.path, r)) (by simp)
  obtain rfl : (⟨{ s.log with
      fLog := some { f with written := f.written ++ buffer }
      fLength := s.log.fLength + UInt32.ofNat buffer.length },
      Function.update s.contents f.path (s.contents f.path ++ buffer)⟩ : Folder) = t := by
    simpa [Folder.write, State.write, hf, hdisk, bind, Except.bind] using hw
  have hpaths : (earlier ++ [(f.path, r ++ [buffer])]).map Prod.fst =
      (earlier ++ [(f.path, r)]).map Prod.fst := by simp
  refine ⟨earlier ++ [(f.path, r ++ [buffer])], ?_, _, _, _, rfl, rfl⟩
  have hreopen := h.reopen { s.log with
      fLog := some { f with written := f.written ++ buffer }
      fLength := s.log.fLength + UInt32.ofNat buffer.length } rfl rfl rfl rfl
  refine { hreopen with records := ?_, sorted := ?_, names := ?_, holds := ?_, least := ?_ }
  · rw [← h.records]
    simp
  · rw [hpaths]
    exact h.sorted
  · rw [hpaths]
    exact h.names
  · have hsorted := h.sorted
    rw [List.map_append, List.pairwise_append] at hsorted
    intro g hg
    rcases List.mem_append.mp hg with hg | hg
    · have hlt : g.1 < f.path := hsorted.2.2 g.1 (List.mem_map_of_mem hg) f.path (by simp)
      show Function.update _ _ _ g.1 = _
      rw [Function.update_of_ne hlt.ne]
      exact h.holds g (List.mem_append_left _ hg)
    · obtain rfl := List.mem_singleton.mp hg
      have hlast := h.holds (f.path, r) (by simp)
      show Function.update _ _ _ f.path = _
      rw [Function.update_self, hlast, List.flatten_concat]
  · simpa using h.least

lemma logs_curLogPath (name : String) (t : TransIEC104.SysTime) :
    ".log".toList <:+: (curLogPath name t).toList := by
  have hsuffix : ".log".toList <:+ (curLogName name t).toList := by
    rw [curLogName, String.toList_append]
    exact List.suffix_append _ _
  rw [curLogPath, String.toList_append]
  exact (hsuffix.trans (List.suffix_append _ _)).isInfix

lemma mem_found_curLogPath (disk : Finset String) (name : String) (t : TransIEC104.SysTime) :
    curLogPath name t ∈ found disk ↔ curLogPath name t ∈ disk := by
  rw [found, Finset.mem_filter]
  exact and_iff_left (logs_curLogPath name t)

lemma found_insert_curLogPath (disk : Finset String) (name : String) (t : TransIEC104.SysTime) :
    found (insert (curLogPath name t) disk) = insert (curLogPath name t) (found disk) := by
  rw [found, Finset.filter_insert, if_pos (logs_curLogPath name t), found]

/-- The file of a time that is not before the last one is the last one then. What is in it
stays. -/
lemma Journal.createFile {m : Moment} (h : Journal n s gone files records)
    (hfirst : ¬ SortsFirst s.log.name) (hopens : m.opens = true)
    (hforward : ∀ p ∈ s.log.minFName, p ≤ curLogPath s.log.name m.sTime) :
    ∃ files', Journal n (s.createFile m).2 gone files' records ∧
      Writing (s.createFile m).2 files' := by
  set path := curLogPath s.log.name m.sTime with hpath
  have hclear : s.log.clearLater (curLogName s.log.name m.sTime) = s.log := by
    rw [h.named.clearLater, if_neg hfirst]
  have hfound : path ∈ s.log.disk ↔ path ∈ s.log.minFName := by
    rw [← h.disk]
    exact (mem_found_curLogPath _ _ _).symm
  have hlog : (s.createFile m).2.log = { s.log with
      fLog := some ⟨path, []⟩
      minFName := insert path s.log.minFName
      disk := insert path s.log.disk } := by
    rw [Folder.createFile_log, State.createFile, hclear, if_pos hopens]
  have hcontents : (s.createFile m).2.contents =
      if path ∉ s.log.disk then Function.update s.contents path [] else s.contents := by
    simp [Folder.createFile, hclear, hopens, hpath]
  by_cases hmem : path ∈ s.log.minFName
  · -- the file of this second goes on to be written
    have hin : path ∈ s.log.disk := hfound.mpr hmem
    have hsame : (s.createFile m).2 = { s with log := (s.createFile m).2.log } := by
      rw [if_neg (not_not.mpr hin)] at hcontents
      rw [← hcontents]
    refine ⟨files, ?_, ?_⟩
    · rw [hsame]
      refine h.reopen _ ?_ ?_ ?_ ?_ <;> rw [hlog]
      · exact Finset.insert_eq_of_mem hmem
      · exact Finset.insert_eq_of_mem hin
    · obtain ⟨⟨p, r⟩, hf, rfl⟩ := List.mem_map.mp (h.mem.mp hmem)
      obtain ⟨earlier, later, hsplit⟩ := List.append_of_mem hf
      obtain rfl : later = [] := by
        refine List.eq_nil_iff_forall_not_mem.mpr fun g hg => ?_
        have hsorted := h.sorted
        rw [hsplit, List.map_append, List.map_cons, List.pairwise_append] at hsorted
        have hlt := (List.pairwise_cons.mp hsorted.2.1).1 g.1 (List.mem_map_of_mem hg)
        have hgin : g ∈ files := by
          rw [hsplit]
          exact List.mem_append_right _ (List.mem_cons_of_mem _ hg)
        exact (hforward g.1 (h.mem.mpr (List.mem_map_of_mem hgin))).not_gt hlt
      exact ⟨_, r, earlier, by rw [hlog], hsplit⟩
  · have hout : path ∉ s.log.disk := fun hin => hmem (hfound.mp hin)
    rw [if_pos hout] at hcontents
    have hlater : ∀ p ∈ files.map Prod.fst, p < path := fun p hp =>
      (hforward p (h.mem.mpr hp)).lt_of_ne fun heq => hmem (heq ▸ h.mem.mpr hp)
    refine ⟨files ++ [(path, [])], ?_, ⟨_, [], files, by rw [hlog], rfl⟩⟩
    refine ⟨?_, ?_, ?_, ?_, ?_, ?_, ?_, ?_⟩
    · rw [← h.records]
      simp
    · rw [List.map_append, List.pairwise_append]
      refine ⟨h.sorted, List.pairwise_singleton _ _, fun p hp q hq => ?_⟩
      obtain rfl : q = path := by simpa using hq
      exact hlater p hp
    · rw [hlog, List.map_append, List.toFinset_append, h.names]
      ext p
      simp [or_comm]
    · intro f hf
      rw [hcontents]
      rcases List.mem_append.mp hf with hf | hf
      · rw [Function.update_of_ne (hlater f.1 (List.mem_map_of_mem hf)).ne]
        exact h.holds f hf
      · obtain rfl := List.mem_singleton.mp hf
        exact Function.update_self _ _ _
    · rw [List.length_append]
      exact h.least.imp_right fun hle => by omega
    · rw [hlog]
      show found (insert path s.log.disk) = insert path s.log.minFName
      rw [hpath, found_insert_curLogPath, h.disk]
    · rw [Folder.createFile_log]
      exact h.named.createFile m
    · rw [hlog]
      exact h.limit

end Journal

/-! ### Calls -/

namespace State

lemma updateLogNum_subset (s : State) : s.updateLogNum.minFName ⊆ s.minFName := by
  induction s using State.updateLogNum.induct with
  | case1 s hlt ih =>
    rw [State.updateLogNum, dif_pos hlt]
    exact ih.trans (Finset.erase_subset _ _)
  | case2 s hle => rw [State.updateLogNum, dif_neg hle]

lemma clearLater_subset (s : State) (cur : String) :
    (s.clearLater cur).minFName ⊆ s.minFName := by
  unfold State.clearLater
  split_ifs
  · exact Finset.empty_subset _
  · exact Finset.Subset.refl _
  · exact Finset.Subset.refl _

lemma updateLogNum_name (s : State) : s.updateLogNum.name = s.name := by rw [updateLogNum_eq]

lemma createFile_name (s : State) (m : Moment) : (s.createFile m).2.name = s.name := by
  unfold State.createFile State.clearLater
  split_ifs <;> rfl

lemma write_name {s t : State} {buffer : List UInt8} (h : s.write buffer = .ok t) :
    t.name = s.name := by
  unfold State.write at h
  split at h
  · cases h
  · obtain rfl := Except.ok.inj h
    rfl

/-- No file is later than the one that has just been created if none was before. -/
lemma createFile_le {s : State} {m : Moment}
    (h : ∀ p ∈ s.minFName, p ≤ curLogPath s.name m.sTime) :
    ∀ p ∈ (s.createFile m).2.minFName, p ≤ curLogPath s.name m.sTime := by
  intro p hp
  rw [createFile_minFName] at hp
  rcases Finset.mem_insert.mp hp with rfl | hp
  · exact le_rfl
  · exact h p (clearLater_subset _ _ hp)

end State

section Calls

variable {n : ℕ} {s t : Folder} {gone files : List Kept} {records : List (List UInt8)}
  {buffer : List UInt8} {m : Moment}

/-- No file that is kept is later than the clock. -/
def Past (s : Folder) (t : TransIEC104.SysTime) : Prop :=
  ∀ p ∈ s.log.minFName, p ≤ curLogPath s.log.name t

lemma saveLog_of_folder (h : s.saveLog buffer m = .ok t) :
    s.log.saveLog buffer m = .ok t.log := by
  rw [← Folder.saveLog_log, h]
  rfl

/-- A call keeps the name, and adds the file of its time at most. -/
lemma Past.saveLog (h : Past s m.sTime) (hsave : s.saveLog buffer m = .ok t) :
    t.log.name = s.log.name ∧ Past t m.sTime := by
  obtain ⟨-, heq⟩ | ⟨-, -, -, hw⟩ | ⟨-, -, hw⟩ := State.saveLog_cases (saveLog_of_folder hsave)
  · rw [Past, heq]
    exact ⟨rfl, h⟩
  · have hclosed : s.log.updateLogNum.closeFile.name = s.log.name := s.log.updateLogNum_name
    have hname : t.log.name = s.log.name := by
      rw [State.write_name hw, State.createFile_name, hclosed]
    have hbound := State.createFile_le (s := s.log.updateLogNum.closeFile) (m := m) fun p hp => by
      rw [hclosed]
      exact h p (s.log.updateLogNum_subset hp)
    refine ⟨hname, fun p hp => ?_⟩
    rw [(write_eq_ok hw).1] at hp
    rw [hname, ← hclosed]
    exact hbound p hp
  · rw [Past, State.write_name hw, (write_eq_ok hw).1]
    exact ⟨rfl, h⟩

/-- What a call does to the journal. -/
lemma Journal.saveLog (h : Journal n s gone files records) (hopen : Writing s files)
    (hfirst : ¬ SortsFirst s.log.name) (hpast : Past s m.sTime)
    (hsave : s.saveLog buffer m = .ok t) :
    ∃ gone' files', Journal n t gone' files' (records ++ [buffer]) ∧ Writing t files' := by
  have hnone : s.log.fLog ≠ none := by
    obtain ⟨f, r, earlier, hf, rfl⟩ := hopen
    simp [hf]
  have hwrites : ∀ {u : Folder} {kept : List Kept} {gone' : List Kept},
      Journal n u gone' kept records → Writing u kept → u.write buffer = .ok t →
        ∃ gone' files', Journal n t gone' files' (records ++ [buffer]) ∧ Writing t files' := by
    intro u kept gone' hu hlast hw
    obtain ⟨written, hdone, hlast'⟩ := hu.write hlast hw
    exact ⟨gone', written, hdone, hlast'⟩
  obtain ⟨hnone', -⟩ | ⟨-, hrot, hopens, -⟩ | ⟨-, hrot, -⟩ :=
    State.saveLog_cases (saveLog_of_folder hsave)
  · exact absurd hnone' hnone
  · rw [Folder.saveLog, if_neg hnone, if_pos hrot] at hsave
    obtain ⟨gone', kept, hpruned, -, -⟩ := h.updateLogNum
    have hclosed := hpruned.reopen s.log.updateLogNum.closeFile rfl rfl rfl rfl
    have hname : s.log.updateLogNum.closeFile.name = s.log.name := s.log.updateLogNum_name
    obtain ⟨created, hcreated, hlast⟩ := hclosed.createFile (m := m) (by rwa [hname]) hopens
      fun p hp => by
        rw [hname]
        exact hpast p (s.log.updateLogNum_subset hp)
    exact hwrites hcreated hlast hsave
  · rw [Folder.saveLog, if_neg hnone, if_neg hrot] at hsave
    exact hwrites h hopen hsave

/-- The clock does not go back. -/
def Onward (times : List TransIEC104.SysTime) : Prop :=
  (∀ t ∈ times, Dated t) ∧ times.Pairwise fun t u => ¬ Earlier u t

lemma Past.later {t u : TransIEC104.SysTime} (h : Past s t) (ht : Dated t) (hu : Dated u)
    (hle : ¬ Earlier u t) : Past s u := by
  intro p hp
  have hpath : curLogPath s.log.name t ≤ curLogPath s.log.name u :=
    not_lt.mp fun hlt => hle ((hu.curLogPath_lt_iff _ ht).mp hlt)
  exact (h p hp).trans hpath

/-- What a run of calls does to the journal. -/
lemma Journal.run {calls : List Call} {now : TransIEC104.SysTime} {o : List Unit}
    (h : Journal n s gone files records) (hopen : Writing s files)
    (hfirst : ¬ SortsFirst s.log.name) (hpast : Past s now)
    (hclock : Onward (now :: calls.map fun c => c.moment.sTime))
    (hrun : run Folder.step s calls = some (t, o)) :
    ∃ gone' files', Journal n t gone' files' (records ++ calls.map Call.buffer) ∧
      Writing t files' := by
  induction calls generalizing s gone files records now o with
  | nil =>
    obtain ⟨rfl, -⟩ : s = t ∧ _ := by simpa using hrun
    exact ⟨gone, files, by simpa using h, hopen⟩
  | cons c calls ih =>
    obtain ⟨u, o', p, hstep, hrest, rfl⟩ := run_cons.mp hrun
    obtain ⟨hdated, hpair⟩ := hclock
    have hnext : Past s c.moment.sTime :=
      hpast.later (hdated now (by simp)) (hdated _ (by simp))
        ((List.pairwise_cons.mp hpair).1 _ (by simp))
    have hsave : s.saveLog c.buffer c.moment = .ok u := by
      unfold Folder.step at hstep
      split at hstep
      · rename_i v hv
        obtain ⟨rfl, -⟩ : v = u ∧ _ := by simpa using hstep
        exact hv
      · cases hstep
    obtain ⟨gone', kept, hu, hlast⟩ := h.saveLog hopen hfirst hnext hsave
    obtain ⟨hname, hpast'⟩ := hnext.saveLog hsave
    obtain ⟨gone'', kept', ht, hlast'⟩ := ih hu hlast (by rwa [hname]) hpast'
      ⟨fun t ht => hdated t (List.mem_cons_of_mem _ ht), (List.pairwise_cons.mp hpair).2⟩ hrest
    refine ⟨gone'', kept', ?_, hlast'⟩
    simpa using ht

/-! ### From the start -/

/-- The paths in the order of a `std::set` -/
def inOrder (paths : Finset String) : List String := paths.sort

@[simp] lemma inOrder_empty : inOrder ∅ = [] := Finset.sort_empty _

lemma inOrder_eq {paths : Finset String} {files : List String}
    (hsorted : files.Pairwise (· < ·)) (hpaths : files.toFinset = paths) :
    inOrder paths = files := by
  rw [inOrder, ← hpaths]
  exact (List.toFinset_sort _ (hsorted.imp ne_of_lt)).mpr (hsorted.imp le_of_lt)

/-- The files found in the folder, each of them one block. -/
def taken (disk : Finset String) (contents : String → List UInt8) : List Kept :=
  (inOrder (found disk)).map fun p => (p, [contents p])

lemma taken_paths (disk : Finset String) (contents : String → List UInt8) :
    (taken disk contents).map Prod.fst = inOrder (found disk) := by
  rw [taken, List.map_map]
  exact List.map_id _

/-- Before `init` has created its file the journal is what has been found. -/
lemma journal_taken {name : String} {disk : Finset String} {maxLogNum maxLogSize : ℤ}
    (contents : String → List UInt8) (hold : ∀ p ∈ found disk, ∃ u, p = curLogPath name u)
    (hn : (UInt32.ofInt maxLogNum).toNat = n) :
    Journal n ⟨(constructed name disk maxLogNum maxLogSize).processLog, contents⟩ []
      (taken disk contents) ((inOrder (found disk)).map contents) := by
  have hfound : (constructed name disk maxLogNum maxLogSize).processLog.minFName = found disk :=
    Finset.empty_union _
  refine ⟨?_, ?_, ?_, ?_, .inl rfl, hfound.symm, ?_, hn⟩
  · rw [List.nil_append, taken, List.flatMap_map]
    exact List.flatMap_pure_eq_map _ _
  · rw [taken_paths]
    exact (found disk).sortedLT_sort.pairwise
  · rw [taken_paths, inOrder, Finset.sort_toFinset, hfound]
  · intro f hf
    obtain ⟨p, -, rfl⟩ := List.mem_map.mp hf
    exact (List.append_nil _).symm
  · intro p hp
    rw [hfound] at hp
    exact hold p hp

/-- What `init` has done if it says so. -/
lemma Folder.init_eq_true {name : String} {cfgValue : Value R} {disk : Finset String}
    {contents : String → List UInt8} (h : init name cfgValue disk contents m = .ok (true, s)) :
    ∃ maxLogNum maxLogSize, cfgInt cfgValue "logLimitNum" = .ok maxLogNum ∧ m.opens = true ∧ s =
      let t := (createFile
        ⟨(constructed name disk maxLogNum maxLogSize).processLog, contents⟩ m).2
      { t with log := { t.log.updateLogNum with fLength := 0 } } := by
  rcases hnum : cfgInt cfgValue "logLimitNum" with e | maxLogNum
  · simp [init, hnum, bind, Except.bind] at h
  rcases hsize : cfgInt cfgValue "logLimitSize" with e | maxLogSize
  · simp [init, hnum, hsize, bind, Except.bind] at h
  simp only [init, hnum, hsize, bind, Except.bind] at h
  split_ifs at h with hneg hcreated
  · simp [pure, Except.pure] at h
  · simp [pure, Except.pure] at h
  · obtain rfl : _ = s := by simpa [pure, Except.pure] using h
    exact ⟨maxLogNum, maxLogSize, rfl, by simpa using hcreated, rfl⟩

lemma Writing.suffix {kept : List Kept} {log : State} (h : Writing s files)
    (hsuffix : kept <:+ files) (hpos : 0 < kept.length) (hlog : log.fLog = s.log.fLog) :
    Writing { s with log := log } kept := by
  obtain ⟨f, r, earlier, hf, rfl⟩ := h
  obtain ⟨rest, hrest⟩ := hsuffix
  obtain rfl | ⟨front, g, rfl⟩ := List.eq_nil_or_concat kept
  · exact absurd hpos (lt_irrefl 0)
  · rw [List.concat_eq_append] at hpos hrest ⊢
    rw [← List.append_assoc] at hrest
    obtain ⟨-, hlast⟩ := List.append_inj' hrest rfl
    obtain rfl := List.singleton_injective hlast
    exact ⟨f, r, front, hlog.trans hf, rfl⟩

/-- What `init` makes of the files it finds. -/
lemma journal_init {name : String} {cfgValue : Value R} {disk : Finset String}
    {contents : String → List UInt8} (hlimit : cfgInt cfgValue "logLimitNum" = .ok (n : ℤ))
    (hint : (n : ℤ) ≤ intMax) (hpos : 1 ≤ n) (hfirst : ¬ SortsFirst name)
    (hold : ∀ p ∈ found disk, ∃ u, p = curLogPath name u ∧ p ≤ curLogPath name m.sTime)
    (hinit : Folder.init name cfgValue disk contents m = .ok (true, s)) :
    s.log.name = name ∧ Past s m.sTime ∧
      ∃ gone files, Journal n s gone files ((inOrder (found disk)).map contents) ∧
        Writing s files := by
  have hnum : (UInt32.ofInt n).toNat = n := by
    simp only [intMax] at hint
    simp only [UInt32.ofInt, UInt32.toNat_ofNat']
    omega
  obtain ⟨maxLogNum, maxLogSize, hlimit', hopens, rfl⟩ := Folder.init_eq_true hinit
  obtain rfl : (n : ℤ) = maxLogNum := Except.ok.inj (hlimit.symm.trans hlimit')
  have hfound : (constructed name disk n maxLogSize).processLog.minFName = found disk :=
    Finset.empty_union _
  have hpast : ∀ p ∈ (constructed name disk n maxLogSize).processLog.minFName,
      p ≤ curLogPath name m.sTime := by
    intro p hp
    rw [hfound] at hp
    exact (hold p hp).choose_spec.2
  have htaken : Journal n ⟨(constructed name disk n maxLogSize).processLog, contents⟩ []
      (taken disk contents) ((inOrder (found disk)).map contents) :=
    journal_taken contents (fun p hp => (hold p hp).imp fun _ h => h.1) hnum
  obtain ⟨created, hcreated, hlast⟩ := htaken.createFile hfirst hopens hpast
  obtain ⟨gone, kept, hpruned, hsuffix, hlength⟩ := hcreated.updateLogNum
  have hname : (Folder.createFile
      ⟨(constructed name disk n maxLogSize).processLog, contents⟩ m).2.log.updateLogNum.name =
        name := by
    rw [State.updateLogNum_name, Folder.createFile_log, State.createFile_name]
    rfl
  refine ⟨hname, fun p hp => ?_, gone, kept, hpruned.reopen _ rfl rfl rfl rfl, ?_⟩
  · show p ≤ curLogPath _ _
    rw [hname]
    exact State.createFile_le hpast p (State.updateLogNum_subset _ hp)
  · have hcount : 0 < created.length := by
      obtain ⟨f, r, earlier, -, rfl⟩ := hlast
      simp
    refine hlast.suffix hsuffix (by omega) ?_
    rw [State.updateLogNum_eq]

/-- **What the log files hold.** After `init` and any calls, with a clock that does not go back,
the files that are kept hold what has been found and the records that have been written after it,
one after another and none of them cut. What is gone is gone at the old end, and only once there
are as many files as may be kept; the open file is the last one. -/
theorem records_kept {name : String} {cfgValue : Value R} {disk : Finset String}
    {contents : String → List UInt8} {n : ℕ}
    (hlimit : cfgInt cfgValue "logLimitNum" = .ok (n : ℤ)) (hint : (n : ℤ) ≤ intMax) (hpos : 1 ≤ n)
    (hfirst : ¬ SortsFirst name)
    (hold : ∀ p ∈ found disk, ∃ u, p = curLogPath name u ∧ Dated u ∧ ¬ Earlier m.sTime u)
    (hinit : Folder.init name cfgValue disk contents m = .ok (true, s)) {calls : List Call}
    (hclock : Onward (m.sTime :: calls.map fun c => c.moment.sTime)) {o : List Unit}
    (hrun : run Folder.step s calls = some (t, o)) :
    ∃ gone files,
      Journal n t gone files ((inOrder (found disk)).map contents ++ calls.map Call.buffer) ∧
        Writing t files := by
  have hnow : Dated m.sTime := hclock.1 _ (by simp)
  obtain ⟨hname, hpast, gone, files, hstart, hopen⟩ := journal_init hlimit hint hpos hfirst
    (fun p hp => by
      obtain ⟨u, rfl, hu, hle⟩ := hold p hp
      exact ⟨u, rfl, not_lt.mp fun hlt => hle ((hnow.curLogPath_lt_iff name hu).mp hlt)⟩) hinit
  exact hstart.run hopen (by rwa [hname]) hpast hclock hrun

/-- A folder takes the steps of its log. -/
lemma run_of_log {calls : List Call} {u : State} {o : List Unit}
    (hrun : run step s.log calls = some (u, o)) :
    ∃ t o, run Folder.step s calls = some (t, o) := by
  induction calls generalizing s o with
  | nil => exact ⟨s, [], rfl⟩
  | cons c calls ih =>
    obtain ⟨v, o', p, hstep, hrest, rfl⟩ := run_cons.mp hrun
    have hsave := Folder.saveLog_log s c.buffer c.moment
    rw [saveLog_of_step hstep] at hsave
    rcases hfolder : s.saveLog c.buffer c.moment with e | w
    · rw [hfolder] at hsave
      cases hsave
    · rw [hfolder] at hsave
      obtain rfl : w.log = v := Except.ok.inj hsave
      obtain ⟨t, q, ht⟩ := ih hrest
      have hmove : Folder.step s c = some (w, []) := by rw [Folder.step, hfolder]
      exact ⟨t, q, run_cons.mpr ⟨w, [], q, hmove, ht, rfl⟩⟩

/-- The folder of `dev` after `init`, empty before -/
lemma init_dev : ∃ s, Folder.init "dev" (limited 2) ∅ (fun _ => []) (second 0) = .ok (true, s) ∧
    s.log = fresh (UInt32.ofInt 2) := by
  obtain ⟨-, hinit⟩ := init_fresh (n := 2) (by decide) (by decide)
  have hlog := (Folder.init_log "dev" (limited 2) ∅ (fun _ => []) (second 0)).trans hinit
  rcases hfolder : Folder.init "dev" (limited 2) ∅ (fun _ => []) (second 0) with e | ⟨b, s⟩
  · rw [hfolder] at hlog
    cases hlog
  · rw [hfolder] at hlog
    obtain ⟨rfl, h⟩ : b = true ∧ s.log = _ := by simpa using hlog
    exact ⟨s, rfl, h⟩

lemma dated_second {k : ℕ} (hk : k < 60) : Dated (second k).sTime where
  year_ge := by norm_num [second]
  year_lt := by norm_num [second]
  mon := by norm_num [second]
  day := by norm_num [second]
  hour := by norm_num [second]
  min := by norm_num [second]
  sec := by
    show k < 10 ^ 2
    omega

lemma sortsFirst_dev : ¬ SortsFirst "dev" := by decide +kernel

theorem both_records_kept : ∃ s t o gone files,
    Folder.init "dev" (limited 2) ∅ (fun _ => []) (second 0) = .ok (true, s) ∧
    run Folder.step s twoCalls = some (t, o) ∧
      Journal 2 t gone files [megabyte, [0x2a]] ∧ Writing t files := by
  obtain ⟨hlimit, -⟩ := init_fresh (n := 2) (by decide) (by decide)
  obtain ⟨s, hs, hfresh⟩ := init_dev
  obtain ⟨u, o, hrun⟩ := run_twoCalls (UInt32.ofInt 2)
  rw [← hfresh] at hrun
  obtain ⟨t, o', ht⟩ := run_of_log hrun
  have hempty : found ∅ = ∅ := Finset.filter_empty _
  have hclock : Onward ((second 0).sTime :: twoCalls.map fun c => c.moment.sTime) :=
    ⟨by simp [twoCalls, dated_second], by decide⟩
  obtain ⟨gone, files, hjournal, hlast⟩ := records_kept hlimit (by decide) (by decide)
    sortsFirst_dev (by simp [hempty]) hs hclock ht
  rw [hempty, inOrder_empty] at hjournal
  exact ⟨s, t, o', gone, files, hs, ht, hjournal, hlast⟩

end Calls

end DataEngine.Log
