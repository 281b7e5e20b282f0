import DataEngine.Lib.Effect
import DataEngine.Log.Frames

/-!
The logs of the engine, and which of them a frame is printed to.

A log is attached to the name of its device and to that of the device's channel; of several logs
that are attached to one name the last one counts. A frame that is printed under a name to which
no log is attached is written nowhere. Whoever reads the files of a log finds the frames that have
been printed to it, in order.
-/

namespace DataEngine.Log

open Json Lib.Effect Lib.Machine Lib.Text Lib.Trace

variable {R : Type} [Double R]

/-- `CLog::init` of a log in whatever state it is -/
def Folder.initLog (s : Folder) (name : String) (cfgValue : Value R) (m : Moment) :
    Except Fault (Bool × Folder) := do
  let maxLogNum ← cfgInt cfgValue "logLimitNum"
  let maxLogSize ← cfgInt cfgValue "logLimitSize"
  let t : State := { s.log with
    name := name
    maxLogNum := UInt32.ofInt maxLogNum
    maxLogSize := UInt32.ofInt maxLogSize }
  if t.maxLogNum < 0 ∨ t.maxLogSize < 0 then
    return (false, { s with log := t })
  else
    let (created, u) := Folder.createFile { s with log := t.processLog } m
    if !created then
      return (false, u)
    else
      return (true, { u with log := { u.log.updateLogNum with fLength := 0 } })

/-- `new CLog()`, and what is in the folder it will write to -/
def newLog (files : Finset String × (String → List UInt8)) : Folder :=
  ⟨⟨"", none, 0, 0, 0, ∅, files.1⟩, files.2⟩

/-- A log that has just been constructed is initialised as before. -/
lemma initLog_newLog (files : Finset String × (String → List UInt8)) (name : String)
    (cfgValue : Value R) (m : Moment) :
    (newLog files).initLog name cfgValue m = Folder.init name cfgValue files.1 files.2 m := rfl

/-- The logs by the names of their devices, and the log that is attached to a name. -/
structure LogManager where
  mapLog : String → Option Folder
  mapLogFunc : String → Option String

inductive Ev where
  | attached (name log : String)
  | logged (log : String) (e : Entry) (timeNow : TransIEC104.SysTime)

namespace LogManager

def empty : LogManager := ⟨fun _ => none, fun _ => none⟩

def attachLogFunc (s : LogManager) (name log : String) : LogManager :=
  { s with mapLogFunc := Function.update s.mapLogFunc name (some log) }

/-- `CLogManager::init`. What is in the folders of the logs before is given. -/
def init (files : String → Finset String × (String → List UInt8)) (s : LogManager)
    (name channelName : String) (cfgValue : Value R) (m : Moment) :
    Except Fault (Bool × LogManager × List Ev) := do
  let cfgExtra ← cfgValue.member "extra"
  let bEnableLog ← (← cfgExtra.member "enableLog").asBool
  if !bEnableLog then
    return (true, s, [])
  else
    let (done, log) ← ((s.mapLog name).getD (newLog (files name))).initLog name cfgExtra m
    let t := { s with mapLog := Function.update s.mapLog name (some log) }
    if !done then
      return (false, t, [])
    else
      return (true, (t.attachLogFunc name name).attachLogFunc channelName name,
        [.attached name name, .attached channelName name])

/-- `printBuf`, but for what it prints to the terminal -/
def printBuf (s : LogManager) (e : Entry) (timeNow : TransIEC104.SysTime) (m : Moment) :
    Except Fault (LogManager × List Ev) :=
  match s.mapLogFunc e.name with
  | none => .ok (s, [])
  | some log =>
    match s.mapLog log with
    | none => .ok (s, [])
    | some folder => do
      let folder' ← folder.saveLog (record (e, timeNow)) m
      .ok ({ s with mapLog := Function.update s.mapLog log (some folder') },
        [.logged log e timeNow])

/-- What is called of the logs. -/
inductive Act (R : Type) where
  | init (name channelName : String) (cfgValue : Value R) (m : Moment)
  | print (e : Entry) (timeNow : TransIEC104.SysTime) (m : Moment)

/-- A call that returns -/
def step (files : String → Finset String × (String → List UInt8)) (s : LogManager) :
    Act R → Option (LogManager × List Ev)
  | .init name channelName cfgValue m =>
    ((s.init files name channelName cfgValue m).map Prod.snd).toOption
  | .print e timeNow m => (s.printBuf e timeNow m).toOption

variable {files : String → Finset String × (String → List UInt8)} {s t : LogManager}
  {name log : String} {o p : List Ev}

/-! ### Which log a name has -/

/-- The log that has been attached to the name last -/
def attachedTo (name : String) (evs : List Ev) : Option String :=
  evs.foldl (fun last ev =>
    match ev with
    | .attached a log => if a = name then some log else last
    | .logged .. => last) none

lemma attachedTo_attached (name a log : String) (evs : List Ev) :
    attachedTo name (evs ++ [.attached a log]) =
      if a = name then some log else attachedTo name evs := by
  rw [attachedTo, List.foldl_append]
  rfl

lemma attachedTo_logged (name log : String) (e : Entry) (timeNow : TransIEC104.SysTime)
    (evs : List Ev) : attachedTo name (evs ++ [.logged log e timeNow]) = attachedTo name evs := by
  rw [attachedTo, List.foldl_append]
  rfl

@[simp] lemma attachLogFunc_mapLog (s : LogManager) (name log : String) :
    (s.attachLogFunc name log).mapLog = s.mapLog := rfl

lemma attachLogFunc_apply (s : LogManager) (name log a : String) :
    (s.attachLogFunc name log).mapLogFunc a = if name = a then some log else s.mapLogFunc a := by
  simp only [attachLogFunc, Function.update_apply, eq_comm]

/-- What is attached is told by what has happened, and there is a log for it. -/
structure Attached (s : LogManager) (o : List Ev) : Prop where
  last : ∀ name, s.mapLogFunc name = attachedTo name o
  made : ∀ name log, s.mapLogFunc name = some log → ∃ folder, s.mapLog log = some folder

lemma Attached.attach (h : Attached s o) {folder : Folder} (hlog : s.mapLog log = some folder)
    (name : String) : Attached (s.attachLogFunc name log) (o ++ [.attached name log]) where
  last a := by
    rw [attachedTo_attached, attachLogFunc_apply, h.last a]
  made a l ha := by
    rw [attachLogFunc_apply] at ha
    split_ifs at ha
    · obtain rfl := Option.some.inj ha
      exact ⟨folder, hlog⟩
    · exact h.made a l ha

lemma Attached.update (h : Attached s o) (name : String) (folder : Folder) :
    Attached { s with mapLog := Function.update s.mapLog name (some folder) } o where
  last := h.last
  made a l ha := by
    rcases eq_or_ne l name with rfl | hne
    · exact ⟨folder, Function.update_self _ _ _⟩
    · obtain ⟨folder', hfolder⟩ := h.made a l ha
      exact ⟨folder', (Function.update_of_ne hne _ _).trans hfolder⟩

/-- What a call of `init` that returns has done. -/
lemma init_cases {channelName : String} {cfgValue : Value R} {m : Moment} {b : Bool}
    (h : (s.init files name channelName cfgValue m) = .ok (b, t, o)) :
    (t = s ∧ o = []) ∨ ∃ cfgExtra done folder, cfgValue.member "extra" = .ok cfgExtra ∧
      ((s.mapLog name).getD (newLog (files name))).initLog name cfgExtra m = .ok (done, folder) ∧
      ((done = false ∧ o = [] ∧
          t = { s with mapLog := Function.update s.mapLog name (some folder) }) ∨
        (done = true ∧ o = [.attached name name, .attached channelName name] ∧
          t = ({ s with mapLog := Function.update s.mapLog name (some folder) }.attachLogFunc
            name name).attachLogFunc channelName name)) := by
  unfold init at h
  obtain ⟨cfgExtra, hextra, h⟩ := bind_eq_ok.mp h
  obtain ⟨enable, -, h⟩ := bind_eq_ok.mp h
  obtain ⟨bEnableLog, -, h⟩ := bind_eq_ok.mp h
  cases bEnableLog with
  | false =>
    obtain ⟨-, rfl, rfl⟩ : true = b ∧ s = t ∧ [] = o := by simpa [pure, Except.pure] using h
    exact .inl ⟨rfl, rfl⟩
  | true =>
    simp only [Bool.not_true, if_neg Bool.false_ne_true] at h
    obtain ⟨⟨done, folder⟩, hlog, h⟩ := bind_eq_ok.mp h
    refine .inr ⟨cfgExtra, done, folder, hextra, hlog, ?_⟩
    cases done with
    | false =>
      obtain ⟨-, rfl, rfl⟩ : false = b ∧ _ = t ∧ [] = o := by
        simpa [pure, Except.pure] using h
      exact .inl ⟨rfl, rfl, rfl⟩
    | true =>
      obtain ⟨-, rfl, rfl⟩ : true = b ∧ _ = t ∧ _ = o := by
        simpa [pure, Except.pure] using h
      exact .inr ⟨rfl, rfl, rfl⟩

/-- What a call of `printBuf` that returns has done. -/
lemma printBuf_cases {e : Entry} {timeNow : TransIEC104.SysTime} {m : Moment}
    (h : s.printBuf e timeNow m = .ok (t, o)) :
    (t = s ∧ o = [] ∧ ∀ log, s.mapLogFunc e.name = some log → s.mapLog log = none) ∨
    ∃ log folder folder', s.mapLogFunc e.name = some log ∧ s.mapLog log = some folder ∧
      folder.saveLog (record (e, timeNow)) m = .ok folder' ∧ o = [.logged log e timeNow] ∧
      t = { s with mapLog := Function.update s.mapLog log (some folder') } := by
  unfold printBuf at h
  split at h
  · rename_i hfunc
    obtain ⟨rfl, rfl⟩ : s = t ∧ [] = o := by simpa using h
    exact .inl ⟨rfl, rfl, fun log hlog => by simp [hfunc] at hlog⟩
  · rename_i log hfunc
    split at h
    · rename_i hlog
      obtain ⟨rfl, rfl⟩ : s = t ∧ [] = o := by simpa using h
      refine .inl ⟨rfl, rfl, fun log' hlog' => ?_⟩
      obtain rfl := Option.some.inj (hfunc.symm.trans hlog')
      exact hlog
    · rename_i folder hlog
      obtain ⟨folder', hsave, h⟩ := bind_eq_ok.mp h
      obtain ⟨rfl, rfl⟩ : _ = t ∧ _ = o := by simpa using h
      exact .inr ⟨log, folder, folder', hfunc, hlog, hsave, rfl, rfl⟩

lemma of_step_init {name channelName : String} {cfgValue : Value R} {m : Moment}
    (h : step files s (.init name channelName cfgValue m) = some (t, o)) :
    ∃ b, s.init files name channelName cfgValue m = .ok (b, t, o) := by
  simp only [step] at h
  rcases hinit : s.init files name channelName cfgValue m with e | ⟨b, u⟩
  · rw [hinit] at h
    cases h
  · rw [hinit] at h
    obtain rfl := Option.some.inj h
    exact ⟨b, rfl⟩

lemma of_step_print {e : Entry} {timeNow : TransIEC104.SysTime} {m : Moment}
    (h : step (R := R) files s (.print e timeNow m) = some (t, o)) :
    s.printBuf e timeNow m = .ok (t, o) := by
  simp only [step] at h
  rcases hprint : s.printBuf e timeNow m with e | u
  · rw [hprint] at h
    cases h
  · rw [hprint] at h
    exact congrArg _ (Option.some.inj h)

lemma Attached.step {a : Act R} (h : Attached s o) (hstep : step files s a = some (t, p)) :
    Attached t (o ++ p) := by
  cases a with
  | init name channelName cfgValue m =>
    obtain ⟨b, hinit⟩ := of_step_init hstep
    obtain ⟨rfl, rfl⟩ | ⟨cfgExtra, done, folder, -, -, ⟨-, rfl, rfl⟩ | ⟨-, rfl, rfl⟩⟩ :=
      init_cases hinit
    · rwa [List.append_nil]
    · rw [List.append_nil]
      exact h.update name folder
    · have hself := ((h.update name folder).attach (Function.update_self _ _ _) name).attach
        (Function.update_self _ _ _) channelName
      rwa [List.append_assoc] at hself
  | print e timeNow m =>
    obtain ⟨rfl, rfl, -⟩ | ⟨log, folder, folder', -, -, -, rfl, rfl⟩ :=
      printBuf_cases (of_step_print hstep)
    · rwa [List.append_nil]
    · have hnext := h.update log folder'
      exact ⟨fun name => (hnext.last name).trans (attachedTo_logged _ _ _ _ _).symm, hnext.made⟩

lemma attached_run {acts : List (Act R)} (hrun : run (step files) empty acts = some (s, o)) :
    Attached s o := by
  refine run_inv (I := fun _ s o => Attached s o) ⟨fun _ => rfl, fun _ _ h => by cases h⟩ ?_ hrun
    (along_true _ acts)
  exact fun _ _ _ _ _ _ h _ hstep => h.step hstep

/-- A frame is printed to the log that has been attached last. -/
lemma Attached.print (h : Attached s o) {e : Entry} {timeNow : TransIEC104.SysTime} {m : Moment}
    (hstep : LogManager.step (R := R) files s (.print e timeNow m) = some (t, p)) :
    p = match attachedTo e.name o with
      | none => []
      | some log => [.logged log e timeNow] := by
  rw [← h.last]
  obtain ⟨-, rfl, hnone⟩ | ⟨log, folder, folder', hfunc, -, -, rfl, -⟩ :=
    printBuf_cases (of_step_print hstep)
  · rcases hlog : s.mapLogFunc e.name with _ | log
    · rfl
    · obtain ⟨folder, hfolder⟩ := h.made _ _ hlog
      rw [hnone log hlog] at hfolder
      cases hfolder
  · rw [hfunc]

/-! ### What is in a log -/

/-- What has been printed to the log -/
def loggedTo (log : String) (evs : List Ev) : List (Entry × TransIEC104.SysTime) :=
  evs.filterMap fun ev =>
    match ev with
    | .attached .. => none
    | .logged l e timeNow => if l = log then some (e, timeNow) else none

lemma loggedTo_append (log : String) (evs evs' : List Ev) :
    loggedTo log (evs ++ evs') = loggedTo log evs ++ loggedTo log evs' :=
  List.filterMap_append

/-- The call does not initialise the log of this device. -/
def Act.Spares (log : String) : Act R → Prop
  | .init name .. => name ≠ log
  | .print .. => True

def Act.sTime : Act R → TransIEC104.SysTime
  | .init _ _ _ m => m.sTime
  | .print _ _ m => m.sTime

/-- A log that has not been made stays so. -/
lemma unmade_run {acts : List (Act R)} (hspares : ∀ a ∈ acts, a.Spares log)
    (hrun : run (step files) empty acts = some (s, o)) : s.mapLog log = none := by
  refine run_inv (C := fun _ a => a.Spares log) (I := fun _ s _ => s.mapLog log = none) rfl ?_ hrun
    (along_of_forall (fun a ha _ => hspares a ha) _)
  intro _ t _ a u p hnone ha hstep
  cases a with
  | init name channelName cfgValue m =>
    obtain ⟨b, hinit⟩ := of_step_init hstep
    obtain ⟨rfl, -⟩ | ⟨cfgExtra, done, folder, -, -, ⟨-, -, rfl⟩ | ⟨-, -, rfl⟩⟩ :=
      init_cases hinit
    · exact hnone
    · exact (Function.update_of_ne (Ne.symm ha) _ _).trans hnone
    · exact (Function.update_of_ne (Ne.symm ha) _ _).trans hnone
  | print e timeNow m =>
    obtain ⟨rfl, -, -⟩ | ⟨l, folder, folder', -, hl, -, -, rfl⟩ :=
      printBuf_cases (of_step_print hstep)
    · exact hnone
    · have hne : log ≠ l := by
        rintro rfl
        rw [hnone] at hl
        cases hl
      exact (Function.update_of_ne hne _ _).trans hnone

/-- A call leaves the log alone, or it prints to it. -/
lemma folder_step {a : Act R} {folder : Folder} (hlog : s.mapLog log = some folder)
    (hspares : a.Spares log) (hstep : step files s a = some (t, p)) :
    (t.mapLog log = some folder ∧ loggedTo log p = []) ∨
    ∃ e timeNow m folder', a = .print e timeNow m ∧
      folder.saveLog (record (e, timeNow)) m = .ok folder' ∧ t.mapLog log = some folder' ∧
      loggedTo log p = [(e, timeNow)] := by
  cases a with
  | init name channelName cfgValue m =>
    obtain ⟨b, hinit⟩ := of_step_init hstep
    obtain ⟨rfl, rfl⟩ | ⟨cfgExtra, done, folder', -, -, ⟨-, rfl, rfl⟩ | ⟨-, rfl, rfl⟩⟩ :=
      init_cases hinit
    · exact .inl ⟨hlog, rfl⟩
    · exact .inl ⟨(Function.update_of_ne (Ne.symm hspares) _ _).trans hlog, rfl⟩
    · exact .inl ⟨(Function.update_of_ne (Ne.symm hspares) _ _).trans hlog, rfl⟩
  | print e timeNow m =>
    obtain ⟨rfl, rfl, -⟩ | ⟨l, folder₁, folder₂, -, hl, hsave, rfl, rfl⟩ :=
      printBuf_cases (of_step_print hstep)
    · exact .inl ⟨hlog, rfl⟩
    · rcases eq_or_ne l log with rfl | hne
      · obtain rfl := Option.some.inj (hlog.symm.trans hl)
        refine .inr ⟨e, timeNow, m, folder₂, rfl, hsave, Function.update_self _ _ _, ?_⟩
        simp [loggedTo]
      · refine .inl ⟨(Function.update_of_ne (Ne.symm hne) _ _).trans hlog, ?_⟩
        simp [loggedTo, hne]

/-- What is called of the logs is, for one of them, a run of calls. -/
lemma folder_run {acts : List (Act R)} {folder : Folder} (hlog : s.mapLog log = some folder)
    (hspares : ∀ a ∈ acts, a.Spares log) (hrun : run (step files) s acts = some (t, o)) :
    ∃ folder' calls q, t.mapLog log = some folder' ∧
      run Folder.step folder calls = some (folder', q) ∧
      calls.map Call.buffer = (loggedTo log o).map record ∧
      List.Sublist (calls.map fun c => c.moment.sTime) (acts.map Act.sTime) := by
  induction acts generalizing s folder o with
  | nil =>
    obtain ⟨rfl, rfl⟩ : s = t ∧ [] = o := by simpa using hrun
    exact ⟨folder, [], [], hlog, rfl, rfl, List.Sublist.refl _⟩
  | cons a acts ih =>
    obtain ⟨u, o', p, hstep, hrest, rfl⟩ := run_cons.mp hrun
    have hrest' := fun b hb => hspares b (List.mem_cons_of_mem a hb)
    rw [loggedTo_append, List.map_cons]
    obtain ⟨hu, hnil⟩ | ⟨e, timeNow, m, folder₁, rfl, hsave, hu, hone⟩ :=
      folder_step hlog (hspares a List.mem_cons_self) hstep
    · obtain ⟨folder', calls, q, ht, hcalls, hbuffers, htimes⟩ := ih hu hrest' hrest
      refine ⟨folder', calls, q, ht, hcalls, ?_, htimes.cons _⟩
      rw [hnil, List.nil_append, hbuffers]
    · obtain ⟨folder', calls, q, ht, hcalls, hbuffers, htimes⟩ := ih hu hrest' hrest
      have hmove : Folder.step folder ⟨record (e, timeNow), m⟩ = some (folder₁, []) := by
        rw [Folder.step, hsave]
      refine ⟨folder', ⟨record (e, timeNow), m⟩ :: calls, q, ht,
        run_cons.mpr ⟨folder₁, [], q, hmove, hcalls, rfl⟩, ?_, htimes.cons_cons _⟩
      rw [hone, List.map_cons, hbuffers, List.singleton_append, List.map_cons]

/-- What has been opened and attached has been made anew. -/
lemma opened_of_init {channelName : String} {cfgValue cfgExtra : Value R} {m : Moment}
    (hnone : s.mapLog name = none) (hextra : cfgValue.member "extra" = .ok cfgExtra)
    (hstep : step files s (.init name channelName cfgValue m) = some (t, p)) (hopened : p ≠ []) :
    ∃ folder, t.mapLog name = some folder ∧
      Folder.init name cfgExtra (files name).1 (files name).2 m = .ok (true, folder) := by
  obtain ⟨b, hinit⟩ := of_step_init hstep
  obtain ⟨-, rfl⟩ | ⟨cfgExtra', done, folder, hextra', hlog, ⟨-, rfl, -⟩ | ⟨rfl, -, rfl⟩⟩ :=
    init_cases hinit
  · exact absurd rfl hopened
  · exact absurd rfl hopened
  · obtain rfl := Except.ok.inj (hextra.symm.trans hextra')
    rw [hnone, Option.getD_none, initLog_newLog] at hlog
    exact ⟨folder, Function.update_self _ _ _, hlog⟩

/-- **Reading a log.** A frame is printed to the log that has been attached to its name last. As
long as the clock does not go back, the files of a log that has been opened in an empty folder say
which frames have been printed to it last, from the first one on unless as many files are there as
may be kept. -/
theorem frames_read_back (files : String → Finset String × (String → List UInt8)) :
    (∀ (acts : List (Act R)) s o, run (step files) empty acts = some (s, o) →
      ∀ e timeNow m t p, step (R := R) files s (.print e timeNow m) = some (t, p) →
        p = match attachedTo e.name o with
          | none => []
          | some log => [.logged log e timeNow]) ∧
    ∀ (before after : List (Act R)) (name channelName : String) (cfgValue cfgExtra : Value R)
      (m : Moment) (n : ℕ) s o t p u q,
      run (step files) empty before = some (s, o) →
      step files s (.init name channelName cfgValue m) = some (t, p) → p ≠ [] →
      run (step files) t after = some (u, q) → (∀ a ∈ before ++ after, a.Spares name) →
      cfgValue.member "extra" = .ok cfgExtra → cfgInt cfgExtra "logLimitNum" = .ok (n : ℤ) →
      (n : ℤ) ≤ intMax → 1 ≤ n → ¬ SortsFirst name → found (files name).1 = ∅ →
      Onward (m.sTime :: after.map Act.sTime) → (∀ r ∈ loggedTo name q, r.1.Plain) →
        ∃ folder k, u.mapLog name = some folder ∧
          readFolder folder = ((loggedTo name q).map Prod.fst).drop k ∧
          (k = 0 ∨ n ≤ folder.log.minFName.card) := by
  refine ⟨fun acts s o hrun e timeNow m t p hstep => (attached_run hrun).print hstep, ?_⟩
  intro before after name channelName cfgValue cfgExtra m n s o t p u q hbefore hinit hopened
    hafter hspares hextra hlimit hint hpos hfirst hempty hclock hplain
  have hnone := unmade_run (fun a ha => hspares a (List.mem_append_left _ ha)) hbefore
  obtain ⟨folder, ht, hfolder⟩ := opened_of_init hnone hextra hinit hopened
  obtain ⟨folder', calls, q', hu, hcalls, hbuffers, htimes⟩ :=
    folder_run ht (fun a ha => hspares a (List.mem_append_right _ ha)) hafter
  obtain ⟨hname, hpast, gone, kept, hjournal, hopen⟩ := journal_init hlimit hint hpos hfirst
    (by simp [hempty]) hfolder
  have hclock' : Onward (m.sTime :: calls.map fun c => c.moment.sTime) :=
    ⟨fun t ht => hclock.1 t ((htimes.cons_cons m.sTime).subset ht),
      hclock.2.sublist (htimes.cons_cons m.sTime)⟩
  obtain ⟨gone', files', hlast, -⟩ := hjournal.run hopen (by rwa [hname]) hpast hclock' hcalls
  rw [hempty, inOrder_empty, List.map_nil, List.nil_append, hbuffers] at hlast
  obtain ⟨k, hread, hk⟩ := hlast.readFolder hplain
  exact ⟨folder', k, hu, hread, hk⟩

/-- A frame whose log is there is printed to it if files can be opened. -/
lemma step_print (files : String → Finset String × (String → List UInt8)) {folder : Folder}
    {e : Entry} (timeNow : TransIEC104.SysTime) {m : Moment}
    (hfunc : s.mapLogFunc e.name = some log) (hlog : s.mapLog log = some folder)
    (hopens : m.opens = true) : ∃ folder',
      step (R := R) files s (.print e timeNow m) =
        some ({ s with mapLog := Function.update s.mapLog log (some folder') },
          [.logged log e timeNow]) := by
  obtain ⟨u, hu⟩ := step_of_opens (s := folder.log) (c := ⟨record (e, timeNow), m⟩) fun _ => hopens
  have hsave := Folder.saveLog_log folder (record (e, timeNow)) m
  rw [saveLog_of_step hu] at hsave
  rcases hfolder : folder.saveLog (record (e, timeNow)) m with err | folder'
  · rw [hfolder] at hsave
    cases hsave
  · refine ⟨folder', ?_⟩
    simp only [step, printBuf, hfunc, hlog, hfolder]
    rfl

/-- A log that can be initialised is attached to both names. -/
lemma step_init (channelName : String) {cfgValue cfgExtra enable : Value R} {m : Moment}
    {folder : Folder} (hextra : cfgValue.member "extra" = .ok cfgExtra)
    (henable : cfgExtra.member "enableLog" = .ok enable) (htrue : enable.asBool = .ok true)
    (hlog : ((s.mapLog name).getD (newLog (files name))).initLog name cfgExtra m =
      .ok (true, folder)) :
    step files s (.init name channelName cfgValue m) =
      some (({ s with mapLog := Function.update s.mapLog name (some folder) }.attachLogFunc
        name name).attachLogFunc channelName name,
          [.attached name name, .attached channelName name]) := by
  simp only [step, init, hextra, henable, htrue, hlog, bind, Except.bind, Bool.not_true,
    if_neg Bool.false_ne_true]
  rfl

/-- What the attributes of a device with a log say of it -/
def extra : Value ℚ :=
  .object [("enableLog", .bool true), ("logLimitNum", .int 2), ("logLimitSize", .int 0)]

/-- A request of the device, and what comes of it on its channel -/
def request : Entry := ⟨"dev", .frame, "遥测", .send, [0x01, 0x03]⟩

def reply : Entry := ⟨"tcp", .source, "未知", .recv, [0x01, 0x83]⟩

theorem request_and_reply_read : ∃ t p u q folder k,
    step (R := ℚ) (fun _ => (∅, fun _ => [])) empty
      (.init "dev" "tcp" (.object [("extra", extra)]) (second 0)) = some (t, p) ∧
    run (step (R := ℚ) (fun _ => (∅, fun _ => []))) t
      [.print request (second 1).sTime (second 1), .print reply (second 2).sTime (second 2)] =
        some (u, q) ∧
    u.mapLog "dev" = some folder ∧ readFolder folder = [request, reply].drop k ∧
    (k = 0 ∨ 2 ≤ folder.log.minFName.card) := by
  obtain ⟨folder, hfolder, -⟩ := init_dev
  set files : String → Finset String × (String → List UInt8) := fun _ => (∅, fun _ => [])
  have hmade : ((empty.mapLog "dev").getD (newLog (files "dev"))).initLog "dev" extra (second 0) =
      .ok (true, folder) := hfolder
  have hextra : (Value.object [("extra", extra)]).member "extra" = .ok extra := rfl
  have hinit := step_init "tcp" hextra rfl rfl hmade
  set t := LogManager.attachLogFunc _ "tcp" "dev" with ht
  have hdev : t.mapLogFunc "dev" = some "dev" := rfl
  have htcp : t.mapLogFunc "tcp" = some "dev" := rfl
  have hlog : t.mapLog "dev" = some folder := rfl
  obtain ⟨folder₁, hfirst⟩ := step_print (R := ℚ) files (second 1).sTime (e := request)
    (m := second 1) hdev hlog rfl
  set t₁ : LogManager := { t with mapLog := Function.update t.mapLog "dev" (some folder₁) }
  have hlog₁ : t₁.mapLog "dev" = some folder₁ := rfl
  obtain ⟨folder₂, hsecond⟩ := step_print (R := ℚ) files (second 2).sTime (s := t₁) (e := reply)
    (m := second 2) htcp hlog₁ rfl
  have hrun := run_cons.mpr ⟨_, _, _, hfirst, (run_singleton _ _).trans hsecond, rfl⟩
  have hclock : Onward [(second 0).sTime, (second 1).sTime, (second 2).sTime] :=
    ⟨by simp [dated_second], by decide⟩
  have hplain : request.Plain ∧ reply.Plain := by
    simp [Entry.Plain, request, reply]
  obtain ⟨log, k, hlog, hread, hk⟩ := (frames_read_back files).2 [] [_, _] "dev" "tcp" _ extra
    (second 0) 2 _ _ _ _ _ _ rfl hinit (by simp) hrun (by simp [Act.Spares]) rfl rfl (by decide)
    (by decide) sortsFirst_dev (Finset.filter_empty _) hclock (by simp [loggedTo, hplain])
  exact ⟨t, _, _, _, log, k, hinit, hrun, hlog, hread, hk⟩

end LogManager

end DataEngine.Log
