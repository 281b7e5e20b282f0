import DataEngine.Lib.Machine
import DataEngine.Task.StartUp

/-!
Who may transact on a channel at the same time.

The instances of plug-ins registered under one key run in one thread and are given the mutex of
that thread; a transaction holds the mutex of its instance. Remote commands reach an instance
from other threads. The key is made of a task and a plug-in, the channels are made of tasks.
-/

namespace DataEngine.Exclusion

open Json ConfigParse ChannelManager StartUp Lib.Effect Lib.Machine

/-- An instance of a plug-in, by its key and its place among those registered under it. -/
structure Inst where
  key : String
  index : ℕ
  deriving DecidableEq

structure ProtocolInfo where
  pProt : Inst
  vecDevName : List String
  deriving DecidableEq

/-- What is running after start-up. -/
structure System where
  vecProt : List ProtocolInfo
  mapProtocolPtr : Map String Inst
  mapChannel : Map String ℕ

section Start

variable {R : Type} [Double R]

/-- A pass of the inner loop of `CProtocolManager::start`. -/
def infoOf (p : Protocols R) (inst : Inst) : Except Fault ProtocolInfo :=
  match (p.mapValue[inst.key]?.getD [])[inst.index]? with
  | none => .error .undefined
  | some cfgValue => do .ok ⟨inst, ← namesOf cfgValue⟩

/-- The instances that have been registered. -/
def instances (p : Protocols R) : List Inst :=
  p.mapProtocol.toList.flatMap fun iter => (List.range iter.2).map fun i => ⟨iter.1, i⟩

/-- A device is served by the last instance that lists it, as far as commands go. -/
def addPtr (m : Map String Inst) (info : ProtocolInfo) : Map String Inst :=
  info.vecDevName.foldl (fun m devName => m.insert devName info.pProt) m

/-- `CTaskCenter::start` -/
def start (channels : Manager) (protocols : Protocols R) : Except Fault System := do
  let vecProt ← (instances protocols).mapM (infoOf protocols)
  .ok ⟨vecProt, vecProt.foldl addPtr ∅, channels.mapChannel⟩

def startUp (host : Host R) (cfg : Config R) : Except Halt System := do
  let (channels, protocols) ← init host cfg
  raise (start channels protocols)

end Start

/-! ### Transactions -/

/-- Who calls a plug-in: the thread of a key, or a thread that issues commands. -/
inductive Caller where
  | thread (key : String)
  | command (n : ℕ)
  deriving DecidableEq

structure State where
  /-- whether `process` has given an instance its mutex -/
  lockSource : Inst → Bool
  /-- who holds the mutex of the thread of a key -/
  owner : String → Option Caller
  /-- the call of `sendSyncRecv` somebody is in -/
  calling : Caller → Option (Inst × String)

def State.init : State := ⟨fun _ => false, fun _ => none, fun _ => none⟩

inductive Move where
  /-- The thread of an instance gives it its mutex. -/
  | setLockSource (inst : Inst)
  /-- `sendSyncRecv` takes the mutex of the instance. -/
  | lock (caller : Caller) (inst : Inst) (devName : String)
  /-- `sendSyncRecv` returns. -/
  | unlock (caller : Caller)

variable (sys : System)

def Lists (inst : Inst) (devName : String) : Prop :=
  ∃ info ∈ sys.vecProt, info.pProt = inst ∧ devName ∈ info.vecDevName

instance (inst : Inst) (devName : String) : Decidable (Lists sys inst devName) :=
  inferInstanceAs (Decidable (∃ info ∈ sys.vecProt, _ ∧ _))

/-- The calls that can come about: a thread processes its own instances, each with its devices,
and a command goes to the instance that is kept for the device. -/
def Reaches (caller : Caller) (inst : Inst) (devName : String) : Prop :=
  match caller with
  | .thread key => inst.key = key ∧ Lists sys inst devName
  | .command _ => sys.mapProtocolPtr[devName]? = some inst

instance (caller : Caller) (inst : Inst) (devName : String) :
    Decidable (Reaches sys caller inst devName) := by
  cases caller <;> unfold Reaches <;> infer_instance

/-- A thread has given its mutex to all its instances before it processes any of them. -/
def Ready (s : State) (caller : Caller) (inst : Inst) : Prop :=
  match caller with
  | .thread key => ∀ info ∈ sys.vecProt, info.pProt.key = key → s.lockSource info.pProt = true
  | .command _ => s.lockSource inst = true

instance (s : State) (caller : Caller) (inst : Inst) : Decidable (Ready sys s caller inst) := by
  cases caller <;> unfold Ready <;> infer_instance

/-- `process` has given the instance its mutex. -/
def State.give (s : State) (inst : Inst) : State :=
  { s with lockSource := Function.update s.lockSource inst true }

/-- `caller` has taken the mutex of the instance for a transaction with the device. -/
def State.take (s : State) (caller : Caller) (inst : Inst) (devName : String) : State :=
  { s with
    owner := Function.update s.owner inst.key (some caller)
    calling := Function.update s.calling caller (some (inst, devName)) }

def step (s : State) : Move → Option (State × List Unit)
  | .setLockSource inst =>
    if inst ∈ sys.vecProt.map (·.pProt) then some (s.give inst, []) else none
  | .lock caller inst devName =>
    if Reaches sys caller inst devName ∧ Ready sys s caller inst ∧ s.calling caller = none ∧
        s.owner inst.key = none then some (s.take caller inst devName, [])
    else none
  | .unlock caller =>
    match s.calling caller with
    | none => none
    | some (inst, _) =>
      some ({ s with
        owner := Function.update s.owner inst.key none
        calling := Function.update s.calling caller none }, [])

/-- The two devices are served by one channel. -/
def SameChannel (d d' : String) : Prop :=
  ∃ i, sys.mapChannel[d]? = some i ∧ sys.mapChannel[d']? = some i

/-- In no state of a run are two callers in a transaction on one channel, with devices of the
kind `P`. -/
def Exclusive (P : String → Prop) : Prop :=
  ∀ ms s out, run (step sys) State.init ms = some (s, out) → ∀ c c' i i' d d',
    s.calling c = some (i, d) → s.calling c' = some (i', d') → P d → P d' →
      SameChannel sys d d' → c = c'

/-- The instances that serve devices of one channel are given the same mutex. -/
def SameMutex (P : String → Prop) : Prop :=
  ∀ i i' d d', Lists sys i d → Lists sys i' d' → P d → P d' → SameChannel sys d d' →
    i.key = i'.key

variable {sys}

/-- Who is in a transaction holds the mutex of its instance, which lists the device. -/
structure Held (sys : System) (s : State) : Prop where
  owner : ∀ c i d, s.calling c = some (i, d) → s.owner i.key = some c
  lists : ∀ c i d, s.calling c = some (i, d) → Lists sys i d

/-- A command goes to an instance that lists the device. -/
def PtrListed (sys : System) : Prop :=
  ∀ d inst, sys.mapProtocolPtr[d]? = some inst → Lists sys inst d

lemma Reaches.lists (hptr : PtrListed sys) {caller : Caller} {inst : Inst} {d : String}
    (h : Reaches sys caller inst d) : Lists sys inst d := by
  cases caller with
  | thread key => exact h.2
  | command n => exact hptr d inst h

lemma held_init : Held sys State.init :=
  ⟨fun _ _ _ h => by simp [State.init] at h, fun _ _ _ h => by simp [State.init] at h⟩

lemma Held.step (hptr : PtrListed sys) {s t : State} (h : Held sys s) {m : Move} {o : List Unit}
    (hm : step sys s m = some (t, o)) : Held sys t := by
  cases m with
  | setLockSource inst =>
    simp only [Exclusion.step] at hm
    split_ifs at hm
    obtain ⟨rfl, -⟩ := Prod.mk.inj (Option.some.inj hm)
    exact ⟨h.owner, h.lists⟩
  | lock caller inst devName =>
    simp only [Exclusion.step] at hm
    split_ifs at hm with hguard
    obtain ⟨hreach, -, -, hfree⟩ := hguard
    obtain ⟨rfl, -⟩ := Prod.mk.inj (Option.some.inj hm)
    refine ⟨fun c i d hc => ?_, fun c i d hc => ?_⟩
    · by_cases hcc : c = caller
      · subst hcc
        obtain ⟨rfl, -⟩ : inst = i ∧ devName = d := by simpa [State.take] using hc
        exact Function.update_self ..
      · have hown : s.owner i.key = some c := h.owner c i d (by simpa [State.take, hcc] using hc)
        have hkey : i.key ≠ inst.key := by
          intro he
          rw [he, hfree] at hown
          cases hown
        simpa [State.take, hkey] using hown
    · by_cases hcc : c = caller
      · subst hcc
        obtain ⟨rfl, rfl⟩ : inst = i ∧ devName = d := by simpa [State.take] using hc
        exact hreach.lists hptr
      · exact h.lists c i d (by simpa [State.take, hcc] using hc)
  | unlock caller =>
    simp only [Exclusion.step] at hm
    rcases hcall : s.calling caller with _ | ⟨inst, devName⟩ <;> rw [hcall] at hm
    · cases hm
    obtain ⟨rfl, -⟩ := Prod.mk.inj (Option.some.inj hm)
    have hne : ∀ c i d, Function.update s.calling caller none c = some (i, d) →
        c ≠ caller ∧ s.calling c = some (i, d) := by
      intro c i d hc
      by_cases hcc : c = caller
      · simp [hcc] at hc
      · exact ⟨hcc, by simpa [hcc] using hc⟩
    refine ⟨fun c i d hc => ?_, fun c i d hc => h.lists c i d (hne c i d hc).2⟩
    obtain ⟨hcc, hc⟩ := hne c i d hc
    have hown := h.owner c i d hc
    have hkey : i.key ≠ inst.key := by
      intro he
      rw [he, h.owner caller inst devName hcall] at hown
      exact hcc (Option.some.inj hown).symm
    simpa [hkey] using hown

lemma held_run (hptr : PtrListed sys) {ms : List Move} {s : State} {o : List Unit}
    (h : run (step sys) State.init ms = some (s, o)) : Held sys s :=
  run_inv (I := fun _ s _ => Held sys s) held_init (fun _ _ _ _ _ _ hs _ hm => hs.step hptr hm) h
    (along_true _ _)

lemma step_setLockSource {s : State} {inst : Inst} (h : inst ∈ sys.vecProt.map (·.pProt)) :
    step sys s (.setLockSource inst) = some (s.give inst, []) := if_pos h

/-- A thread that is ready can take its mutex whenever that is free. -/
lemma step_lock {s : State} {inst : Inst} {d : String} (h : Lists sys inst d)
    (hcall : s.calling (.thread inst.key) = none) (hfree : s.owner inst.key = none)
    (hlock : ∀ info ∈ sys.vecProt, s.lockSource info.pProt = true) :
    step sys s (.lock (.thread inst.key) inst d) = some (s.take (.thread inst.key) inst d, []) :=
  if_pos ⟨⟨rfl, h⟩, fun info hinfo _ => hlock info hinfo, hcall, hfree⟩

/-- The threads can all be made ready before any of them processes. -/
lemma all_ready (sys : System) : ∃ ms s o, run (step sys) State.init ms = some (s, o) ∧
    (∀ info ∈ sys.vecProt, s.lockSource info.pProt = true) ∧ s.owner = State.init.owner ∧
      s.calling = State.init.calling := by
  suffices h : ∀ infos : List ProtocolInfo, infos ⊆ sys.vecProt →
      ∃ ms s o, run (step sys) State.init ms = some (s, o) ∧
        (∀ info ∈ infos, s.lockSource info.pProt = true) ∧ s.owner = State.init.owner ∧
          s.calling = State.init.calling from h sys.vecProt (List.Subset.refl _)
  intro infos hsub
  induction infos using List.reverseRecOn with
  | nil => exact ⟨[], State.init, [], rfl, by simp, rfl, rfl⟩
  | append_singleton infos info ih =>
    obtain ⟨hinfos, hinfo⟩ := List.append_subset.mp hsub
    obtain ⟨ms, s, o, hrun, hlock, howner, hcalling⟩ := ih hinfos
    have hmem : info.pProt ∈ sys.vecProt.map (·.pProt) :=
      List.mem_map_of_mem (hinfo (List.mem_singleton_self info))
    refine ⟨ms ++ [.setLockSource info.pProt], s.give info.pProt, _,
      run_snoc.mpr ⟨s, o, [], hrun, step_setLockSource hmem, rfl⟩, fun x hx => ?_, howner,
      hcalling⟩
    by_cases he : x.pProt = info.pProt
    · rw [he]
      exact Function.update_self ..
    · have hx : x ∈ infos := by
        rcases List.mem_append.mp hx with hx | hx
        · exact hx
        · exact absurd (congrArg _ (List.mem_singleton.mp hx)) he
      simpa [State.give, he] using hlock x hx

/-- Two instances with different mutexes can be in a transaction at once. -/
lemma both_calling {i i' : Inst} {d d' : String} (h : Lists sys i d) (h' : Lists sys i' d')
    (hkey : i.key ≠ i'.key) : ∃ ms s o, run (step sys) State.init ms = some (s, o) ∧
      s.calling (.thread i.key) = some (i, d) ∧ s.calling (.thread i'.key) = some (i', d') := by
  obtain ⟨ms, s, o, hrun, hlock, howner, hcalling⟩ := all_ready sys
  have hfirst := step_lock h (by rw [hcalling]; rfl) (by rw [howner]; rfl) hlock
  have hcall : (s.take (.thread i.key) i d).calling (.thread i'.key) = none := by
    simp [State.take, Ne.symm hkey, hcalling, State.init]
  have hfree : (s.take (.thread i.key) i d).owner i'.key = none := by
    simp [State.take, Ne.symm hkey, howner, State.init]
  have hsecond := step_lock h' hcall hfree hlock
  refine ⟨(ms ++ [_]) ++ [_], _, _, run_snoc.mpr ⟨_, _, [],
    run_snoc.mpr ⟨s, o, [], hrun, hfirst, rfl⟩, hsecond, rfl⟩, ?_, ?_⟩
  · simp [State.take, hkey]
  · simp [State.take]

/-- **One mutex a channel**: transactions on a channel exclude each other in every run exactly
if the instances that serve its devices are given the same mutex. -/
lemma exclusive_iff_sameMutex (hptr : PtrListed sys) {P : String → Prop} :
    Exclusive sys P ↔ SameMutex sys P := by
  constructor
  · intro h i i' d d' hi hi' hd hd' hsame
    by_contra hkey
    obtain ⟨ms, s, o, hrun, hc, hc'⟩ := both_calling hi hi' hkey
    exact hkey (Caller.thread.inj (h ms s o hrun _ _ i i' d d' hc hc' hd hd' hsame))
  · intro h ms s o hrun c c' i i' d d' hc hc' hd hd' hsame
    have hheld := held_run hptr hrun
    have hkey := h i i' d d' (hheld.lists c i d hc) (hheld.lists c' i' d' hc') hd hd' hsame
    have hown := hheld.owner c i d hc
    rw [hkey, hheld.owner c' i' d' hc'] at hown
    exact (Option.some.inj hown).symm

/-! ### What start-up leaves -/

section Entries

variable {R : Type} [Double R] (host : Host R)

/-- How many of the entries under a key have had their plug-in loaded. -/
def loaded (entries : List (Entry R)) (key : String) : ℕ :=
  entries.zipIdx.countP fun e =>
    decide (e.1.key = key) && host.loadProtocolLib e.2 e.1.plugName e.1.taskName

/-- The configurations under a key. -/
def kept (entries : List (Entry R)) (key : String) : List (Value R) :=
  (entries.filter fun e => e.key = key).map (·.cfgValue)

/-- Under each key there are as many instances as times a plug-in has been loaded; they are
given the configurations from the first one on. -/
def Serves (entries : List (Entry R)) (inst : Inst) (devName : String) : Prop :=
  inst.index < loaded host entries inst.key ∧ ∃ cfgValue,
    (kept entries inst.key)[inst.index]? = some cfgValue ∧
      ∃ names, namesOf cfgValue = .ok names ∧ devName ∈ names

/-- Any two entries that are served and list devices of one channel have the same key. -/
def OneKey (cfg : Config R) (P : String → Prop) : Prop :=
  ∀ cs ps entries, arrangeCfg cfg = .ok (cs, ps) → entriesOf ps = .ok entries →
    ∀ i i' d d', Serves host entries i d → Serves host entries i' d' → P d → P d' →
      Shares cs d d' → i.key = i'.key

variable {host}

omit [Double R] in
lemma createEntry_loaded (es : List (Entry R × ℕ)) (key : String) :
    (es.foldl (createEntry host) ⟨∅, ∅⟩).mapProtocol[key]?.getD 0 = es.countP fun e =>
      decide (e.1.key = key) && host.loadProtocolLib e.2 e.1.plugName e.1.taskName := by
  induction es using List.reverseRecOn with
  | nil => simp
  | append_singleton es e ih =>
    rw [List.foldl_append, List.foldl_cons, List.foldl_nil, List.countP_append, ← ih,
      List.countP_singleton]
    unfold createEntry
    by_cases hload : host.loadProtocolLib e.2 e.1.plugName e.1.taskName
    · rw [if_pos hload, Map.getElem?_insert]
      by_cases hkey : e.1.key = key
      · simp [hkey, hload]
      · simp [hkey, Ne.symm hkey]
    · simp [hload]

omit [Double R] in
lemma createEntry_kept (es : List (Entry R × ℕ)) (key : String) :
    (es.foldl (createEntry host) ⟨∅, ∅⟩).mapValue[key]?.getD [] =
      kept (es.map (·.1)) key := by
  induction es using List.reverseRecOn with
  | nil => rfl
  | append_singleton es e ih =>
    rw [List.foldl_append, List.foldl_cons, List.foldl_nil]
    simp only [createEntry, Map.getElem?_insert]
    by_cases hkey : e.1.key = key
    · subst hkey
      simp [kept, ih]
    · simp [kept, hkey, Ne.symm hkey, ih]

omit [Double R] in
lemma mem_instances {p : Protocols R} {inst : Inst} :
    inst ∈ instances p ↔ inst.index < p.mapProtocol[inst.key]?.getD 0 := by
  obtain ⟨key, index⟩ := inst
  unfold instances
  simp only [List.mem_flatMap, List.mem_map, List.mem_range, Prod.exists,
    Std.ExtTreeMap.mem_toList_iff_getElem?_eq_some, Inst.mk.injEq]
  constructor
  · rintro ⟨_, n, hn, _, hlt, rfl, rfl⟩
    simpa [hn] using hlt
  · intro h
    rcases hn : p.mapProtocol[key]? with _ | n
    · simp [hn] at h
    · exact ⟨key, n, hn, index, by simpa [hn] using h, rfl, rfl⟩

lemma infoOf_ok {p : Protocols R} {inst : Inst} {info : ProtocolInfo} :
    infoOf p inst = .ok info ↔ info.pProt = inst ∧ ∃ cfgValue,
      (p.mapValue[inst.key]?.getD [])[inst.index]? = some cfgValue ∧
        namesOf cfgValue = .ok info.vecDevName := by
  unfold infoOf
  rcases (p.mapValue[inst.key]?.getD [])[inst.index]? with _ | cfgValue
  · simp
  · simp only [bind_eq_ok, Except.ok.injEq, Option.some.injEq, exists_eq_left']
    constructor
    · rintro ⟨names, hnames, rfl⟩
      exact ⟨rfl, hnames⟩
    · rintro ⟨rfl, hnames⟩
      exact ⟨_, hnames, rfl⟩

/-- What an instance lists is what its entry names. -/
lemma start_lists {channels : Manager} {entries : List (Entry R)} {sys : System}
    (h : start channels (entries.zipIdx.foldl (createEntry host) ⟨∅, ∅⟩) = .ok sys)
    {inst : Inst} {d : String} : Lists sys inst d ↔ Serves host entries inst d := by
  obtain ⟨vecProt, hvec, h⟩ := bind_eq_ok.mp h
  obtain rfl := Except.ok.inj h
  simp only [Lists, Serves, mem_of_mapM hvec, mem_instances, createEntry_loaded, infoOf_ok,
    createEntry_kept, List.zipIdx_map_fst, loaded]
  constructor
  · rintro ⟨info, ⟨i, hlt, rfl, cfgValue, hcfg, hnames⟩, rfl, hd⟩
    exact ⟨hlt, cfgValue, hcfg, _, hnames, hd⟩
  · rintro ⟨hlt, cfgValue, hcfg, names, hnames, hd⟩
    exact ⟨⟨inst, names⟩, ⟨inst, hlt, rfl, cfgValue, hcfg, hnames⟩, rfl, hd⟩

lemma foldl_addPtr {infos : List ProtocolInfo} {d : String} {inst : Inst}
    (h : (infos.foldl addPtr ∅)[d]? = some inst) :
    ∃ info ∈ infos, info.pProt = inst ∧ d ∈ info.vecDevName := by
  induction infos using List.reverseRecOn with
  | nil => simp at h
  | append_singleton infos info ih =>
    rw [List.foldl_append, List.foldl_cons, List.foldl_nil, addPtr, Map.getElem?_foldl_insert] at h
    split_ifs at h with hd
    · exact ⟨info, by simp, Option.some.inj h, hd⟩
    · obtain ⟨x, hx, hprot, hname⟩ := ih h
      exact ⟨x, by simp [hx], hprot, hname⟩

lemma start_ptrListed {channels : Manager} {p : Protocols R} {sys : System}
    (h : start channels p = .ok sys) : PtrListed sys := by
  obtain ⟨vecProt, -, h⟩ := bind_eq_ok.mp h
  obtain rfl := Except.ok.inj h
  intro d inst hd
  exact foldl_addPtr hd

lemma start_mapChannel {channels : Manager} {p : Protocols R} {sys : System}
    (h : start channels p = .ok sys) : sys.mapChannel = channels.mapChannel := by
  obtain ⟨vecProt, -, h⟩ := bind_eq_ok.mp h
  obtain rfl := Except.ok.inj h
  rfl

/-- The instances of one channel are given one mutex exactly if their entries have one key. -/
lemma sameMutex_iff_oneKey {cfg : Config R} {sys : System} (h : startUp host cfg = .ok sys)
    {P : String → Prop} : SameMutex sys P ↔ OneKey host cfg P := by
  obtain ⟨⟨channels, protocols⟩, hinit, h⟩ := bind_eq_ok.mp h
  rw [raise_eq_ok] at h
  obtain ⟨store, -, hinit⟩ := bind_eq_ok.mp hinit
  obtain ⟨⟨cs, ps⟩, harrange, hinit⟩ := bind_eq_ok.mp hinit
  obtain ⟨m, hm, hinit⟩ := bind_eq_ok.mp hinit
  obtain ⟨p, hp, hinit⟩ := bind_eq_ok.mp hinit
  obtain ⟨_, -, hinit⟩ := bind_eq_ok.mp hinit
  obtain ⟨_, -, hinit⟩ := bind_eq_ok.mp hinit
  obtain ⟨rfl, rfl⟩ := Prod.mk.inj (Except.ok.inj hinit)
  rw [raise_eq_ok] at harrange hp
  obtain ⟨entries, hentries, hp⟩ := bind_eq_ok.mp hp
  obtain rfl := Except.ok.inj hp
  have hshares : ∀ d d', SameChannel sys d d' ↔ Shares cs d d' := by
    intro d d'
    rw [SameChannel, start_mapChannel h, same_channel_iff hm]
  simp only [SameMutex, start_lists h, hshares]
  constructor
  · intro hsame cs' ps' entries' harrange' hentries'
    obtain ⟨rfl, rfl⟩ := Prod.mk.inj (Except.ok.inj (harrange.symm.trans harrange'))
    obtain rfl := Except.ok.inj (hentries.symm.trans hentries')
    exact hsame
  · intro hkey
    exact hkey cs ps entries harrange hentries

lemma startUp_ptrListed {cfg : Config R} {sys : System} (h : startUp host cfg = .ok sys) :
    PtrListed sys := by
  obtain ⟨_, -, h⟩ := bind_eq_ok.mp h
  exact start_ptrListed (raise_eq_ok.mp h)

/-- **Who may share a channel**: the devices that are collected over one channel are served
under one mutex, and never transact at once, exactly if the entries that list them have one
key. -/
theorem exclusive_iff_oneKey (cfg : Config R) (sys : System) (h : startUp host cfg = .ok sys) :
    SameMutex sys (· ∈ getDeviceName cfg) ∧ Exclusive sys (· ∈ getDeviceName cfg) ↔
      OneKey host cfg (· ∈ getDeviceName cfg) := by
  rw [exclusive_iff_sameMutex (startUp_ptrListed h), and_self, sameMutex_iff_oneKey h]

end Entries

/-! ### A task with two plug-ins -/

/-- A device type of which there is nothing but a protocol. -/
def deviceType (name template : String) : StoreDir ℚ :=
  ⟨name, .dir, some [⟨"Protocol.json", .reg, some (.object [("template", .string template)])⟩]⟩

def protocolTemplate (name plugName : String) : File ℚ :=
  ⟨name, .reg, some (.object [("name", .string name), ("plugName", .string plugName)])⟩

def device (name type : String) : Value ℚ :=
  .object [("name", .string name), ("devTypeName", .string type)]

/-- A task with devices of two types, whose plug-ins differ, on one link. -/
def twoTypes : Root ℚ where
  taskCfg := [⟨"T.json", .reg, some (.object [("enable", .bool true), ("name", .string "T"),
    ("param", .object [
      ("attribute", .object [("bTrans", .bool false),
        ("content", .array [device "A" "V", device "B" "W"])]),
      ("channel", .object [("template", .string "TCPClient"), ("content", .object [])])])])⟩]
  devStore := [deviceType "V" "P", deviceType "W" "Q"]
  transStore := []
  composite := none
  template
    | .protocol => [protocolTemplate "P" "M", protocolTemplate "Q" "N"]
    | _ => []

def allLoad : Host ℚ := ⟨.null, fun _ _ _ => true⟩

lemma twoTypes_started : ∃ cfg sys, parse twoTypes = .ok cfg ∧ startUp allLoad cfg = .ok sys ∧
    ¬ SameMutex sys (· ∈ getDeviceName cfg) := by
  have hrun : ((parse twoTypes).toOption.bind fun cfg => (startUp allLoad cfg).toOption.map
      fun sys => (sys.vecProt, sys.mapChannel.toList, getDeviceName cfg)) =
        some ([⟨⟨"TM", 0⟩, ["A"]⟩, ⟨⟨"TN", 0⟩, ["B"]⟩], [("A", 0), ("B", 0)], ["A", "B"]) := by
    decide +kernel
  rcases hparse : parse twoTypes with f | cfg
  · simp [hparse, Except.toOption] at hrun
  rcases hstart : startUp allLoad cfg with f | sys
  · simp [hparse, hstart, Except.toOption] at hrun
  obtain ⟨hvec, hmap, hdev⟩ : sys.vecProt = [⟨⟨"TM", 0⟩, ["A"]⟩, ⟨⟨"TN", 0⟩, ["B"]⟩] ∧
      sys.mapChannel.toList = [("A", 0), ("B", 0)] ∧ getDeviceName cfg = ["A", "B"] := by
    simpa [hparse, hstart, Except.toOption] using hrun
  refine ⟨cfg, sys, rfl, hstart, fun hsame => ?_⟩
  have hchannel : ∀ d ∈ ["A", "B"], sys.mapChannel[d]? = some 0 := by
    intro d hd
    rw [← Std.ExtTreeMap.mem_toList_iff_getElem?_eq_some, hmap]
    simpa using hd
  have hA : Lists sys ⟨"TM", 0⟩ "A" := by simp [Lists, hvec]
  have hB : Lists sys ⟨"TN", 0⟩ "B" := by simp [Lists, hvec]
  have hkey := hsame ⟨"TM", 0⟩ ⟨"TN", 0⟩ "A" "B" hA hB (by simp [hdev]) (by simp [hdev])
    ⟨0, hchannel "A" (by simp), hchannel "B" (by simp)⟩
  simp at hkey

theorem plugs_overlap : ∃ cfg sys, parse twoTypes = .ok cfg ∧ startUp allLoad cfg = .ok sys ∧
    ¬ SameMutex sys (· ∈ getDeviceName cfg) ∧ ¬ Exclusive sys (· ∈ getDeviceName cfg) := by
  obtain ⟨cfg, sys, hparse, hstart, hsame⟩ := twoTypes_started
  refine ⟨cfg, sys, hparse, hstart, hsame, fun hexcl => hsame ?_⟩
  exact (exclusive_iff_sameMutex (startUp_ptrListed hstart)).mp hexcl

/-- The theorem at the task with two plug-ins: the entries of its devices differ in their keys. -/
theorem exclusive_iff_oneKey_twoTypes : ∃ cfg, parse twoTypes = .ok cfg ∧
    ¬ OneKey allLoad cfg (· ∈ getDeviceName cfg) := by
  obtain ⟨cfg, sys, hparse, hstart, hsame⟩ := twoTypes_started
  refine ⟨cfg, hparse, fun hkey => hsame ?_⟩
  exact ((exclusive_iff_oneKey cfg sys hstart).mpr hkey).1

end DataEngine.Exclusion
