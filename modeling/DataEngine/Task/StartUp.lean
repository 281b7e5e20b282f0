import DataEngine.Channel.ChannelManager
import DataEngine.Config.Parse
import DataEngine.Data.DataStorage
import DataEngine.Lib.Trace
import DataEngine.Rational

/-!
Start-up: what the task centre makes of the configuration before anything runs.

Each enabled task asks for a channel and for protocols. The channels are opened, the protocols
are loaded, and then every device and every transmit is given a log, which takes the name of its
channel.
-/

namespace DataEngine.StartUp

open Json ConfigParse ChannelManager Lib.Effect Lib.Trace

variable {R : Type} [Double R]

/-! ### The arrangement of the configuration -/

def contentOf (cfgAttr : Value R) : Except Fault (List (Value R)) := do
  indexed (← cfgAttr.member "content")

/-- `cfgProtocol[key].append(name)` -/
def appendTo (cfgProtocol : Value R) (key name : String) : Except Fault (Value R) := do
  cfgProtocol.set key (← (← cfgProtocol.member key).append (.string name))

/-- The plug-in of a protocol configuration, by its template. -/
def plugNameOf (cfg : Config R) (cfgProtocol : Value R) : Except Fault (Value R) := do
  let proTempName ← (← cfgProtocol.member "template").asString
  ((getTemplateCfg cfg proTempName .protocol).getD .null).member "plugName"

/-- A device of a task: devices of one type share an entry, which keeps the plug-in of the last
of them. -/
def arrangeDevice (cfg : Config R) (mapProtocol : Map String (Value R)) (iter : Value R) :
    Except Fault (Map String (Value R)) := do
  let deviceName ← (← iter.member "name").asString
  let deviceTypeName ← (← iter.member "devTypeName").asString
  let cfgProtocol := (getDeviceCfg cfg deviceName .protocol).getD .null
  if cfgProtocol.empty then .ok mapProtocol
  else
    let entry ← appendTo (mapProtocol[deviceTypeName]?.getD cfgProtocol) "names" deviceName
    let entry ← entry.set "plugName" (← plugNameOf cfg cfgProtocol)
    .ok (mapProtocol.insert deviceTypeName entry)

def arrangeCollCfg (cfg : Config R) (cfgAttr : Value R) : Except Fault (Map String (Value R)) := do
  (← contentOf cfgAttr).foldlM (arrangeDevice cfg) ∅

def arrangeTrans (cfg : Config R) (mapProtocol : Map String (Value R)) (iter : Value R) :
    Except Fault (Map String (Value R)) := do
  let transName ← (← iter.member "name").asString
  let cfgProtocol := (getTransCfg cfg transName .protocol).getD .null
  if cfgProtocol.empty then .ok mapProtocol
  else
    let entry ← appendTo cfgProtocol "names" transName
    let entry ← entry.set "plugName" (← plugNameOf cfg cfgProtocol)
    .ok (mapProtocol.insert transName entry)

def arrangeTransCfg (cfg : Config R) (cfgAttr : Value R) : Except Fault (Map String (Value R)) := do
  (← contentOf cfgAttr).foldlM (arrangeTrans cfg) ∅

/-- The channel configuration of a task. -/
def channelCfgOf (name : String) (cfgAttr cfgChannel : Value R) : Except Fault (Value R) := do
  let content ← cfgChannel.member "content"
  let template ← cfgChannel.member "template"
  let names ← (← contentOf cfgAttr).mapM (·.member "name")
  let content ← content.set "taskName" (.string name)
  .ok (.object ([("content", content), ("template", template)] ++
    if names.isEmpty then [] else [("names", .array names)]))

/-- What a task asks for: its channel, and its protocols in the order of their keys. -/
def arrangeTask (cfg : Config R) (name : String) :
    Except Fault (Value R × String × List (Value R)) := do
  let cfgAttr := (getTaskCfg cfg name .attribute).getD .null
  let cfgChannel := (getTaskCfg cfg name .channel).getD .null
  let channel ← channelCfgOf name cfgAttr cfgChannel
  let mapProtocol ←
    if ← (← cfgAttr.member "bTrans").asBool then arrangeTransCfg cfg cfgAttr
    else arrangeCollCfg cfg cfgAttr
  .ok (channel, name, mapProtocol.values)

/-- `m_vecChannelCfg` and `m_mapProtocolCfg`, whose entries stand in the order of the tasks -/
def arrangeCfg (cfg : Config R) :
    Except Fault (List (Value R) × List (String × List (Value R))) := do
  .ok (← (getTaskName cfg).mapM (arrangeTask cfg)).unzip

/-! ### The protocols -/

/-- A protocol configuration of a task with the name of its plug-in. -/
structure Entry (R : Type) where
  taskName : String
  plugName : String
  cfgValue : Value R

/-- The key under which the protocol manager keeps an entry. -/
def Entry.key (e : Entry R) : String := e.taskName ++ e.plugName

def readEntry (taskName : String) (cfgValue : Value R) : Except Fault (Entry R) := do
  .ok ⟨taskName, ← (← cfgValue.member "plugName").asString, cfgValue⟩

/-- The entries of `createProtocol`, one after the other. -/
def entriesOf (mapProtocolCfg : List (String × List (Value R))) : Except Fault (List (Entry R)) :=
  (mapProtocolCfg.flatMap fun task => task.2.map (task.1, ·)).mapM fun e => readEntry e.1 e.2

/-- What `createProtocol` leaves: how many instances have been registered under a key, and the
configurations kept under it. -/
structure Protocols (R : Type) where
  mapProtocol : Map String ℕ
  mapValue : Map String (List (Value R))

/-- What start-up finds around it: the configuration `serialType`, and whether the library of a
plug-in can be loaded, which then registers one instance. It may be asked more than once. -/
structure Host (R : Type) where
  serialType : Value R
  loadProtocolLib : ℕ → String → String → Bool

/-- One pass of the loop of `createProtocol`, the `n`-th. -/
def createEntry (host : Host R) (p : Protocols R) (e : Entry R × ℕ) : Protocols R where
  mapProtocol :=
    if host.loadProtocolLib e.2 e.1.plugName e.1.taskName then
      p.mapProtocol.insert e.1.key (p.mapProtocol[e.1.key]?.getD 0 + 1)
    else p.mapProtocol
  mapValue := p.mapValue.insert e.1.key (p.mapValue[e.1.key]?.getD [] ++ [e.1.cfgValue])

def createProtocol (host : Host R) (mapProtocolCfg : List (String × List (Value R))) :
    Except Fault (Protocols R) := do
  .ok ((← entriesOf mapProtocolCfg).zipIdx.foldl (createEntry host) ⟨∅, ∅⟩)

/-! ### The logs -/

/-- What `CLogManager::init` and `CLog::init` read of the attributes; a limit may be negative. -/
def readLogCfg (cfgAttr : Value R) : Except Fault (Option (ℤ × ℤ)) := do
  let cfgExtra ← cfgAttr.member "extra"
  if !(← (← cfgExtra.member "enableLog").asBool) then .ok none
  else
    let maxLogNum ← (← cfgExtra.member "logLimitNum").asInt
    let maxLogSize ← (← cfgExtra.member "logLimitSize").asInt
    .ok (some (maxLogNum, maxLogSize))

/-- A pass of the loops over the devices and the transmits. -/
def initLog (m : Manager) (name : String) (cfgAttr : Value R) : Except Halt Unit := do
  let _ ← getChannelName m name
  let _ ← raise (readLogCfg cfgAttr)
  return ()

/-- `CTaskCenter::init` -/
def init (host : Host R) (cfg : Config R) : Except Halt (Manager × Protocols R) := do
  let _ ← raise (DataStorage.init cfg)
  let (vecChannelCfg, mapProtocolCfg) ← raise (arrangeCfg cfg)
  let channels ← createChannel cfg host.serialType vecChannelCfg
  let protocols ← raise (createProtocol host mapProtocolCfg)
  let _ ← (getDeviceName cfg).mapM fun devName =>
    initLog channels devName ((getDeviceCfg cfg devName .attribute).getD .null)
  let _ ← (getTransName cfg).mapM fun transName =>
    initLog channels transName ((getTransCfg cfg transName .attribute).getD .null)
  return (channels, protocols)

/-- `CDataEngine::init` -/
def initEngine (host : Host R) (root : Root R) : Except Halt (Manager × Protocols R) := do
  init host (← raise (parse root))

/-! ### Null pointers -/

variable (cfg : Config R)

/-- The attributes of the name can be read for its log. -/
def Logs (name : String) : Prop := ∃ limits, readLogCfg (attributeOf cfg name) = .ok limits

/-- What would stop start-up first is not a null pointer: no channel configuration that is
reached is opened through one, and each name that is reached is offered by some channel
configuration. What is reached lies behind things none of which raises. -/
def NullFree (serialType : Value R) : Prop :=
  ∀ store vecChannelCfg mapProtocolCfg, DataStorage.init cfg = .ok store →
    arrangeCfg cfg = .ok (vecChannelCfg, mapProtocolCfg) →
    Each (fun pre c => (∀ d ∈ pre, Opens cfg serialType d) → ¬ NullChannel cfg c) vecChannelCfg ∧
      ((∀ c ∈ vecChannelCfg, Opens cfg serialType c) →
        (∃ entries, entriesOf mapProtocolCfg = .ok entries) →
        Each (fun pre name => (∀ n ∈ pre, (∃ c ∈ vecChannelCfg, Offers c n) ∧ Logs cfg n) →
          ∃ c ∈ vecChannelCfg, Offers c name) (getDeviceName cfg ++ getTransName cfg))

variable {cfg}

omit [Double R] in
lemma attribute_of_device {name : String} (h : name ∈ getDeviceName cfg) :
    getDeviceCfg cfg name .attribute = some (attributeOf cfg name) := by
  rw [getDeviceName, Std.ExtTreeMap.mem_keys, Std.ExtTreeMap.mem_iff_isSome_getElem?] at h
  obtain ⟨dev, hdev⟩ := Option.isSome_iff_exists.mp h
  simp [getDeviceCfg, hdev]

omit [Double R] in
lemma attribute_of_trans {name : String} (h : name ∈ getTransName cfg) :
    getTransCfg cfg name .attribute = some (attributeOf cfg name) := by
  rw [getTransName, Std.ExtTreeMap.mem_keys, Std.ExtTreeMap.mem_iff_isSome_getElem?] at h
  obtain ⟨trans, htrans⟩ := Option.isSome_iff_exists.mp h
  simp [getTransCfg, htrans]

/-- The two loops over the names are one. -/
lemma init_eq (host : Host R) (cfg : Config R) : init host cfg = (do
    let _ ← raise (DataStorage.init cfg)
    let arranged ← raise (arrangeCfg cfg)
    let channels ← createChannel cfg host.serialType arranged.1
    let protocols ← raise (createProtocol host arranged.2)
    let _ ← (getDeviceName cfg ++ getTransName cfg).mapM fun name =>
      initLog channels name (attributeOf cfg name)
    return (channels, protocols)) := by
  refine bind_congr fun _ => bind_congr fun arranged => bind_congr fun channels =>
    bind_congr fun protocols => ?_
  have hdevices : (getDeviceName cfg).mapM (fun devName =>
        initLog channels devName ((getDeviceCfg cfg devName .attribute).getD .null)) =
      (getDeviceName cfg).mapM fun name => initLog channels name (attributeOf cfg name) :=
    mapM_congr fun name h => by rw [attribute_of_device h, Option.getD_some]
  have htrans : (getTransName cfg).mapM (fun transName =>
        initLog channels transName ((getTransCfg cfg transName .attribute).getD .null)) =
      (getTransName cfg).mapM fun name => initLog channels name (attributeOf cfg name) :=
    mapM_congr fun name h => by rw [attribute_of_trans h, Option.getD_some]
  rw [hdevices, htrans, List.mapM_append]
  simp only [bind_assoc, pure_bind]

lemma initLog_null {m : Manager} {name : String} {cfgAttr : Value R} :
    initLog m name cfgAttr = .error .nullPointer ↔ getChannelName m name = .error .nullPointer := by
  unfold initLog
  rw [bind_eq_error, or_iff_left]
  rintro ⟨_, _, h⟩
  obtain ⟨_, _, h⟩ := raise_bind_null.mp h
  cases h

lemma initLog_ok {m : Manager} {name : String} {cfgAttr : Value R} :
    (∃ u, initLog m name cfgAttr = .ok u) ↔
      getChannelName m name ≠ .error .nullPointer ∧ ∃ limits, readLogCfg cfgAttr = .ok limits := by
  have hname : getChannelName m name ≠ .error .nullPointer ↔
      ∃ s, getChannelName m name = .ok s := by
    unfold getChannelName
    split <;> simp
  rw [hname]
  unfold initLog
  simp only [bind_eq_ok, raise_eq_ok]
  constructor
  · rintro ⟨_, s, hs, limits, hl, -⟩
    exact ⟨⟨s, hs⟩, limits, hl⟩
  · rintro ⟨⟨s, hs⟩, limits, hl⟩
    exact ⟨(), s, hs, limits, hl, rfl⟩

lemma createChannel_opens {serialType : Value R} {cs : List (Value R)} :
    (∃ m, createChannel cfg serialType cs = .ok m) ↔ ∀ c ∈ cs, Opens cfg serialType c := by
  unfold Opens
  rw [← exists_mapM_eq_ok]
  constructor
  · rintro ⟨m, hm⟩
    obtain ⟨opened, hopened, -⟩ := bind_eq_ok.mp hm
    exact ⟨opened, hopened⟩
  · rintro ⟨opened, hopened⟩
    exact ⟨_, bind_eq_ok.mpr ⟨opened, hopened, rfl⟩⟩

/-- The loops over the names meet a null pointer at the first name that is not offered. -/
lemma initLogs_null {serialType : Value R} {cs : List (Value R)} {m : Manager}
    (h : createChannel cfg serialType cs = .ok m) (names : List String) :
    (names.mapM fun name => initLog m name (attributeOf cfg name)) = .error .nullPointer ↔
      ¬ Each (fun pre name => (∀ n ∈ pre, (∃ c ∈ cs, Offers c n) ∧ Logs cfg n) →
        ∃ c ∈ cs, Offers c name) names := by
  simp only [mapM_eq_error, initLog_ok, initLog_null, ne_eq, getChannelName_null h, not_not,
    not_each, Classical.not_imp, Logs]

/-- Start-up from a parsed configuration uses a null pointer if that is what stops it first. -/
lemma init_null (host : Host R) :
    init host cfg = .error .nullPointer ↔ ¬ NullFree cfg host.serialType := by
  rw [init_eq, raise_bind_null]
  constructor
  · rintro ⟨store, hstore, h⟩ hfree
    obtain ⟨⟨cs, ps⟩, harrange, h⟩ := raise_bind_null.mp h
    obtain ⟨hchannels, hnames⟩ := hfree store cs ps hstore harrange
    obtain hnull | ⟨m, hm, h⟩ := bind_eq_error.mp h
    · obtain ⟨pre, c, post, hcs, hpre, hc⟩ := createChannel_null.mp hnull
      exact hchannels pre c post hcs hpre hc
    · obtain ⟨protocols, hp, h⟩ := raise_bind_null.mp h
      obtain ⟨entries, hentries, -⟩ := bind_eq_ok.mp hp
      obtain h | ⟨_, _, h⟩ := bind_eq_error.mp h
      · exact (initLogs_null hm _).mp h
          (hnames (createChannel_opens.mp ⟨m, hm⟩) ⟨entries, hentries⟩)
      · cases h
  · intro h
    simp only [NullFree, not_forall] at h
    obtain ⟨store, cs, ps, hstore, harrange, h⟩ := h
    refine ⟨store, hstore, raise_bind_null.mpr ⟨(cs, ps), harrange, ?_⟩⟩
    by_cases hchannels : Each (fun pre c => (∀ d ∈ pre, Opens cfg host.serialType d) →
        ¬ NullChannel cfg c) cs
    · obtain ⟨hopens, ⟨entries, hentries⟩, hnames⟩ : (∀ c ∈ cs, Opens cfg host.serialType c) ∧
          (∃ entries, entriesOf ps = .ok entries) ∧ _ := by
        simpa only [hchannels, true_and, Classical.not_imp] using h
      obtain ⟨m, hm⟩ := createChannel_opens.mpr hopens
      refine bind_eq_error.mpr (.inr ⟨m, hm, raise_bind_null.mpr
        ⟨_, bind_eq_ok.mpr ⟨entries, hentries, rfl⟩, bind_eq_error.mpr (.inl ?_)⟩⟩)
      exact (initLogs_null hm _).mpr hnames
    · obtain ⟨pre, c, post, hcs, hc⟩ := not_each.mp hchannels
      obtain ⟨hpre, hc⟩ := Classical.not_imp.mp hc
      exact bind_eq_error.mpr (.inl (createChannel_null.mpr
        ⟨pre, c, post, hcs, hpre, not_not.mp hc⟩))

/-- **No missing channel**: start-up uses no null pointer exactly if, of the configuration that
is parsed, what would stop it first is none. -/
theorem no_null_pointer_iff (host : Host R) (root : Root R) :
    initEngine host root ≠ .error .nullPointer ↔
      ∀ cfg, parse root = .ok cfg → NullFree cfg host.serialType := by
  rw [ne_eq, initEngine, raise_bind_null]
  simp only [init_null, not_exists, not_and, not_not]

/-- A directory of transmits that no task is left of. -/
def leftOver : Root ℚ where
  taskCfg := []
  devStore := []
  transStore := [⟨"T", .dir, some [⟨"Protocol.json", .reg, some (.object [])⟩]⟩]
  composite := none
  template := fun _ => []

theorem left_over_dereferenced :
    ¬ ∀ (host : Host ℚ) (root : Root ℚ), initEngine host root ≠ .error .nullPointer := by
  intro h
  have hrun : (fun _ => ()) <$> initEngine ⟨.null, fun _ _ _ => true⟩ leftOver =
      .error .nullPointer := by decide +kernel
  refine h ⟨.null, fun _ _ _ => true⟩ leftOver ?_
  rcases hi : initEngine ⟨.null, fun _ _ _ => true⟩ leftOver with e | x
  · rw [hi] at hrun
    exact congrArg _ (Except.error.inj hrun)
  · rw [hi] at hrun
    cases hrun

end DataEngine.StartUp
