import DataEngine.Config.ConfigParse

/-!
The parsing of the configuration directories.

A directory is the list of its entries in the order in which they are read; one that cannot be
opened at the top is as good as an empty one. A file that cannot be parsed is passed over, but
ends the reading of a directory of templates.
-/

namespace DataEngine.ConfigParse

open Json

/-- `FILE_TYPE` -/
inductive FileType where
  | dir | reg | unknown
  deriving DecidableEq

structure File (R : Type) where
  subName : String
  fType : FileType
  /-- what `parseFileConfig` makes of it -/
  value : Option (Value R)

/-- An entry of a store. -/
structure StoreDir (R : Type) where
  subName : String
  fType : FileType
  /-- `none` if it cannot be opened -/
  files : Option (List (File R))

/-- What the root directory of the configuration holds. -/
structure Root (R : Type) where
  taskCfg : List (File R)
  devStore : List (StoreDir R)
  transStore : List (StoreDir R)
  composite : Option (Value R)
  template : CfgType → List (File R)

variable {R : Type}

def File.skipped (f : File R) : Bool :=
  f.fType != .reg && !decide (".json".toList <:+: f.subName.toList)

/-- `m[name][type] = v` -/
def setCfg (m : Map String (Map CfgType (Value R))) (name : String) (type : CfgType)
    (v : Value R) : Map String (Map CfgType (Value R)) :=
  m.insert name ((m[name]?.getD ∅).insert type v)

/-- The files of a device type or of a transmit. -/
def parseStoreFile (dirName : String) (m : Map String (Map CfgType (Value R))) (f : File R) :
    Map String (Map CfgType (Value R)) :=
  if f.skipped then m
  else
    match f.value with
    | none => m
    | some cfgValue =>
      if f.subName = "PointTable.json" then setCfg m dirName .pointTable cfgValue
      else if f.subName = "Protocol.json" then setCfg m dirName .protocol cfgValue
      else m

/-- A store is read up to the first directory that cannot be opened. -/
def parseStore (m : Map String (Map CfgType (Value R))) :
    List (StoreDir R) → Map String (Map CfgType (Value R))
  | [] => m
  | d :: ds =>
    match d.fType, d.files with
    | .dir, none => m
    | .dir, some files => parseStore (files.foldl (parseStoreFile d.subName) m) ds
    | _, _ => parseStore m ds

/-- An entry of the content of a task, after it has been asked for what it names. -/
def namedEntry (bTrans : Bool) (iter : Value R) : Value R :=
  if bTrans then iter.withMember "name" else (iter.withMember "name").withMember "devTypeName"

/-- The attributes of a task, after the entries of its content have been asked for what they
name. -/
def namedContent (bTrans : Bool) (attr : Value R) : Value R :=
  (attr.withMember "content").mapMember (Value.mapElements (namedEntry bTrans)) "content"

variable [Double R]

def parseTaskFile (m : Map String (Map CfgType (Value R))) (f : File R) :
    Except Fault (Map String (Map CfgType (Value R))) :=
  if f.skipped then .ok m
  else
    match f.value with
    | none => .ok m
    | some cfgTask => do
      if !(← (← cfgTask.member "enable").asBool) then .ok m
      else
        let name ← (← cfgTask.member "name").asString
        let param ← cfgTask.member "param"
        let cfgTaskAttr ← param.member "attribute"
        let cfgChannel ← param.member "channel"
        .ok (setCfg (setCfg m name .attribute cfgTaskAttr) name .channel cfgChannel)

def parseTask (root : Root R) : Except Fault (Map String (Map CfgType (Value R))) :=
  root.taskCfg.foldlM parseTaskFile ∅

/-- An entry of the content of a task -/
def parseContent (bTrans : Bool) (cfg : Config R) (iter : Value R) : Except Fault (Config R) := do
  let devName ← (← iter.member "name").asString
  if bTrans then
    .ok { cfg with mapCfgAttr := cfg.mapCfgAttr.insert devName (namedEntry bTrans iter) }
  else
    let devTypeName ← (← iter.member "devTypeName").asString
    match cfg.mapDeviceCfg[devTypeName]? with
    | none => .ok cfg
    | some _ =>
      .ok { cfg with
        mapDeviceNameCfg := cfg.mapDeviceNameCfg.insert devName devTypeName
        mapCfgAttr := cfg.mapCfgAttr.insert devName (namedEntry bTrans iter) }

/-- The attributes of the tasks are asked in place, so what they are asked for they have. -/
def parseDevice (root : Root R) (cfg : Config R) : Except Fault (Config R) :=
  let cfg := { cfg with mapDeviceCfg := parseStore ∅ root.devStore }
  cfg.mapTaskCfg.toList.foldlM (fun cfg task => do
    let attr := (task.2[CfgType.attribute]?).getD .null
    let bTrans ← (← attr.member "bTrans").asBool
    let attr := attr.withMember "bTrans"
    let cfg ← (← attr.member "content").elements.foldlM (parseContent bTrans) cfg
    .ok { cfg with
      mapTaskCfg := setCfg cfg.mapTaskCfg task.1 .attribute (namedContent bTrans attr) }) cfg

def parseTemplateFiles (type : CfgType) (m : Map String (Map CfgType (Value R))) :
    List (File R) → Except Fault (Map String (Map CfgType (Value R)))
  | [] => .ok m
  | f :: fs =>
    if f.skipped then parseTemplateFiles type m fs
    else
      match f.value with
      | none => .ok m
      | some cfgTemp => do
        let name ← (← cfgTemp.member "name").asString
        parseTemplateFiles type (setCfg m name type (cfgTemp.withMember "name")) fs

def parseTemplate (root : Root R) : Except Fault (Map String (Map CfgType (Value R))) :=
  [CfgType.attribute, .channel, .pointTable, .protocol].foldlM
    (fun m type => parseTemplateFiles type m (root.template type)) ∅

def parse (root : Root R) : Except Fault (Config R) := do
  let mapTaskCfg ← parseTask root
  let cfg ← parseDevice root { (empty : Config R) with mapTaskCfg := mapTaskCfg }
  let mapTemplateCfg ← parseTemplate root
  .ok { cfg with
    mapTransNameCfg := parseStore ∅ root.transStore
    compositeCfg := root.composite.getD .null
    mapTemplateCfg := mapTemplateCfg }

end DataEngine.ConfigParse
