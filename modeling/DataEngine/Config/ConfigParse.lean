import DataEngine.Json

/-!
The parsed configuration and what is looked up in it.

A look-up that answers `false` is `none`; one that answers `true` gives what it wrote to its
output parameters.
-/

namespace DataEngine.ConfigParse

open Json

/-- The maps `CConfigParse` fills when it parses the configuration directories. A device name
is mapped to a pointer into `mapDeviceCfg`; the pointer is the key it points at. -/
structure Config (R : Type) where
  mapTaskCfg : Map String (Map CfgType (Value R))
  mapDeviceCfg : Map String (Map CfgType (Value R))
  mapDeviceNameCfg : Map String String
  compositeCfg : Value R
  mapCfgAttr : Map String (Value R)
  mapTransNameCfg : Map String (Map CfgType (Value R))
  mapTemplateCfg : Map String (Map CfgType (Value R))

variable {R : Type}

def empty : Config R := ⟨∅, ∅, ∅, .null, ∅, ∅, ∅⟩

def getTaskName (cfg : Config R) : List String := cfg.mapTaskCfg.keys

def getDeviceName (cfg : Config R) : List String := cfg.mapDeviceNameCfg.keys

def getTransName (cfg : Config R) : List String := cfg.mapTransNameCfg.keys

def getTaskCfg (cfg : Config R) (name : String) (type : CfgType) : Option (Value R) := do
  let task ← cfg.mapTaskCfg[name]?
  task[type]?

/-- The attributes of a name nobody configured are created as `null`. -/
def attributeOf (cfg : Config R) (name : String) : Value R := cfg.mapCfgAttr[name]?.getD .null

def getDeviceCfg (cfg : Config R) (name : String) (type : CfgType) : Option (Value R) := do
  let dev ← cfg.mapDeviceNameCfg[name]?
  if type = .attribute then some (attributeOf cfg name)
  else
    let store ← cfg.mapDeviceCfg[dev]?
    store[type]?

def getTransCfg (cfg : Config R) (name : String) (type : CfgType) : Option (Value R) := do
  let trans ← cfg.mapTransNameCfg[name]?
  if type = .attribute then some (attributeOf cfg name) else trans[type]?

def getCompositeCfg (cfg : Config R) : Value R := cfg.compositeCfg

def getTemplateCfg (cfg : Config R) (name : String) (type : CfgType) : Option (Value R) := do
  let temp ← cfg.mapTemplateCfg[name]?
  temp[type]?

variable [Double R]

/-- The first of `params` whose name is `paramName`. -/
def findParam (paramName : String) : List (Value R) → Except Fault (Option (Value R))
  | [] => .ok none
  | p :: ps => do
    let name ← (← p.member "name").asString
    if name = paramName then .ok (some p) else findParam paramName ps

/-- The elements of an array one after another by index, as `for (i = 0; i < v.size(); ++i)`
with `v[i]` reads them: an object that is not empty raises at the first. -/
def indexed (v : Value R) : Except Fault (List (Value R)) :=
  match v with
  | .array xs => .ok xs
  | .object (_ :: _) => .error .logicError
  | _ => .ok []

/-- `getTemplateParamCfg` of a point table -/
def getTemplateParamCfg (cfg : Config R) (tempName dataType paramName : String) :
    Except Fault (Option (Value R)) :=
  if dataType ∈ ["signal", "measure", "pulse", "control", "param"] then
    match getTemplateCfg cfg tempName .pointTable with
    | none => .ok none
    | some cfgTemp => do
      let cfgParam ← (← cfgTemp.member "param").member dataType
      findParam paramName (← indexed cfgParam)
  else .ok none

/-- `getTemplateParamCfg` of any other type -/
def getTypeParamCfg (cfg : Config R) (tempName : String) (type : CfgType) (paramName : String) :
    Except Fault (Option (Value R)) :=
  if type = .pointTable then .ok none
  else
    match getTemplateCfg cfg tempName type with
    | none => .ok none
    | some cfgTemp => do findParam paramName (← indexed (← cfgTemp.member "param"))

/-- Whether the frames of a task, a device or a transmit are printed. -/
def bPrintFrame (cfg : Config R) (name : String) : Except Fault Bool := do
  (← (← (attributeOf cfg name).member "extra").member "enablePrintFrame").asBool

/-- The device and the point a non-empty entry of a transmit table names. -/
def namedBy (dot : Value R) : Except Fault (String × ℤ) := do
  let devName ← (← dot.member "devName").asString
  let pointId ← (← dot.member "pointId").asInt
  .ok (devName, pointId)

/-- The device and the point a transmit point stands for. -/
def transInfoToDevInfo (cfg : Config R) (transName strType : String) (transId : ℤ) :
    Except Fault (Option (String × ℤ)) :=
  match getTransCfg cfg transName .pointTable with
  | none => .ok none
  | some cfgTransPoint => do
    let cfgTransDot ← cfgTransPoint.dotAt strType transId
    if cfgTransDot.empty then .ok none else some <$> namedBy cfgTransDot

lemma transInfoToDevInfo_none {cfg : Config R} {name strType : String} {transId : ℤ}
    (h : getTransCfg cfg name .pointTable = none) :
    transInfoToDevInfo cfg name strType transId = .ok none := by
  simp [transInfoToDevInfo, h]

lemma transInfoToDevInfo_some {cfg : Config R} {name strType : String} {transId : ℤ}
    {table : Value R} (h : getTransCfg cfg name .pointTable = some table) :
    transInfoToDevInfo cfg name strType transId =
      if table.Reads strType transId then
        if (table.dot strType transId).empty then .ok none
        else some <$> namedBy (table.dot strType transId)
      else .error .logicError := by
  simp only [transInfoToDevInfo, h, Value.dotAt_eq]
  split_ifs <;> simp_all [bind, Except.bind]

end DataEngine.ConfigParse
