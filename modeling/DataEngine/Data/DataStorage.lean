import DataEngine.Config.ConfigParse
import DataEngine.Lib.Effect
import DataEngine.Tool.ExpParser

/-!
The data centre, which keeps the value of every point of every device.

A program reads and writes the store; what it has inserted before it raises stays there. A
function that answers `false` is `none`, one that answers `true` gives its output parameter.
What a conversion of a value to another type yields is the business of the library that wraps
values.
-/

namespace DataEngine.DataStorage

open Json ConfigParse ExpParser Tool Lib.Effect

/-- `base::ValueWrap`: a value and its type. A new one is of no known type, though not `empty()`
as one made of an empty `any`. -/
inductive ValueWrap (R : Type) where
  | int8 (x : Int8)
  | int32 (x : Int32)
  | int64 (x : Int64)
  | uint8 (x : UInt8)
  | uint32 (x : UInt32)
  | uint64 (x : UInt64)
  | float (x : R)
  | double (x : R)
  | string (s : String)
  | bool (b : Bool)
  | unknown
  | empty
  deriving DecidableEq

/-- The conversions of the library, any of which may raise. -/
structure Conversions (R : Type) where
  asInt8 : ValueWrap R → Except Fault Int8
  asInt : ValueWrap R → Except Fault Int32
  asInt64 : ValueWrap R → Except Fault Int64
  asUInt8 : ValueWrap R → Except Fault UInt8
  asUInt32 : ValueWrap R → Except Fault UInt32
  asUInt64 : ValueWrap R → Except Fault UInt64
  asFloat : ValueWrap R → Except Fault R
  asDouble : ValueWrap R → Except Fault R
  asString : ValueWrap R → Except Fault String

/-- What the data centre finds around it. -/
structure Env (R : Type) where
  cfg : Config R
  lib : Conversions R
  /-- what happens to be in the value member of a new parser of a formula -/
  unset : List Char → R

variable {R : Type}

/-! ### The store -/

/-- The values of the points of one type; their number is an `int`. -/
structure PointVec (R : Type) where
  vals : List (ValueWrap R)
  bound : (vals.length : ℤ) ≤ intMax

namespace PointVec

def empty : PointVec R := ⟨[], by simp [intMax]⟩

def size (v : PointVec R) : ℤ := v.vals.length

def get? (v : PointVec R) (i : ℤ) : Option (ValueWrap R) :=
  if 0 ≤ i then v.vals[i.toNat]? else none

def set (v : PointVec R) (i : ℤ) (x : ValueWrap R) : PointVec R :=
  ⟨v.vals.set i.toNat x, by simpa using v.bound⟩

def contains (v : PointVec R) (i : ℤ) : Bool := 0 ≤ i && i < v.size

/-- `vecData[i]` -/
def elem (v : PointVec R) (i : ℤ) : Except Fault (ValueWrap R) :=
  match v.get? i with
  | some x => .ok x
  | none => .error .undefined

/-- `vecData[i] = x` -/
def assign (v : PointVec R) (i : ℤ) (x : ValueWrap R) : Except Fault (PointVec R) :=
  if v.contains i then .ok (v.set i x) else .error .undefined

end PointVec

/-- `m_mapValue` -/
abbrev Store (R : Type) : Type := Map String (Map DataType (PointVec R))

abbrev StoreM (R α : Type) : Type := Prog Fault (Store R) α

/-- The values of a type of a device, none if there is no entry. -/
def slot (s : Store R) (name : String) (type : DataType) : PointVec R :=
  (s[name]?.bind fun dev => dev[type]?).getD .empty

/-- `m_mapValue[name][type] = v` -/
def setSlot (s : Store R) (name : String) (type : DataType) (v : PointVec R) : Store R :=
  s.insert name ((s[name]?.getD ∅).insert type v)

/-- `m_mapValue[name][type]`, which inserts the entries that are missing -/
def vecData (name : String) (type : DataType) : StoreM R (PointVec R) := do
  let s ← get
  set (setSlot s name type (slot s name type))
  pure (slot s name type)

def setVecData (name : String) (type : DataType) (v : PointVec R) : StoreM R Unit :=
  modify fun s => setSlot s name type v

/-- `m_mapType`, as `init` leaves it -/
def typeName : DataType → Option String
  | .signal => some "signal"
  | .measure => some "measure"
  | .pulse => some "pulse"
  | .control => some "control"
  | .param => some "param"
  | .unknown => none

/-- The local map of `initData`; a name it does not know is inserted with the first type. -/
def sectionType (sec : String) : DataType :=
  if sec = "measure" then .measure
  else if sec = "pulse" then .pulse
  else if sec = "control" then .control
  else if sec = "param" then .param
  else .signal

/-- `std::vector<base::ValueWrap>(num, 0)`: a negative `num` is too long for a vector. -/
def zeros (num : ℕ) : Except Fault (PointVec R) :=
  if h : (num : ℤ) ≤ intMax then
    .ok ⟨List.replicate num (.int32 0), by simpa using h⟩
  else .error .lengthError

def initData (devName : String) (cfgPoint : Value R) (s : Store R) : Except Fault (Store R) := do
  let cfgParam ← cfgPoint.member "param"
  (← cfgParam.getMemberNames).foldlM (fun s iter => do
    let cfgData ← cfgParam.member iter
    .ok (setSlot s devName (sectionType iter) (← zeros cfgData.size))) s

variable [Double R]

/-- The devices of a task. -/
def initTask (cfg : Config R) (iter : String) (s : Store R) : Except Fault (Store R) := do
  let cfgAttr := (getTaskCfg cfg iter .attribute).getD .null
  if ← (← cfgAttr.member "bTrans").asBool then .ok s
  else
    (← cfgAttr.member "content").elements.foldlM (fun s iter1 => do
      let devName ← (← iter1.member "name").asString
      initData devName ((getDeviceCfg cfg devName .pointTable).getD .null) s) s

/-- The store `init` leaves. -/
def init (cfg : Config R) : Except Fault (Store R) :=
  (getTaskName cfg).foldlM (fun s iter => initTask cfg iter s) ∅

/-- What the devices' tables keep holds of the store `init` leaves. -/
lemma init_inv {cfg : Config R} {P : Store R → Prop} (hempty : P ∅)
    (hdata : ∀ devName s t, P s →
      initData devName ((getDeviceCfg cfg devName .pointTable).getD .null) s = .ok t → P t)
    {s : Store R} (h : init cfg = .ok s) : P s := by
  refine foldlM_inv (fun s iter t hs ht => ?_) hempty h
  unfold initTask at ht
  obtain ⟨v, -, ht⟩ := bind_eq_ok.mp ht
  obtain ⟨bTrans, -, ht⟩ := bind_eq_ok.mp ht
  split_ifs at ht
  · obtain rfl := Except.ok.inj ht
    exact hs
  · obtain ⟨content, -, ht⟩ := bind_eq_ok.mp ht
    refine foldlM_inv (fun s iter1 t hs ht => ?_) hs ht
    obtain ⟨v, -, ht⟩ := bind_eq_ok.mp ht
    obtain ⟨devName, -, ht⟩ := bind_eq_ok.mp ht
    exact hdata devName s t hs ht

/-! ### Access by index -/

section Index

variable {R : Type}

/-- How every access begins: the device has an entry, and the index is one of its vector. -/
def access {α : Type} (name : String) (type : DataType) (pointId : ℤ) (refused : α)
    (f : PointVec R → StoreM R α) : StoreM R α := do
  let s ← get
  if name ∉ s then pure refused
  else
    let vec ← vecData name type
    if pointId < 0 ∨ vec.size ≤ pointId then pure refused else f vec

def updateValue (name : String) (type : DataType) (pointId : ℤ) (data : ValueWrap R) :
    StoreM R Bool :=
  access name type pointId false fun vec => do
    setVecData name type (vec.set pointId data)
    pure true

/-- The number of elements of a `std::vector`, converted to `int`. -/
def intSize (n : ℕ) : ℤ := Int.bmod n (2 ^ 32)

def valueAt (vecDataNew : List (ValueWrap R)) (i : ℕ) : Except Fault (ValueWrap R) :=
  match vecDataNew[i]? with
  | some x => .ok x
  | none => .error .undefined

/-- The loop of `updateMultiValue`: `n` elements from `pointId` on are assigned. -/
def assignLoop (pointId : ℤ) (vecDataNew : List (ValueWrap R)) (n : ℕ) (vec : PointVec R) :
    Except Fault (PointVec R) :=
  (List.range n).foldlM (fun vec i => do vec.assign (pointId + i) (← valueAt vecDataNew i)) vec

def updateMultiValue (name : String) (type : DataType) (pointId : ℤ)
    (vecDataNew : List (ValueWrap R)) : StoreM R Bool :=
  access name type pointId false fun vec => do
    let sum ← Prog.of (intAdd (intSize vecDataNew.length) pointId)
    let vec ← Prog.of (assignLoop pointId vecDataNew (min vec.size sum).toNat vec)
    setVecData name type vec
    pure true

def getValue (name : String) (type : DataType) (pointId : ℤ) :
    StoreM R (Option (ValueWrap R)) :=
  access name type pointId none fun vec => some <$> Prog.of (vec.elem pointId)

/-- The loop of `getMultiValue`: `n` elements from `pointId` on are appended. -/
def appendLoop (pointId : ℤ) (vec : PointVec R) (n : ℕ) (vecDataNew : List (ValueWrap R)) :
    Except Fault (List (ValueWrap R)) :=
  (List.range n).foldlM (fun out (i : ℕ) => do
    .ok (out ++ [← vec.elem (pointId + i)])) vecDataNew

/-- The answer, and the output vector as it is left. -/
def getMultiValue (name : String) (type : DataType) (pointId num : ℤ)
    (vecDataNew : List (ValueWrap R)) : StoreM R (Bool × List (ValueWrap R)) :=
  access name type pointId (false, vecDataNew) fun vec => do
    let sum ← Prog.of (intAdd num pointId)
    let out ← Prog.of (appendLoop pointId vec (min vec.size sum).toNat vecDataNew)
    pure (true, out)

end Index

/-! ### Access by condition -/

variable (env : Env R)

/-- The value of a condition, as the type of the parameter in the template has it. -/
def condValue (dataType : ℤ) (value : ValueWrap R) : Except Fault (Option (Value R)) :=
  if dataType = 0 then (fun x => some (.int x.toInt)) <$> env.lib.asInt value
  else if dataType = 1 then (fun x => some (.real x)) <$> env.lib.asDouble value
  else if dataType = 2 then (fun x => some (.string x)) <$> env.lib.asString value
  else .ok none

/-- The first row whose member `key` equals `target`, counted from `i`. -/
def rowLoop (key : String) (target : Value R) : List (Value R) → ℕ → Except Fault ℤ
  | [], _ => .ok (-1)
  | row :: rows, i => do
    if (← row.member key).eq target then .ok i else rowLoop key target rows (i + 1)

/-- What `getIndex` compares and what with: the value of the condition, and the rows. -/
def condRows (name strType : String) (condition : String × ValueWrap R) :
    Except Fault (Option (Value R × List (Value R))) := do
  let cfgPoint := (getDeviceCfg env.cfg name .pointTable).getD .null
  let tempName ← (← cfgPoint.member "template").asString
  let cfgPointTemp := (← getTemplateParamCfg env.cfg tempName strType condition.1).getD .null
  let dataType ← (← cfgPointTemp.member "dataType").asInt
  match ← condValue env dataType condition.2 with
  | none => .ok none
  | some cfgCond =>
    let cfgData ← (← cfgPoint.member "param").member strType
    .ok (some (cfgCond, ← indexed cfgData))

/-- The row a condition selects, `-1` if none. A table whose rows an `int` cannot number is
refused by `init`. -/
def getIndex (name : String) (type : DataType) (condition : String × ValueWrap R) :
    StoreM R ℤ := do
  match typeName type with
  | none => pure (-1)
  | some strType =>
    let s ← get
    if name ∉ s then pure (-1)
    else
      match ← Prog.of (condRows env name strType condition) with
      | none => pure (-1)
      | some (cfgCond, rows) => Prog.of (rowLoop condition.1 cfgCond rows 0)

section Condition

variable (name : String) (type : DataType) (condition : String × ValueWrap R)

def updateValueIf (data : ValueWrap R) : StoreM R Bool := do
  let index ← getIndex env name type condition
  if index < 0 then pure false else updateValue name type index data

def updateMultiValueIf (vecDataNew : List (ValueWrap R)) : StoreM R Bool := do
  let index ← getIndex env name type condition
  if index < 0 then pure false else updateMultiValue name type index vecDataNew

def getValueIf : StoreM R (Option (ValueWrap R)) := do
  let index ← getIndex env name type condition
  if index < 0 then pure none else getValue name type index

def getMultiValueIf (num : ℤ) (vecDataNew : List (ValueWrap R)) :
    StoreM R (Bool × List (ValueWrap R)) := do
  let index ← getIndex env name type condition
  if index < 0 then pure (false, vecDataNew) else getMultiValue name type index num vecDataNew

end Condition

/-! ### Composite and transmit points -/

def transValueToDouble (value : ValueWrap R) : Except Fault R :=
  match value with
  | .int32 _ => (fun x => Double.ofInt x.toInt) <$> env.lib.asInt value
  | .double _ => env.lib.asDouble value
  | .int8 _ => (fun x => Double.ofInt x.toInt) <$> env.lib.asInt8 value
  | .float _ => env.lib.asFloat value
  | .uint8 _ => (fun x => Double.ofInt x.toNat) <$> env.lib.asUInt8 value
  | .uint32 _ => (fun x => Double.ofInt x.toNat) <$> env.lib.asUInt32 value
  | .uint64 _ => (fun x => Double.ofInt x.toNat) <$> env.lib.asUInt64 value
  | .int64 _ => (fun x => Double.ofInt x.toInt) <$> env.lib.asInt64 value
  | _ => .ok (Double.ofInt 0)

/-- The text of a value; a type without a text gives the empty one. -/
def transValueToString (type : DataType) (value : ValueWrap R) : Except Fault (Option String) :=
  match type, value with
  | .measure, .string _ | .measure, .empty => .ok none
  | .measure, value => (fun x => some (Double.toText x)) <$> transValueToDouble env value
  | .signal, .int8 _ | .signal, .uint8 _ | .signal, .int32 _ | .signal, .bool _ =>
    (fun x => some (toString x.toNat)) <$> env.lib.asUInt8 value
  | .signal, _ => .ok none
  | _, _ => .ok (some "")

/-- What a reference in a formula is replaced by. -/
def reference (type : DataType) (str : List Char) : StoreM R (List Char) := do
  match splitStr '#' str with
  | devName :: point :: _ =>
    let pointId ← Prog.of (stoi point)
    match ← getValue (String.ofList devName) type pointId with
    | none => pure []
    | some value =>
      let dst ← Prog.of (transValueToString env type value)
      pure (dst.getD "").toList
  | _ => throw .undefined

/-- What a formula without references makes of the output parameter. -/
def computed (type : DataType) (formula : List Char) (data : ValueWrap R) :
    Except Fault (ValueWrap R) :=
  match type with
  | .measure => .double <$> calculate formula (env.unset formula)
  | .signal =>
    (fun x => .uint8 (.ofNat (Double.toInt64 x % 256).toNat)) <$>
      calculate formula (env.unset formula)
  | _ => (fun _ => data) <$> parser formula (env.unset formula)

def getExprValue (type : DataType) (expr : String) (data : ValueWrap R) :
    StoreM R (Option (ValueWrap R)) := do
  let formula ← replaceRangeStr '<' '>' (reference env type) expr.toList
  some <$> Prog.of (computed env type formula data)

/-- The formula of a composite point. -/
def compositeFormula (type : DataType) (pointId : ℤ) : Except Fault (Option String) := do
  let cfgPoint := getCompositeCfg env.cfg
  let cfgData ← (← cfgPoint.member "param").member ((typeName type).getD "")
  if pointId < 0 ∨ (cfgData.size : ℤ) ≤ pointId then .ok none
  else some <$> (← (← cfgData.elem pointId).member "formula").asString

def getCompositeValue (type : DataType) (pointId : ℤ) (data : ValueWrap R) :
    StoreM R (Option (ValueWrap R)) := do
  match ← Prog.of (compositeFormula env type pointId) with
  | none => pure none
  | some formula => getExprValue env type formula data

/-- The value of the point a transmit point stands for. -/
def getDotValue (type : DataType) (devName : String) (pointId : ℤ) (data : ValueWrap R) :
    StoreM R (Option (ValueWrap R)) :=
  if devName = "Composite" then getCompositeValue env type pointId data
  else getValue devName type pointId

def getTransValue (name : String) (type : DataType) (transId : ℤ) (data : ValueWrap R) :
    StoreM R (Option (ValueWrap R)) := do
  match typeName type with
  | none => pure none
  | some strType =>
    match ← Prog.of (transInfoToDevInfo env.cfg name strType transId) with
    | none => pure none
    | some (devName, pointId) => getDotValue env type devName pointId data

/-- The loop of `getTransMultiValue` with `n` passes to go: it advances its own base. -/
def transLoop (name : String) (type : DataType) (strType : String) :
    ℕ → ℤ → ℤ → List (ValueWrap R) → StoreM R (Bool × List (ValueWrap R))
  | 0, _, _, vecDataNew => pure (true, vecDataNew)
  | n + 1, i, transId, vecDataNew => do
    let transId ← Prog.of (intAdd transId i)
    match ← Prog.of (transInfoToDevInfo env.cfg name strType transId) with
    | none => pure (false, vecDataNew)
    | some (devName, pointId) =>
      match ← getDotValue env type devName pointId .unknown with
      | none => pure (false, vecDataNew)
      | some data => transLoop name type strType n (i + 1) transId (vecDataNew ++ [data])

def getTransMultiValue (name : String) (type : DataType) (transId num : ℤ)
    (vecDataNew : List (ValueWrap R)) : StoreM R (Bool × List (ValueWrap R)) :=
  match typeName type with
  | none => pure (false, vecDataNew)
  | some strType => transLoop env name type strType num.toNat 0 transId vecDataNew

end DataEngine.DataStorage
