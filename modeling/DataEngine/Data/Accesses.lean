import DataEngine.Data.Bulk
import DataEngine.Lib.Interleave

/-!
The functions of the data centre as the accesses they make under its lock.

Only the accesses by index take the lock; a condition, a transmit point or a formula is one
access after another. Made at once they are the functions, and an access changes the points as
it says it does.
-/

namespace DataEngine.DataStorage.Shared

open Json ConfigParse ExpParser Tool Lib.Effect Lib.Memory Lib.Interleave

variable {R : Type}

/-! ### Accesses -/

/-- What is done under the lock at one time. -/
inductive Access (R : Type) where
  /-- `getIndex` looks for the device -/
  | find (name : String)
  | updateValue (name : String) (type : DataType) (pointId : ℤ) (data : ValueWrap R)
  | updateMultiValue (name : String) (type : DataType) (pointId : ℤ)
      (vecDataNew : List (ValueWrap R))
  | getValue (name : String) (type : DataType) (pointId : ℤ)
  | getMultiValue (name : String) (type : DataType) (pointId num : ℤ)
      (vecDataNew : List (ValueWrap R))

namespace Access

def Answer : Access R → Type
  | find _ => Bool
  | updateValue .. => Bool
  | updateMultiValue .. => Bool
  | getValue .. => Option (ValueWrap R)
  | getMultiValue .. => Bool × List (ValueWrap R)

def act : (q : Access R) → StoreM R q.Answer
  | find name => (fun s => decide (name ∈ s)) <$> get
  | updateValue name type pointId data => DataStorage.updateValue name type pointId data
  | updateMultiValue name type pointId vecDataNew =>
    DataStorage.updateMultiValue name type pointId vecDataNew
  | getValue name type pointId => DataStorage.getValue name type pointId
  | getMultiValue name type pointId num vecDataNew =>
    DataStorage.getMultiValue name type pointId num vecDataNew

end Access

abbrev AccessM (R α : Type) : Type := Script Fault (Access.Answer (R := R)) α

/-! ### Functions as the accesses they make -/

def find (name : String) : AccessM R Bool := .access (Access.find name)

def updateValue (name : String) (type : DataType) (pointId : ℤ) (data : ValueWrap R) :
    AccessM R Bool := .access (Access.updateValue name type pointId data)

def updateMultiValue (name : String) (type : DataType) (pointId : ℤ)
    (vecDataNew : List (ValueWrap R)) : AccessM R Bool :=
  .access (Access.updateMultiValue name type pointId vecDataNew)

def getValue (name : String) (type : DataType) (pointId : ℤ) :
    AccessM R (Option (ValueWrap R)) := .access (Access.getValue name type pointId)

def getMultiValue (name : String) (type : DataType) (pointId num : ℤ)
    (vecDataNew : List (ValueWrap R)) : AccessM R (Bool × List (ValueWrap R)) :=
  .access (Access.getMultiValue name type pointId num vecDataNew)

/-- The loop of `replaceRangeStr`. -/
def replaceLoop (first last : Char) (func : List Char → AccessM R (List Char)) :
    ℕ → List Char → AccessM R (List Char)
  | 0, str => pure str
  | n + 1, str =>
    match Tool.find first str 0 with
    | none => pure str
    | some pos1 =>
      match Tool.find last str pos1 with
      | none => pure str
      | some pos2 => do
        let dst ← func (substr str (pos1 + 1) (pos2 - pos1 - 1))
        replaceLoop first last func n (str.take pos1 ++ dst ++ str.drop (pos2 + 1))

def replaceRangeStr (first last : Char) (func : List Char → AccessM R (List Char))
    (str : List Char) : AccessM R (List Char) :=
  replaceLoop first last func (str.count first + 1) str

variable [Double R] (env : Env R)

def getIndex (name : String) (type : DataType) (condition : String × ValueWrap R) :
    AccessM R ℤ := do
  match typeName type with
  | none => pure (-1)
  | some strType =>
    if ← find name then
      match ← Script.of (condRows env name strType condition) with
      | none => pure (-1)
      | some (cfgCond, rows) => Script.of (rowLoop condition.1 cfgCond rows 0)
    else pure (-1)

/-- The access by condition: the row is looked up first, and then accessed by its index. -/
def atIndex {α : Type} (name : String) (type : DataType) (condition : String × ValueWrap R)
    (refused : α) (f : ℤ → AccessM R α) : AccessM R α := do
  let index ← getIndex env name type condition
  if index < 0 then pure refused else f index

def reference (type : DataType) (str : List Char) : AccessM R (List Char) := do
  match splitStr '#' str with
  | devName :: point :: _ =>
    let pointId ← Script.of (stoi point)
    match ← getValue (String.ofList devName) type pointId with
    | none => pure []
    | some value =>
      let dst ← Script.of (transValueToString env type value)
      pure (dst.getD "").toList
  | _ => Script.of (.error .undefined)

def getExprValue (type : DataType) (expr : String) (data : ValueWrap R) :
    AccessM R (Option (ValueWrap R)) := do
  let formula ← replaceRangeStr '<' '>' (reference env type) expr.toList
  some <$> Script.of (computed env type formula data)

def getCompositeValue (type : DataType) (pointId : ℤ) (data : ValueWrap R) :
    AccessM R (Option (ValueWrap R)) := do
  match ← Script.of (compositeFormula env type pointId) with
  | none => pure none
  | some formula => getExprValue env type formula data

def getDotValue (type : DataType) (devName : String) (pointId : ℤ) (data : ValueWrap R) :
    AccessM R (Option (ValueWrap R)) :=
  if devName = "Composite" then getCompositeValue env type pointId data
  else getValue devName type pointId

def getTransValue (name : String) (type : DataType) (transId : ℤ) (data : ValueWrap R) :
    AccessM R (Option (ValueWrap R)) := do
  match typeName type with
  | none => pure none
  | some strType =>
    match ← Script.of (transInfoToDevInfo env.cfg name strType transId) with
    | none => pure none
    | some (devName, pointId) => getDotValue env type devName pointId data

def transLoop (name : String) (type : DataType) (strType : String) :
    ℕ → ℤ → ℤ → List (ValueWrap R) → AccessM R (Bool × List (ValueWrap R))
  | 0, _, _, vecDataNew => pure (true, vecDataNew)
  | n + 1, i, transId, vecDataNew => do
    let transId ← Script.of (intAdd transId i)
    match ← Script.of (transInfoToDevInfo env.cfg name strType transId) with
    | none => pure (false, vecDataNew)
    | some (devName, pointId) =>
      match ← getDotValue env type devName pointId .unknown with
      | none => pure (false, vecDataNew)
      | some data => transLoop name type strType n (i + 1) transId (vecDataNew ++ [data])

def getTransMultiValue (name : String) (type : DataType) (transId num : ℤ)
    (vecDataNew : List (ValueWrap R)) : AccessM R (Bool × List (ValueWrap R)) :=
  match typeName type with
  | none => pure (false, vecDataNew)
  | some strType => transLoop env name type strType num.toNat 0 transId vecDataNew

/-! ### Calls -/

/-- A call, with the data or the output parameter it brings. -/
inductive Call (R : Type) where
  | updateValue (name : String) (type : DataType) (pointId : ℤ) (data : ValueWrap R)
  | updateMultiValue (name : String) (type : DataType) (pointId : ℤ)
      (vecDataNew : List (ValueWrap R))
  | updateValueIf (name : String) (type : DataType) (condition : String × ValueWrap R)
      (data : ValueWrap R)
  | updateMultiValueIf (name : String) (type : DataType) (condition : String × ValueWrap R)
      (vecDataNew : List (ValueWrap R))
  | getValue (name : String) (type : DataType) (pointId : ℤ)
  | getMultiValue (name : String) (type : DataType) (pointId num : ℤ)
      (vecDataNew : List (ValueWrap R))
  | getValueIf (name : String) (type : DataType) (condition : String × ValueWrap R)
  | getMultiValueIf (name : String) (type : DataType) (condition : String × ValueWrap R)
      (num : ℤ) (vecDataNew : List (ValueWrap R))
  | getTransValue (name : String) (type : DataType) (transId : ℤ) (data : ValueWrap R)
  | getTransMultiValue (name : String) (type : DataType) (transId num : ℤ)
      (vecDataNew : List (ValueWrap R))
  | getExprValue (type : DataType) (expr : String) (data : ValueWrap R)

inductive Answer (R : Type) where
  | flag (b : Bool)
  | value (x : Option (ValueWrap R))
  | values (r : Bool × List (ValueWrap R))

/-- The accesses of a call. -/
def Call.script : Call R → AccessM R (Answer R)
  | updateValue name type pointId data => .flag <$> Shared.updateValue name type pointId data
  | updateMultiValue name type pointId vecDataNew =>
    .flag <$> Shared.updateMultiValue name type pointId vecDataNew
  | updateValueIf name type condition data =>
    .flag <$> atIndex env name type condition false fun i => Shared.updateValue name type i data
  | updateMultiValueIf name type condition vecDataNew =>
    .flag <$> atIndex env name type condition false fun i =>
      Shared.updateMultiValue name type i vecDataNew
  | getValue name type pointId => .value <$> Shared.getValue name type pointId
  | getMultiValue name type pointId num vecDataNew =>
    .values <$> Shared.getMultiValue name type pointId num vecDataNew
  | getValueIf name type condition =>
    .value <$> atIndex env name type condition none fun i => Shared.getValue name type i
  | getMultiValueIf name type condition num vecDataNew =>
    .values <$> atIndex env name type condition (false, vecDataNew) fun i =>
      Shared.getMultiValue name type i num vecDataNew
  | getTransValue name type transId data =>
    .value <$> Shared.getTransValue env name type transId data
  | getTransMultiValue name type transId num vecDataNew =>
    .values <$> Shared.getTransMultiValue env name type transId num vecDataNew
  | getExprValue type expr data => .value <$> Shared.getExprValue env type expr data

/-- The function that is called, with nothing in between. -/
def Call.function : Call R → StoreM R (Answer R)
  | updateValue name type pointId data => .flag <$> DataStorage.updateValue name type pointId data
  | updateMultiValue name type pointId vecDataNew =>
    .flag <$> DataStorage.updateMultiValue name type pointId vecDataNew
  | updateValueIf name type condition data =>
    .flag <$> DataStorage.updateValueIf env name type condition data
  | updateMultiValueIf name type condition vecDataNew =>
    .flag <$> DataStorage.updateMultiValueIf env name type condition vecDataNew
  | getValue name type pointId => .value <$> DataStorage.getValue name type pointId
  | getMultiValue name type pointId num vecDataNew =>
    .values <$> DataStorage.getMultiValue name type pointId num vecDataNew
  | getValueIf name type condition =>
    .value <$> DataStorage.getValueIf env name type condition
  | getMultiValueIf name type condition num vecDataNew =>
    .values <$> DataStorage.getMultiValueIf env name type condition num vecDataNew
  | getTransValue name type transId data =>
    .value <$> DataStorage.getTransValue env name type transId data
  | getTransMultiValue name type transId num vecDataNew =>
    .values <$> DataStorage.getTransMultiValue env name type transId num vecDataNew
  | getExprValue type expr data => .value <$> DataStorage.getExprValue env type expr data

/-! ### At once they are the functions -/

section Run

open Access

omit [Double R] in
lemma run_updateValue (name : String) (type : DataType) (pointId : ℤ) (data : ValueWrap R) :
    (updateValue name type pointId data).run act = DataStorage.updateValue name type pointId data :=
  Script.run_access act (Access.updateValue name type pointId data)

omit [Double R] in
lemma run_updateMultiValue (name : String) (type : DataType) (pointId : ℤ)
    (vs : List (ValueWrap R)) : (updateMultiValue name type pointId vs).run act =
      DataStorage.updateMultiValue name type pointId vs :=
  Script.run_access act (Access.updateMultiValue name type pointId vs)

omit [Double R] in
lemma run_getValue (name : String) (type : DataType) (pointId : ℤ) :
    (getValue name type pointId : AccessM R _).run act = DataStorage.getValue name type pointId :=
  Script.run_access act (Access.getValue name type pointId)

omit [Double R] in
lemma run_getMultiValue (name : String) (type : DataType) (pointId num : ℤ)
    (out : List (ValueWrap R)) : (getMultiValue name type pointId num out).run act =
      DataStorage.getMultiValue name type pointId num out :=
  Script.run_access act (Access.getMultiValue name type pointId num out)

lemma run_getIndex (name : String) (type : DataType) (condition : String × ValueWrap R) :
    (getIndex env name type condition).run act =
      DataStorage.getIndex env name type condition := by
  unfold getIndex DataStorage.getIndex
  cases typeName type with
  | none => rfl
  | some strType =>
    have hfind : (find name : AccessM R Bool).run act =
        get >>= fun s : Store R => pure (decide (name ∈ s)) :=
      (Script.run_access act (Access.find name)).trans (map_eq_pure_bind _ _)
    rw [Script.run_bind, hfind, bind_assoc]
    refine congrArg _ (funext fun s => ?_)
    rw [pure_bind]
    by_cases hname : name ∈ s
    · rw [if_neg (not_not.mpr hname), decide_eq_true hname, if_pos rfl, Script.run_bind]
      refine congrArg _ (funext fun rows => ?_)
      rcases rows with _ | ⟨cfgCond, rows⟩ <;> rfl
    · rw [if_pos hname, decide_eq_false hname]
      rfl

lemma run_atIndex {α : Type} (name : String) (type : DataType)
    (condition : String × ValueWrap R) (refused : α) (f : ℤ → AccessM R α) :
    (atIndex env name type condition refused f).run act =
      DataStorage.getIndex env name type condition >>= fun index =>
        if index < 0 then pure refused else (f index).run act := by
  unfold atIndex
  rw [Script.run_bind, run_getIndex]
  refine congrArg _ (funext fun index => ?_)
  split_ifs <;> rfl

omit [Double R] in
lemma run_replaceLoop {func : List Char → AccessM R (List Char)}
    {func' : List Char → StoreM R (List Char)} (hfunc : ∀ str, (func str).run act = func' str)
    (first last : Char) (n : ℕ) (str : List Char) :
    (replaceLoop first last func n str).run act = ExpParser.replaceLoop first last func' n str := by
  induction n generalizing str with
  | zero => rfl
  | succ n ih =>
    unfold replaceLoop ExpParser.replaceLoop
    rcases Tool.find first str 0 with _ | pos1
    · rfl
    simp only
    rcases Tool.find last str pos1 with _ | pos2
    · rfl
    simp only
    rw [Script.run_bind, hfunc]
    exact congrArg _ (funext fun dst => ih _)

lemma run_reference (type : DataType) (str : List Char) :
    (reference env type str).run act = DataStorage.reference env type str := by
  unfold reference DataStorage.reference
  rcases splitStr '#' str with _ | ⟨devName, _ | ⟨point, rest⟩⟩
  · rfl
  · rfl
  simp only
  rw [Script.run_bind]
  refine congrArg _ (funext fun pointId => ?_)
  rw [Script.run_bind, run_getValue]
  refine congrArg _ (funext fun value => ?_)
  cases value with
  | none => rfl
  | some value => exact Script.run_bind act (Script.of (transValueToString env type value)) _

lemma run_getExprValue (type : DataType) (expr : String) (data : ValueWrap R) :
    (getExprValue env type expr data).run act =
      DataStorage.getExprValue env type expr data := by
  unfold getExprValue DataStorage.getExprValue
  rw [Script.run_bind]
  have hreplace : (replaceRangeStr '<' '>' (reference env type) expr.toList).run act =
      ExpParser.replaceRangeStr '<' '>' (DataStorage.reference env type) expr.toList :=
    run_replaceLoop (run_reference env type) '<' '>' _ _
  rw [hreplace]
  refine congrArg _ (funext fun formula => ?_)
  exact Script.run_map act _ _

lemma run_getDotValue (type : DataType) (devName : String) (pointId : ℤ) (data : ValueWrap R) :
    (getDotValue env type devName pointId data).run act =
      DataStorage.getDotValue env type devName pointId data := by
  unfold getDotValue DataStorage.getDotValue
  split_ifs
  · unfold getCompositeValue DataStorage.getCompositeValue
    rw [Script.run_bind]
    refine congrArg _ (funext fun formula => ?_)
    cases formula with
    | none => rfl
    | some formula => exact run_getExprValue env type formula data
  · exact run_getValue devName type pointId

lemma run_getTransValue (name : String) (type : DataType) (transId : ℤ) (data : ValueWrap R) :
    (getTransValue env name type transId data).run act =
      DataStorage.getTransValue env name type transId data := by
  unfold getTransValue DataStorage.getTransValue
  cases typeName type with
  | none => rfl
  | some strType =>
    simp only
    rw [Script.run_bind]
    refine congrArg _ (funext fun dot => ?_)
    rcases dot with _ | ⟨devName, pointId⟩
    · rfl
    · exact run_getDotValue env type devName pointId data

lemma run_transLoop (name : String) (type : DataType) (strType : String) (n : ℕ) (i transId : ℤ)
    (out : List (ValueWrap R)) : (transLoop env name type strType n i transId out).run act =
      DataStorage.transLoop env name type strType n i transId out := by
  induction n generalizing i transId out with
  | zero => rfl
  | succ n ih =>
    unfold transLoop DataStorage.transLoop
    rw [Script.run_bind]
    refine congrArg _ (funext fun transId => ?_)
    rw [Script.run_bind]
    refine congrArg _ (funext fun dot => ?_)
    rcases dot with _ | ⟨devName, pointId⟩
    · rfl
    simp only
    rw [Script.run_bind, run_getDotValue]
    refine congrArg _ (funext fun data => ?_)
    cases data with
    | none => rfl
    | some data => exact ih (i + 1) transId (out ++ [data])

/-- **Calls**: with nothing in between, the accesses of a call do what the function does. -/
theorem run_script (c : Call R) : (c.script env).run act = c.function env := by
  cases c with
  | updateValue name type pointId data =>
    exact (Script.run_map act _ _).trans (congrArg _ (run_updateValue ..))
  | updateMultiValue name type pointId vs =>
    exact (Script.run_map act _ _).trans (congrArg _ (run_updateMultiValue ..))
  | updateValueIf name type condition data =>
    refine (Script.run_map act _ _).trans (congrArg _ ((run_atIndex ..).trans ?_))
    simp only [run_updateValue]
    rfl
  | updateMultiValueIf name type condition vs =>
    refine (Script.run_map act _ _).trans (congrArg _ ((run_atIndex ..).trans ?_))
    simp only [run_updateMultiValue]
    rfl
  | getValue name type pointId =>
    exact (Script.run_map act _ _).trans (congrArg _ (run_getValue ..))
  | getMultiValue name type pointId num out =>
    exact (Script.run_map act _ _).trans (congrArg _ (run_getMultiValue ..))
  | getValueIf name type condition =>
    refine (Script.run_map act _ _).trans (congrArg _ ((run_atIndex ..).trans ?_))
    simp only [run_getValue]
    rfl
  | getMultiValueIf name type condition num out =>
    refine (Script.run_map act _ _).trans (congrArg _ ((run_atIndex ..).trans ?_))
    simp only [run_getMultiValue]
    rfl
  | getTransValue name type transId data =>
    exact (Script.run_map act _ _).trans (congrArg _ (run_getTransValue ..))
  | getTransMultiValue name type transId num out =>
    refine (Script.run_map act _ _).trans (congrArg _ ?_)
    unfold getTransMultiValue DataStorage.getTransMultiValue
    cases typeName type with
    | none => rfl
    | some strType => exact run_transLoop env name type strType _ 0 transId out
  | getExprValue type expr data =>
    exact (Script.run_map act _ _).trans (congrArg _ (run_getExprValue ..))

end Run

/-! ### What an access does to the points -/

section Points

omit [Double R]

/-- Values for the points from an index on. -/
def pointsFrom (name : String) (type : DataType) :
    ℤ → List (ValueWrap R) → List (Point × ValueWrap R)
  | _, [] => []
  | pointId, x :: vs => ((name, type, pointId), x) :: pointsFrom name type (pointId + 1) vs

/-- What a bulk write that comes to an end has written: it goes on to the sum of the index and
the count, as far as there are points. -/
def multiWrites (name : String) (type : DataType) (pointId : ℤ) (vs : List (ValueWrap R)) :
    List (Point × ValueWrap R) :=
  pointsFrom name type pointId (vs.take (intSize vs.length + pointId).toNat)

def succeeded : Except Fault Bool → Bool
  | .ok b => b
  | .error _ => false

/-- What an access that is answered so has written -/
def Access.writes : (q : Access R) → Except Fault q.Answer → List (Point × ValueWrap R)
  | .updateValue name type pointId data, r =>
    if succeeded r then [((name, type, pointId), data)] else []
  | .updateMultiValue name type pointId vs, r =>
    if succeeded r then multiWrites name type pointId vs else []
  | _, _ => []

def writeAll (m : Cells Point (ValueWrap R)) (ws : List (Point × ValueWrap R)) :
    Cells Point (ValueWrap R) := ws.foldl (fun m w => write m w.1 w.2) m

lemma cells_updateEach (name : String) (type : DataType) (pointId : ℤ)
    (vs : List (ValueWrap R)) (s : Store R) :
    cells (exec (updateEach name type pointId vs) s).2 =
      writeAll (cells s) (pointsFrom name type pointId vs) := by
  induction vs generalizing pointId s with
  | nil => rfl
  | cons x vs ih =>
    obtain ⟨t, -, hcells, he⟩ := updateValue_spec s name type pointId x
    unfold updateEach
    rw [exec_bind_ok he, ih, hcells]
    rfl

/-- A bulk write that comes to an end leaves what writes one after another leave. -/
lemma exec_updateMultiValue_ok {s t : Store R} {name : String} {type : DataType} {pointId : ℤ}
    (h : (cells s (name, type, pointId)).isSome) {vs : List (ValueWrap R)}
    (ht : exec (DataStorage.updateMultiValue name type pointId vs) s = (.ok true, t)) :
    t = (exec (updateEach name type pointId
      (vs.take (intSize vs.length + pointId).toNat)) s).2 ∧ Shaped s t := by
  obtain ⟨hmem, h0, hlt⟩ := (isSome_cells s name type pointId).mp h
  obtain ⟨e, he, -⟩ | ⟨sum, w, hsum, hloop, hexec⟩ := exec_updateMultiValue h vs
  · rw [ht] at he
    cases he
  rw [ht] at hexec
  obtain rfl : t = setSlot s name type w := congrArg Prod.snd hexec
  obtain ⟨-, -, rfl⟩ := intAdd_eq_ok.mp hsum
  -- the passes stay in both vectors
  have hfits : (min (slot s name type).size (intSize vs.length + pointId)).toNat ≤ vs.length ∧
      pointId + (min (slot s name type).size (intSize vs.length + pointId)).toNat ≤
        (slot s name type).size := by
    rcases Nat.eq_zero_or_pos
      (min (slot s name type).size (intSize vs.length + pointId)).toNat with hz | hp
    · omega
    · exact assignLoop_le hp hloop
  obtain ⟨w₁, hw₁, hget₁⟩ := assignLoop_eq h0 _ hfits.1 hfits.2
  obtain rfl : w = w₁ := Except.ok.inj (hloop.symm.trans hw₁)
  obtain ⟨w₂, hw₂, hget₂⟩ := exec_updateEach h0
    (vs.take (intSize vs.length + pointId).toNat) s hmem (lt_of_le_of_lt h0 hlt)
  refine ⟨?_, fun m => ?_, fun m u => ?_⟩
  · rw [hw₂]
    refine congrArg (setSlot s name type) (PointVec.ext_get? fun i => ?_)
    rw [hget₁, hget₂, List.length_take]
    by_cases hin : pointId ≤ i ∧
        i < pointId + (min (slot s name type).size (intSize vs.length + pointId)).toNat
    · rw [if_pos hin, if_pos (by omega), List.getElem?_take_of_lt (by omega)]
    · rw [if_neg hin, if_neg (by omega)]
  · rw [mem_setSlot]
    exact ⟨fun hm => hm.elim (fun e => e ▸ hmem) id, .inr⟩
  · rw [slot_setSlot]
    split_ifs with hm
    · rw [hm.1, hm.2, assignLoop_size _ hloop]
    · rfl

/-- A part of a bulk write that stops with a fault has written nothing. -/
lemma exec_assign_cases (name : String) (type : DataType) (pointId k : ℤ)
    (vs : List (ValueWrap R)) (v : PointVec R) (s : Store R) :
    let body : StoreM R Bool := do
      let sum ← Prog.of (intAdd k pointId)
      let vec ← Prog.of (assignLoop pointId vs (min v.size sum).toNat v)
      setVecData name type vec
      pure true
    (∃ e, exec body s = (.error e, s)) ∨ ∃ t, exec body s = (.ok true, t) := by
  intro body
  unfold body
  rw [exec_of_bind]
  rcases intAdd k pointId with e | sum
  · exact .inl ⟨e, rfl⟩
  simp only
  rw [exec_of_bind]
  rcases assignLoop pointId vs (min v.size sum).toNat v with e | w
  · exact .inl ⟨e, rfl⟩
  · exact .inr ⟨_, rfl⟩

lemma exec_updateMultiValue_cases {s : Store R} {name : String} {type : DataType} {pointId : ℤ}
    (h : (cells s (name, type, pointId)).isSome) (vs : List (ValueWrap R)) :
    (∃ e t, exec (DataStorage.updateMultiValue name type pointId vs) s = (.error e, t) ∧ Same s t) ∨
      ∃ t, exec (DataStorage.updateMultiValue name type pointId vs) s = (.ok true, t) := by
  obtain ⟨hmem, -, -⟩ := (isSome_cells s name type pointId).mp h
  unfold DataStorage.updateMultiValue
  rw [exec_access_some h]
  obtain ⟨e, he⟩ | hok := exec_assign_cases name type pointId (intSize vs.length) vs
    (slot s name type) (setSlot s name type (slot s name type))
  · exact .inl ⟨e, _, he, same_setSlot hmem type⟩
  · exact .inr hok

/-- An access that leaves alone what it is let through to. -/
lemma same_access {α : Type} {f : PointVec R → StoreM R α}
    (hf : ∀ v t, (exec (f v) t).2 = t) (s : Store R) (name : String) (type : DataType)
    (pointId : ℤ) (refused : α) : Same s (exec (access name type pointId refused f) s).2 := by
  by_cases h : (cells s (name, type, pointId)).isSome
  · obtain ⟨hmem, -, -⟩ := (isSome_cells s name type pointId).mp h
    rw [exec_access_some h, hf]
    exact same_setSlot hmem type
  · obtain ⟨t, hsame, he⟩ := exec_access_none (by simpa using h) refused f
    rw [he]
    exact hsame

lemma same_getMultiValue (s : Store R) (name : String) (type : DataType) (pointId num : ℤ)
    (out : List (ValueWrap R)) :
    Same s (exec (DataStorage.getMultiValue name type pointId num out) s).2 := by
  refine same_access (fun v t => ?_) s name type pointId (false, out)
  rw [exec_of_bind]
  rcases intAdd num pointId with e | sum
  · rfl
  simp only
  rw [exec_of_bind]
  rcases appendLoop pointId v (min v.size sum).toNat out with e | new <;> rfl

lemma updateMultiValue_spec (name : String) (type : DataType) (pointId : ℤ)
    (vs : List (ValueWrap R)) (s : Store R) :
    let r := exec (DataStorage.updateMultiValue name type pointId vs) s
    Shaped s r.2 ∧ cells r.2 =
      writeAll (cells s) (if succeeded r.1 then multiWrites name type pointId vs else []) := by
  intro r
  have hnothing {t : Store R} (hsame : Same s t) (b : Except Fault Bool)
      (hr : r = (b, t)) (hb : succeeded b = false) : Shaped s r.2 ∧ cells r.2 =
        writeAll (cells s) (if succeeded r.1 then multiWrites name type pointId vs else []) := by
    rw [hr]
    simp only [hb, Bool.false_eq_true, if_false]
    exact ⟨hsame.shaped, hsame.cells⟩
  by_cases h : (cells s (name, type, pointId)).isSome
  · obtain ⟨e, t, he, hsame⟩ | ⟨t, he⟩ := exec_updateMultiValue_cases h vs
    · exact hnothing hsame (.error e) he rfl
    · obtain ⟨ht, hshaped⟩ := exec_updateMultiValue_ok h he
      have hr : r = (.ok true, t) := he
      have hyes : succeeded (.ok true) = true := rfl
      rw [hr]
      simp only [hyes, if_true]
      refine ⟨hshaped, ?_⟩
      rw [ht, cells_updateEach, multiWrites]
  · obtain ⟨t, hsame, he⟩ := exec_access_none (by simpa using h) false fun vec => do
      let sum ← Prog.of (intAdd (intSize vs.length) pointId)
      let vec ← Prog.of (assignLoop pointId vs (min vec.size sum).toNat vec)
      setVecData name type vec
      pure true
    exact hnothing hsame (.ok false) he rfl

/-- **Accesses**: the devices and the numbers of points stay, and the values of the points are
changed by what is written. -/
lemma act_spec (q : Access R) (s : Store R) : Shaped s (exec q.act s).2 ∧
    cells (exec q.act s).2 = writeAll (cells s) (q.writes (exec q.act s).1) := by
  cases q with
  | find name => exact ⟨.refl s, rfl⟩
  | updateValue name type pointId data =>
    obtain ⟨t, hshaped, hcells, he⟩ := updateValue_spec s name type pointId data
    have hact : exec (Access.updateValue name type pointId data).act s = (_, t) := he
    rw [hact]
    refine ⟨hshaped, hcells.trans ?_⟩
    -- where there is no point nothing is written
    by_cases h : (cells s (name, type, pointId)).isSome
    · simp [Access.writes, succeeded, h, writeAll]
    · simp [Access.writes, succeeded, h, writeAll, write]
  | updateMultiValue name type pointId vs => exact updateMultiValue_spec name type pointId vs s
  | getValue name type pointId =>
    obtain ⟨t, hsame, he⟩ := getValue_spec s name type pointId
    have hact : exec (Access.getValue name type pointId).act s = (_, t) := he
    rw [hact]
    exact ⟨hsame.shaped, hsame.cells⟩
  | getMultiValue name type pointId num out =>
    have hsame := same_getMultiValue s name type pointId num out
    exact ⟨hsame.shaped, hsame.cells⟩

/-- The access changes nothing. -/
def Access.IsRead : Access R → Prop
  | .updateValue .. | .updateMultiValue .. => False
  | _ => True

/-- The points an access reads. -/
def Access.Reads : Access R → Point → Prop
  | .getValue name type pointId, p => p = (name, type, pointId)
  | .getMultiValue name type .., p => p.1 = name ∧ p.2.1 = type
  | _, _ => False

lemma same_of_isRead {q : Access R} (h : q.IsRead) (s : Store R) : Same s (exec q.act s).2 := by
  cases q with
  | find name => exact .refl s
  | updateValue => exact absurd h id
  | updateMultiValue => exact absurd h id
  | getValue name type pointId =>
    obtain ⟨t, hsame, he⟩ := getValue_spec s name type pointId
    have hact : exec (Access.getValue name type pointId).act s = (_, t) := he
    rw [hact]
    exact hsame
  | getMultiValue name type pointId num out => exact same_getMultiValue s name type pointId num out

/-- A read is answered by the devices and the points it reads. -/
lemma read_congr {q : Access R} (h : q.IsRead) {s t : Store R} (hmem : ∀ n, n ∈ s ↔ n ∈ t)
    (hcells : ∀ p, q.Reads p → cells s p = cells t p) : (exec q.act s).1 = (exec q.act t).1 := by
  cases q with
  | find name => exact congrArg Except.ok (decide_eq_decide.mpr (hmem name))
  | updateValue => exact absurd h id
  | updateMultiValue => exact absurd h id
  | getValue name type pointId =>
    have hfst (u : Store R) : (exec (Access.getValue name type pointId).act u).1 =
        .ok (cells u (name, type, pointId)) := getValue_fst u name type pointId
    rw [hfst, hfst, hcells _ rfl]
  | getMultiValue name type pointId num out =>
    have hslot : slot s name type = slot t name type :=
      PointVec.ext_get? fun i => hcells (name, type, i) ⟨rfl, rfl⟩
    show (exec (DataStorage.getMultiValue name type pointId num out) s).1 =
      (exec (DataStorage.getMultiValue name type pointId num out) t).1
    have hat := hcells (name, type, pointId) ⟨rfl, rfl⟩
    by_cases hsome : (cells s (name, type, pointId)).isSome
    · rw [exec_getMultiValue hsome, exec_getMultiValue (hat ▸ hsome), hslot]
    · have hnone : cells s (name, type, pointId) = none := by simpa using hsome
      obtain ⟨_, -, hs⟩ := exec_access_none hnone (false, out) fun vec => do
        let sum ← Prog.of (intAdd num pointId)
        let out ← Prog.of (appendLoop pointId vec (min vec.size sum).toNat out)
        pure (true, out)
      obtain ⟨_, -, ht⟩ := exec_access_none (hat ▸ hnone) (false, out) fun vec => do
        let sum ← Prog.of (intAdd num pointId)
        let out ← Prog.of (appendLoop pointId vec (min vec.size sum).toNat out)
        pure (true, out)
      exact (congrArg Prod.fst hs).trans (congrArg Prod.fst ht).symm

end Points

/-! ### Calls that read -/

section Asks

variable {P : Access R → Prop}

omit [Double R] in
lemma asks_replaceLoop {func : List Char → AccessM R (List Char)} (h : ∀ str, (func str).Asks P)
    (first last : Char) (n : ℕ) (str : List Char) : (replaceLoop first last func n str).Asks P := by
  induction n generalizing str with
  | zero => exact .done _
  | succ n ih =>
    unfold replaceLoop
    rcases Tool.find first str 0 with _ | pos1
    · exact .done _
    simp only
    rcases Tool.find last str pos1 with _ | pos2
    · exact .done _
    · exact (h _).bind fun dst => ih _

lemma asks_reference (type : DataType) (str : List Char) :
    (reference env type str).Asks Access.IsRead := by
  unfold reference
  rcases splitStr '#' str with _ | ⟨devName, _ | ⟨point, rest⟩⟩
  · exact .done _
  · exact .done _
  refine (Script.Asks.done _).bind fun pointId => (Script.Asks.access trivial).bind fun value => ?_
  rcases value with _ | value
  · exact .done _
  · exact (Script.Asks.done _).bind fun dst => .done _

lemma asks_getExprValue (type : DataType) (expr : String) (data : ValueWrap R) :
    (getExprValue env type expr data).Asks Access.IsRead :=
  (asks_replaceLoop (asks_reference env type) '<' '>' _ _).bind fun _ => (Script.Asks.done _).map _

lemma asks_getDotValue (type : DataType) (devName : String) (pointId : ℤ) (data : ValueWrap R) :
    (getDotValue env type devName pointId data).Asks Access.IsRead := by
  unfold getDotValue getCompositeValue
  split_ifs
  · refine (Script.Asks.done _).bind fun formula => ?_
    rcases formula with _ | formula
    · exact .done _
    · exact asks_getExprValue env type formula data
  · exact .access trivial

lemma asks_transLoop (name : String) (type : DataType) (strType : String) (n : ℕ)
    (i transId : ℤ) (out : List (ValueWrap R)) :
    (transLoop env name type strType n i transId out).Asks Access.IsRead := by
  induction n generalizing i transId out with
  | zero => exact .done _
  | succ n ih =>
    unfold transLoop
    refine (Script.Asks.done _).bind fun transId => (Script.Asks.done _).bind fun dot => ?_
    rcases dot with _ | ⟨devName, pointId⟩
    · exact .done _
    refine (asks_getDotValue env type devName pointId .unknown).bind fun data => ?_
    rcases data with _ | data
    · exact .done _
    · exact ih (i + 1) transId (out ++ [data])

lemma asks_atIndex {α : Type} {refused : α} {f : ℤ → AccessM R α}
    (hf : ∀ i, (f i).Asks Access.IsRead) (name : String) (type : DataType)
    (condition : String × ValueWrap R) :
    (atIndex env name type condition refused f).Asks Access.IsRead := by
  have hindex : (getIndex env name type condition).Asks Access.IsRead := by
    unfold getIndex
    rcases typeName type with _ | strType
    · exact .done _
    refine (Script.Asks.access trivial).bind fun found => ?_
    split_ifs
    · refine (Script.Asks.done _).bind fun rows => ?_
      rcases rows with _ | ⟨cfgCond, rows⟩ <;> exact .done _
    · exact .done _
  refine hindex.bind fun index => ?_
  split_ifs
  · exact .done _
  · exact hf index

end Asks

/-- The call is one of those that read. -/
def Call.IsRead : Call R → Prop
  | updateValue .. | updateMultiValue .. | updateValueIf .. | updateMultiValueIf .. => False
  | _ => True

lemma asks_script {c : Call R} (h : c.IsRead) : (c.script env).Asks Access.IsRead := by
  cases c with
  | updateValue => exact absurd h id
  | updateMultiValue => exact absurd h id
  | updateValueIf => exact absurd h id
  | updateMultiValueIf => exact absurd h id
  | getValue name type pointId =>
    exact (Script.Asks.access (q := Access.getValue name type pointId) trivial).map _
  | getMultiValue name type pointId num out =>
    exact (Script.Asks.access (q := Access.getMultiValue name type pointId num out) trivial).map _
  | getValueIf name type condition =>
    have hat (i : ℤ) : (getValue name type i : AccessM R _).Asks Access.IsRead :=
      .access (q := Access.getValue name type i) trivial
    exact (asks_atIndex env hat name type condition).map _
  | getMultiValueIf name type condition num out =>
    have hat (i : ℤ) : (getMultiValue name type i num out).Asks Access.IsRead :=
      .access (q := Access.getMultiValue name type i num out) trivial
    exact (asks_atIndex env hat name type condition).map _
  | getTransValue name type transId data =>
    refine Script.Asks.map ?_ _
    unfold getTransValue
    rcases typeName type with _ | strType
    · exact .done _
    refine (Script.Asks.done _).bind fun dot => ?_
    rcases dot with _ | ⟨devName, pointId⟩
    · exact .done _
    · exact asks_getDotValue env type devName pointId data
  | getTransMultiValue name type transId num out =>
    refine Script.Asks.map ?_ _
    unfold getTransMultiValue
    rcases typeName type with _ | strType
    · exact .done _
    · exact asks_transLoop env name type strType _ 0 transId out
  | getExprValue type expr data => exact (asks_getExprValue env type expr data).map _

end DataEngine.DataStorage.Shared
