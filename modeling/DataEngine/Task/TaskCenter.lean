import DataEngine.Config.ConfigParse
import DataEngine.Protocol.ProtocolManager
import DataEngine.Rational

/-!
The remote commands of the task centre.

The task centre turns a transmit point into a point of a device, checks the point against the
device's table, and hands the command to the protocol manager. Which commands reach a plug-in
is said twice: by what the code looks up, and by the tables alone.
-/

namespace DataEngine.TaskCenter

open Json ConfigParse Lib.Effect ProtocolManager

variable {R : Type} [Double R]

/-- The section the point is looked up in does not depend on `strType`. -/
def bValidTransDot (cfg : Config R) (devName : String) (pointId : ℤ) (_strType : String) :
    Except Fault Bool :=
  match getDeviceCfg cfg devName .pointTable with
  | none => .ok false
  | some cfgPoint => do
    let cfgType ← cfgPoint.dotAt "control" pointId
    .ok (!cfgType.empty)

variable (cfg : Config R) (mgr : Manager R)

/-- The body the six commands share: `send` is what the protocol manager is asked. -/
def command (strType : String) (send : String → ℤ → CommandM R Bool) (name : String)
    (transId : ℤ) : CommandM R Bool := do
  match ← Prog.of (transInfoToDevInfo cfg name strType transId) with
  | none => pure false
  | some (devName, pointId) =>
    if !(← Prog.of (bValidTransDot cfg devName pointId strType)) then pure false
    else send devName pointId

def controlSelect (name : String) (transId : ℤ) (status : CtrlStatus) : CommandM R Bool :=
  command cfg "control" (ProtocolManager.controlSelect mgr · · status) name transId

def controlExecute (name : String) (transId : ℤ) (status : CtrlStatus) : CommandM R Bool :=
  command cfg "control" (ProtocolManager.controlExecute mgr · · status) name transId

def controlCancel (name : String) (transId : ℤ) (status : CtrlStatus) : CommandM R Bool :=
  command cfg "control" (ProtocolManager.controlCancel mgr · · status) name transId

def paramSelect (name : String) (transId : ℤ) (data : R) : CommandM R Bool :=
  command cfg "param" (ProtocolManager.paramSelect mgr · · data) name transId

def paramExecute (name : String) (transId : ℤ) (data : R) : CommandM R Bool :=
  command cfg "param" (ProtocolManager.paramExecute mgr · · data) name transId

def paramCancel (name : String) (transId : ℤ) (data : R) : CommandM R Bool :=
  command cfg "param" (ProtocolManager.paramCancel mgr · · data) name transId

/-- The command of the task centre that a command names. -/
def issue (name : String) (transId : ℤ) : Command R → CommandM R Bool
  | .controlSelect status => controlSelect cfg mgr name transId status
  | .controlExecute status => controlExecute cfg mgr name transId status
  | .controlCancel status => controlCancel cfg mgr name transId status
  | .paramSelect data => paramSelect cfg mgr name transId data
  | .paramExecute data => paramExecute cfg mgr name transId data
  | .paramCancel data => paramCancel cfg mgr name transId data

/-- The section of the tables that holds the points of a command's kind. -/
def sectionOf : Command R → String
  | .controlSelect _ | .controlExecute _ | .controlCancel _ => "control"
  | .paramSelect _ | .paramExecute _ | .paramCancel _ => "param"

lemma issue_eq (name : String) (transId : ℤ) (c : Command R) :
    issue cfg mgr name transId c = command cfg (sectionOf c) (relay mgr · · c) name transId := by
  cases c <;> rfl

/-! ### What a command does -/

/-- The two look-ups let the point through, and its device has a plug-in. -/
structure Admitted (strType name : String) (transId : ℤ) (devName : String) (pointId : ℤ)
    (inst : ℕ) : Prop where
  resolved : transInfoToDevInfo cfg name strType transId = .ok (some (devName, pointId))
  valid : bValidTransDot cfg devName pointId strType = .ok true
  registered : mgr.mapProtocolPtr[devName]? = some inst

variable {cfg mgr} {strType name : String} {transId : ℤ} (m : Command R) (cs : List (Call R))

/-- An admitted command is one call to the plug-in of the device, and the call's answer. -/
lemma command_admitted {devName : String} {pointId : ℤ} {inst : ℕ}
    (h : Admitted cfg mgr strType name transId devName pointId inst) :
    exec (command cfg strType (relay mgr · · m) name transId) cs =
      (mgr.answer ⟨inst, devName, pointId, m⟩, cs ++ [⟨inst, devName, pointId, m⟩]) := by
  simp only [command, exec_of_bind, h.resolved, h.valid]
  exact relay_some mgr h.registered pointId m cs

/-- What a command that reaches no plug-in comes to. -/
def refusal (cfg : Config R) (strType name : String) (transId : ℤ) : Except Fault Bool := do
  match ← transInfoToDevInfo cfg name strType transId with
  | none => .ok false
  | some (devName, pointId) =>
    let _ ← bValidTransDot cfg devName pointId strType
    .ok false

lemma command_refused (h : ∀ d p i, ¬ Admitted cfg mgr strType name transId d p i) :
    exec (command cfg strType (relay mgr · · m) name transId) cs =
      (refusal cfg strType name transId, cs) := by
  unfold command refusal
  rw [exec_of_bind]
  rcases ht : transInfoToDevInfo cfg name strType transId with e | _ | ⟨d, p⟩
  · rfl
  · rfl
  · simp only [bind, Except.bind]
    refine (exec_of_bind _ _ cs).trans ?_
    rcases hv : bValidTransDot cfg d p strType with e | _ | _
    · rfl
    · rfl
    · have hr : mgr.mapProtocolPtr[d]? = none := by
        rcases hi : mgr.mapProtocolPtr[d]? with _ | i
        · rfl
        · exact absurd ⟨ht, hv, hi⟩ (h d p i)
      exact relay_none mgr hr p m cs

/-! ### Which commands the tables admit -/

omit [Double R] in
lemma bValidTransDot_none {devName : String} (h : getDeviceCfg cfg devName .pointTable = none)
    (pointId : ℤ) : bValidTransDot cfg devName pointId strType = .ok false := by
  simp [bValidTransDot, h]

omit [Double R] in
lemma bValidTransDot_some {devName : String} {table : Value R}
    (h : getDeviceCfg cfg devName .pointTable = some table) (pointId : ℤ) :
    bValidTransDot cfg devName pointId strType =
      if table.Reads "control" pointId then .ok (!(table.dot "control" pointId).empty)
      else .error .logicError := by
  simp only [bValidTransDot, h, Value.dotAt_eq]
  split_ifs <;> rfl

variable (cfg mgr strType name transId)

/-- The tables hold the point in the section `strType` on both sides, and the device has a
plug-in. -/
def Reaches : Prop :=
  ∃ table devName pointId devTable inst,
    getTransCfg cfg name .pointTable = some table ∧
    (table.dot strType transId).empty = false ∧
    namedBy (table.dot strType transId) = .ok (devName, pointId) ∧
    getDeviceCfg cfg devName .pointTable = some devTable ∧
    (devTable.dot strType pointId).empty = false ∧
    mgr.mapProtocolPtr[devName]? = some inst

/-- A command reaches a plug-in when the tables hold its point, and is otherwise refused
without a call. -/
structure Admission (c : Command R) : Prop where
  reaches : (exec (issue cfg mgr name transId c) []).2 ≠ [] ↔
    Reaches cfg mgr (sectionOf c) name transId
  refused : ¬ Reaches cfg mgr (sectionOf c) name transId →
    exec (issue cfg mgr name transId c) [] = (.ok false, [])

/-- Every access to the two tables fits them, where the device's table is asked for a point of
its control section. -/
def Readable : Prop :=
  ∀ table, getTransCfg cfg name .pointTable = some table →
    table.Reads strType transId ∧
    ((table.dot strType transId).empty = false → ∃ devName pointId,
      namedBy (table.dot strType transId) = .ok (devName, pointId) ∧
      ∀ devTable, getDeviceCfg cfg devName .pointTable = some devTable →
        devTable.Reads "control" pointId)

/-- The control section of the device's table holds the named point exactly if the section
`strType` does. -/
def SameSections : Prop :=
  ∀ table devName pointId devTable inst,
    getTransCfg cfg name .pointTable = some table →
    (table.dot strType transId).empty = false →
    namedBy (table.dot strType transId) = .ok (devName, pointId) →
    getDeviceCfg cfg devName .pointTable = some devTable →
    mgr.mapProtocolPtr[devName]? = some inst →
    (devTable.dot "control" pointId).empty = (devTable.dot strType pointId).empty

variable {cfg mgr strType name transId}

lemma transInfoToDevInfo_eq_some {devName : String} {pointId : ℤ} :
    transInfoToDevInfo cfg name strType transId = .ok (some (devName, pointId)) ↔
      ∃ table, getTransCfg cfg name .pointTable = some table ∧ table.Reads strType transId ∧
        (table.dot strType transId).empty = false ∧
        namedBy (table.dot strType transId) = .ok (devName, pointId) := by
  rcases ht : getTransCfg cfg name .pointTable with _ | table
  · simp [transInfoToDevInfo_none ht]
  · rw [transInfoToDevInfo_some ht]
    rcases hn : namedBy (table.dot strType transId) with e | d <;>
      by_cases hr : table.Reads strType transId <;>
      by_cases he : (table.dot strType transId).empty <;>
      simp_all

/-- What the look-ups let through, said by the tables. -/
lemma admitted_iff {devName : String} {pointId : ℤ} {inst : ℕ} :
    Admitted cfg mgr strType name transId devName pointId inst ↔
      ∃ table devTable, getTransCfg cfg name .pointTable = some table ∧
        table.Reads strType transId ∧ (table.dot strType transId).empty = false ∧
        namedBy (table.dot strType transId) = .ok (devName, pointId) ∧
        getDeviceCfg cfg devName .pointTable = some devTable ∧
        devTable.Reads "control" pointId ∧ (devTable.dot "control" pointId).empty = false ∧
        mgr.mapProtocolPtr[devName]? = some inst := by
  constructor
  · rintro ⟨hres, hval, hreg⟩
    obtain ⟨table, ht, hr, he, hn⟩ := transInfoToDevInfo_eq_some.mp hres
    cases hd : getDeviceCfg cfg devName .pointTable with
    | none => simp [bValidTransDot_none hd] at hval
    | some devTable =>
      rw [bValidTransDot_some hd] at hval
      split_ifs at hval with hc
      exact ⟨table, devTable, ht, hr, he, hn, rfl, hc, by simpa using hval, hreg⟩
  · rintro ⟨table, devTable, ht, hr, he, hn, hd, hc, hce, hreg⟩
    refine ⟨transInfoToDevInfo_eq_some.mpr ⟨table, ht, hr, he, hn⟩, ?_, hreg⟩
    simp [bValidTransDot_some hd, hc, hce]

/-- A refusal raises nothing exactly if the tables are readable. -/
lemma refusal_eq_ok : refusal cfg strType name transId = .ok false ↔
    Readable cfg strType name transId := by
  unfold refusal Readable
  rcases ht : getTransCfg cfg name .pointTable with _ | table
  · simp [transInfoToDevInfo_none ht, bind, Except.bind]
  rw [transInfoToDevInfo_some ht]
  by_cases hr : table.Reads strType transId
  swap
  · simp [hr, bind, Except.bind]
  by_cases he : (table.dot strType transId).empty
  · simp [hr, he, bind, Except.bind]
  rcases hn : namedBy (table.dot strType transId) with e | ⟨d, p⟩
  · simp [hr, he, hn, bind, Except.bind]
  rcases hd : getDeviceCfg cfg d .pointTable with _ | devTable
  · simp [hr, he, hn, hd, bValidTransDot_none hd, bind, Except.bind]
  · by_cases hc : devTable.Reads "control" p <;>
      simp [hr, he, hn, hd, hc, bValidTransDot_some hd, bind, Except.bind]

lemma readable_of_admitted {devName : String} {pointId : ℤ} {inst : ℕ}
    (h : Admitted cfg mgr strType name transId devName pointId inst) :
    Readable cfg strType name transId := by
  obtain ⟨table, devTable, ht, hr, he, hn, hd, hc, -, -⟩ := admitted_iff.mp h
  intro table' ht'
  obtain rfl : table = table' := Option.some.inj (ht.symm.trans ht')
  refine ⟨hr, fun _ => ⟨devName, pointId, hn, fun devTable' hd' => ?_⟩⟩
  obtain rfl : devTable = devTable' := Option.some.inj (hd.symm.trans hd')
  exact hc

section Entry

/-! What the tables say once the entry at `transId` is found, and the table of its device. -/

variable {table devTable : Value R} {devName : String} {pointId : ℤ} {inst : ℕ}
  (ht : getTransCfg cfg name .pointTable = some table)
  (he : (table.dot strType transId).empty = false)
  (hn : namedBy (table.dot strType transId) = .ok (devName, pointId))
  (hd : getDeviceCfg cfg devName .pointTable = some devTable)
  (hi : mgr.mapProtocolPtr[devName]? = some inst)

include ht he hn hd

lemma Readable.reads (hread : Readable cfg strType name transId) :
    table.Reads strType transId ∧ devTable.Reads "control" pointId := by
  obtain ⟨hr, hnamed⟩ := hread table ht
  obtain ⟨d, p, hn', hc⟩ := hnamed he
  obtain ⟨rfl, rfl⟩ : devName = d ∧ pointId = p := by simpa using hn.symm.trans hn'
  exact ⟨hr, hc devTable hd⟩

include hi

lemma reaches_iff : Reaches cfg mgr strType name transId ↔
    (devTable.dot strType pointId).empty = false := by
  constructor
  · rintro ⟨table', d, p, devTable', i, ht', -, hn', hd', hs, -⟩
    obtain rfl : table = table' := Option.some.inj (ht.symm.trans ht')
    obtain ⟨rfl, rfl⟩ : devName = d ∧ pointId = p := by simpa using hn.symm.trans hn'
    obtain rfl : devTable = devTable' := Option.some.inj (hd.symm.trans hd')
    exact hs
  · intro hs
    exact ⟨table, devName, pointId, devTable, inst, ht, he, hn, hd, hs, hi⟩

lemma exists_admitted_iff (hread : Readable cfg strType name transId) :
    (∃ d p i, Admitted cfg mgr strType name transId d p i) ↔
      (devTable.dot "control" pointId).empty = false := by
  obtain ⟨hr, hc⟩ := Readable.reads ht he hn hd hread
  constructor
  · rintro ⟨d, p, i, h⟩
    obtain ⟨table', devTable', ht', -, -, hn', hd', -, hce, -⟩ := admitted_iff.mp h
    obtain rfl : table = table' := Option.some.inj (ht.symm.trans ht')
    obtain ⟨rfl, rfl⟩ : devName = d ∧ pointId = p := by simpa using hn.symm.trans hn'
    obtain rfl : devTable = devTable' := Option.some.inj (hd.symm.trans hd')
    exact hce
  · intro hce
    exact ⟨devName, pointId, inst,
      admitted_iff.mpr ⟨table, devTable, ht, hr, he, hn, hd, hc, hce, hi⟩⟩

end Entry

/-- Of tables that can be read, the look-ups let through what the section `strType` holds
exactly if the control section holds the same. -/
lemma reaches_iff_admitted (hread : Readable cfg strType name transId) :
    (Reaches cfg mgr strType name transId ↔
      ∃ d p i, Admitted cfg mgr strType name transId d p i) ↔
    SameSections cfg mgr strType name transId := by
  constructor
  · intro hiff table d p devTable i ht he hn hd hi
    rw [reaches_iff ht he hn hd hi, exists_admitted_iff ht he hn hd hi hread] at hiff
    rw [Bool.eq_iff_iff, ← not_iff_not, Bool.not_eq_true, Bool.not_eq_true]
    exact hiff.symm
  · intro hsame
    constructor
    · rintro ⟨table, d, p, devTable, i, ht, he, hn, hd, hs, hi⟩
      rw [exists_admitted_iff ht he hn hd hi hread, hsame table d p devTable i ht he hn hd hi]
      exact hs
    · rintro ⟨d, p, i, ha⟩
      obtain ⟨table, devTable, ht, -, he, hn, hd, -, hce, hi⟩ := admitted_iff.mp ha
      rw [reaches_iff ht he hn hd hi, ← hsame table d p devTable i ht he hn hd hi]
      exact hce

variable (cfg mgr name transId) in
/-- A command calls a plug-in if it is admitted, and is otherwise answered by its refusal. -/
lemma calls_iff_admitted (c : Command R) :
    (exec (issue cfg mgr name transId c) []).2 ≠ [] ↔
      ∃ d p i, Admitted cfg mgr (sectionOf c) name transId d p i := by
  rw [issue_eq]
  constructor
  · intro hcall
    by_contra hn
    rw [command_refused c [] fun d p i ha => hn ⟨d, p, i, ha⟩] at hcall
    exact hcall rfl
  · rintro ⟨d, p, i, ha⟩
    rw [command_admitted c [] ha]
    simp

variable (cfg mgr name transId) in
/-- **Admission of commands**: a command is admitted by the tables as its kind asks exactly if
the tables can be read and the control section of the device's table, which is the one looked
at, holds the point whenever the section of the command's kind does. -/
theorem admission_iff (c : Command R) :
    Admission cfg mgr name transId c ↔
      Readable cfg (sectionOf c) name transId ∧
        SameSections cfg mgr (sectionOf c) name transId := by
  have hcalls := calls_iff_admitted cfg mgr name transId c
  have hrefused (ha : ¬ ∃ d p i, Admitted cfg mgr (sectionOf c) name transId d p i) :
      exec (issue cfg mgr name transId c) [] =
        (refusal cfg (sectionOf c) name transId, []) := by
    rw [issue_eq, command_refused c [] fun d p i h => ha ⟨d, p, i, h⟩]
  constructor
  · intro h
    have hread : Readable cfg (sectionOf c) name transId := by
      by_cases ha : ∃ d p i, Admitted cfg mgr (sectionOf c) name transId d p i
      · obtain ⟨d, p, i, ha⟩ := ha
        exact readable_of_admitted ha
      · have hok := h.refused fun hr => ha (hcalls.mp (h.reaches.mpr hr))
        rw [hrefused ha, Prod.mk.injEq] at hok
        exact refusal_eq_ok.mp hok.1
    exact ⟨hread, (reaches_iff_admitted hread).mp (h.reaches.symm.trans hcalls)⟩
  · rintro ⟨hread, hsame⟩
    have hiff := (reaches_iff_admitted hread).mpr hsame
    refine ⟨hcalls.trans hiff.symm, fun hn => ?_⟩
    rw [hrefused fun ha => hn (hiff.mpr ha), refusal_eq_ok.mpr hread]

/-- A device `D` with one point, in the section `sec` of its table, and a transmit table `T`
that passes the point on. -/
def onePoint (sec : String) : Config ℚ :=
  let deviceTable : Value ℚ := .object [("param", .object
    [(sec, .array [.object [("name", .string "point")]])])]
  let transTable : Value ℚ := .object [("param", .object
    [(sec, .array [.object [("devName", .string "D"), ("pointId", .int 0)]])])]
  { empty with
    mapDeviceCfg := (∅ : Map _ _).insert "D" ((∅ : Map _ _).insert .pointTable deviceTable)
    mapDeviceNameCfg := (∅ : Map _ _).insert "D" "D"
    mapTransNameCfg := (∅ : Map _ _).insert "T" ((∅ : Map _ _).insert .pointTable transTable) }

/-- One instance, registered for `D`, that agrees to everything. -/
def agreeable : Manager ℚ := ⟨(∅ : Map _ _).insert "D" 0, fun _ => .ok true⟩

/-- The setting of a device without remote control is in both tables, and is refused. -/
theorem setting_refused : ¬ Admission (onePoint "param") agreeable "T" 0 (.paramSelect 1) := by
  intro h
  have hreach : Reaches (onePoint "param") agreeable "param" "T" 0 :=
    ⟨_, "D", 0, _, 0, rfl, rfl, rfl, rfl, rfl, rfl⟩
  exact h.reaches.mpr hreach (by decide)

end DataEngine.TaskCenter
