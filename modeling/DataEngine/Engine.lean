import DataEngine.Task.TaskCenter

/-!
The remote commands of the engine: what its users call.

The engine hands each command to the task centre. A cancelled control is handed on as a
selected one.
-/

namespace DataEngine.Engine

open ConfigParse Lib.Effect ProtocolManager

variable {R : Type} [Double R] (cfg : Config R) (mgr : Manager R)

def controlSelect (name : String) (transId : ℤ) (status : CtrlStatus) : CommandM R Bool :=
  TaskCenter.controlSelect cfg mgr name transId status

def controlExecute (name : String) (transId : ℤ) (status : CtrlStatus) : CommandM R Bool :=
  TaskCenter.controlExecute cfg mgr name transId status

/-- The source calls the select of the task centre here. -/
def controlCancel (name : String) (transId : ℤ) (status : CtrlStatus) : CommandM R Bool :=
  TaskCenter.controlSelect cfg mgr name transId status

def paramSelect (name : String) (transId : ℤ) (data : R) : CommandM R Bool :=
  TaskCenter.paramSelect cfg mgr name transId data

def paramExecute (name : String) (transId : ℤ) (data : R) : CommandM R Bool :=
  TaskCenter.paramExecute cfg mgr name transId data

def paramCancel (name : String) (transId : ℤ) (data : R) : CommandM R Bool :=
  TaskCenter.paramCancel cfg mgr name transId data

/-- The command of the engine that a command names. -/
def issue (name : String) (transId : ℤ) : Command R → CommandM R Bool
  | .controlSelect status => controlSelect cfg mgr name transId status
  | .controlExecute status => controlExecute cfg mgr name transId status
  | .controlCancel status => controlCancel cfg mgr name transId status
  | .paramSelect data => paramSelect cfg mgr name transId data
  | .paramExecute data => paramExecute cfg mgr name transId data
  | .paramCancel data => paramCancel cfg mgr name transId data

/-- The command the engine hands on. -/
def handedOn : Command R → Command R
  | .controlCancel status => .controlSelect status
  | c => c

lemma issue_eq (name : String) (transId : ℤ) (c : Command R) :
    issue cfg mgr name transId c = TaskCenter.issue cfg mgr name transId (handedOn c) := by
  cases c <;> rfl

omit [Double R] in
lemma sectionOf_handedOn (c : Command R) :
    TaskCenter.sectionOf (handedOn c) = TaskCenter.sectionOf c := by
  cases c <;> rfl

omit [Double R] in
lemma handedOn_eq_self {c : Command R} :
    handedOn c = c ↔ ∀ status, c ≠ .controlCancel status := by
  cases c <;> simp [handedOn]

variable (name : String) (transId : ℤ) (c : Command R)

/-- A command that reaches a plug-in at all is one call of the method of its own kind and
phase, to the instance registered for the device it resolves to, with its own argument; and
the answer is passed on. -/
def Relayed : Prop :=
  (exec (issue cfg mgr name transId c) []).2 ≠ [] →
    ∃ devName pointId inst,
      transInfoToDevInfo cfg name (TaskCenter.sectionOf c) transId = .ok (some (devName, pointId)) ∧
      mgr.mapProtocolPtr[devName]? = some inst ∧
      exec (issue cfg mgr name transId c) [] =
        (mgr.answer ⟨inst, devName, pointId, c⟩, [⟨inst, devName, pointId, c⟩])

variable {cfg mgr name transId c}

lemma issue_admitted {devName : String} {pointId : ℤ} {inst : ℕ}
    (h : TaskCenter.Admitted cfg mgr (TaskCenter.sectionOf c) name transId devName pointId inst) :
    exec (issue cfg mgr name transId c) [] =
      (mgr.answer ⟨inst, devName, pointId, handedOn c⟩,
        [⟨inst, devName, pointId, handedOn c⟩]) := by
  rw [issue_eq, TaskCenter.issue_eq, sectionOf_handedOn, TaskCenter.command_admitted _ [] h]
  rfl

/-- A command that is not admitted calls nothing. -/
lemma issue_silent
    (h : ∀ d p i, ¬ TaskCenter.Admitted cfg mgr (TaskCenter.sectionOf c) name transId d p i) :
    (exec (issue cfg mgr name transId c) []).2 = [] := by
  rw [issue_eq, TaskCenter.issue_eq, sectionOf_handedOn, TaskCenter.command_refused _ [] h]

variable (cfg mgr name transId c)

/-- **Relay of commands**: a command is relayed as itself exactly if it is not the
cancellation of a control that the task centre lets through. -/
theorem relayed_iff :
    Relayed cfg mgr name transId c ↔
      ∀ status, c = .controlCancel status →
        ∀ d p i, ¬ TaskCenter.Admitted cfg mgr "control" name transId d p i := by
  constructor
  · rintro h status rfl d p i ha
    have hrun := issue_admitted (c := .controlCancel status) ha
    obtain ⟨d', p', i', -, -, hrun'⟩ := h (by rw [hrun]; simp)
    rw [hrun, Prod.mk.injEq] at hrun'
    have hm : handedOn (.controlCancel status) = (.controlCancel status : Command R) := by
      have hcall := List.cons.inj hrun'.2
      simpa using congrArg Call.method hcall.1
    simp [handedOn] at hm
  · intro h hcall
    have hadm : ∃ d p i,
        TaskCenter.Admitted cfg mgr (TaskCenter.sectionOf c) name transId d p i := by
      by_contra hn
      exact hcall (issue_silent fun d p i ha => hn ⟨d, p, i, ha⟩)
    obtain ⟨d, p, i, ha⟩ := hadm
    have hself : handedOn c = c := by
      rw [handedOn_eq_self]
      rintro status rfl
      exact h status rfl d p i ha
    have hrun := issue_admitted ha
    rw [hself] at hrun
    exact ⟨d, p, i, ha.resolved, ha.registered, hrun⟩

/-- Cancelling the control of the one point sends its plug-in a select. -/
theorem cancel_selects :
    ¬ Relayed (TaskCenter.onePoint "control") TaskCenter.agreeable "T" 0 (.controlCancel .on) := by
  intro h
  have hrun : exec (issue (TaskCenter.onePoint "control") TaskCenter.agreeable "T" 0
      (.controlCancel .on)) [] = (.ok true, [⟨0, "D", 0, .controlSelect .on⟩]) := by
    rfl
  obtain ⟨d, p, i, -, -, hrun'⟩ := h (by rw [hrun]; simp)
  rw [hrun, Prod.mk.injEq] at hrun'
  simp at hrun'

end DataEngine.Engine
