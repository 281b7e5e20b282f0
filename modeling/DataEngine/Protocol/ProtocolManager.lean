import DataEngine.Lib.Effect
import DataEngine.Base

/-!
The remote commands of the protocol manager: the last layer before the plug-in.

A plug-in instance is known by its address only. What it is asked is recorded, and its answer
is any function of what it is asked.
-/

namespace DataEngine.ProtocolManager

open Lib.Effect

variable {R : Type}

/-- A remote command with its argument. -/
inductive Command (R : Type) where
  | controlSelect (status : CtrlStatus)
  | controlExecute (status : CtrlStatus)
  | controlCancel (status : CtrlStatus)
  | paramSelect (data : R)
  | paramExecute (data : R)
  | paramCancel (data : R)
  deriving DecidableEq

/-- A command method of `IProtocol` invoked on an instance. -/
structure Call (R : Type) where
  inst : ℕ
  devName : String
  pointId : ℤ
  method : Command R
  deriving DecidableEq

/-- What the manager has registered, and how the plug-ins answer. -/
structure Manager (R : Type) where
  mapProtocolPtr : Map String ℕ
  answer : Call R → Except Fault Bool

/-- Programs that record the calls they make to plug-ins. -/
abbrev CommandM (R α : Type) : Type := Prog Fault (List (Call R)) α

variable (mgr : Manager R)

def invoke (c : Call R) : CommandM R Bool := do
  modify (· ++ [c])
  Prog.of (mgr.answer c)

/-- The body the six commands share. -/
def relay (devName : String) (pointId : ℤ) (method : Command R) : CommandM R Bool :=
  match mgr.mapProtocolPtr[devName]? with
  | none => pure false
  | some p => do
    if !(← invoke mgr ⟨p, devName, pointId, method⟩) then pure false else pure true

def controlSelect (devName : String) (pointId : ℤ) (status : CtrlStatus) : CommandM R Bool :=
  relay mgr devName pointId (.controlSelect status)

def controlExecute (devName : String) (pointId : ℤ) (status : CtrlStatus) : CommandM R Bool :=
  relay mgr devName pointId (.controlExecute status)

def controlCancel (devName : String) (pointId : ℤ) (status : CtrlStatus) : CommandM R Bool :=
  relay mgr devName pointId (.controlCancel status)

def paramSelect (devName : String) (pointId : ℤ) (data : R) : CommandM R Bool :=
  relay mgr devName pointId (.paramSelect data)

def paramExecute (devName : String) (pointId : ℤ) (data : R) : CommandM R Bool :=
  relay mgr devName pointId (.paramExecute data)

def paramCancel (devName : String) (pointId : ℤ) (data : R) : CommandM R Bool :=
  relay mgr devName pointId (.paramCancel data)

lemma relay_none {devName : String} (h : mgr.mapProtocolPtr[devName]? = none) (pointId : ℤ)
    (method : Command R) (cs : List (Call R)) :
    exec (relay mgr devName pointId method) cs = (.ok false, cs) := by
  simp [relay, h]

/-- A registered device is called once, and its answer is passed on. -/
lemma relay_some {devName : String} {p : ℕ} (h : mgr.mapProtocolPtr[devName]? = some p)
    (pointId : ℤ) (method : Command R) (cs : List (Call R)) :
    exec (relay mgr devName pointId method) cs =
      (mgr.answer ⟨p, devName, pointId, method⟩, cs ++ [⟨p, devName, pointId, method⟩]) := by
  have hi : exec (invoke mgr ⟨p, devName, pointId, method⟩) cs =
      (mgr.answer ⟨p, devName, pointId, method⟩, cs ++ [⟨p, devName, pointId, method⟩]) := by
    simp [invoke]
  simp only [relay, h]
  rcases ha : mgr.answer ⟨p, devName, pointId, method⟩ with e | b
  · rw [ha] at hi
    exact exec_bind_error hi
  · rw [ha] at hi
    rw [exec_bind_ok hi]
    cases b <;> simp

end DataEngine.ProtocolManager
