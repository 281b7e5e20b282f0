import DataEngine.Base
import DataEngine.Lib.Machine

/-!
The receive path of a channel: the message handle with its thread, and the fix functions.

What arrives is appended to a buffer of the handle. The thread of the handle moves it on to a
local buffer, but only while some device waits, and has the fix function of that device cut
frames off it. What is done under one lock is one move, and so is a call of `dealMsg`.
-/

namespace DataEngine.Channel

open Lib.Machine Lib.Trace

variable {β : Type}

/-- A fix function of a plug-in: of a device, a buffer and its length it gives a verdict and a
valid length. -/
abbrev FixFunc (β : Type) : Type := String → List β → ℤ → FixFrameValue × ℤ

/-- What `dealMsg` takes off the local buffer. -/
inductive Output (β : Type) where
  /-- handed to `recvComplete` -/
  | frame (devName : String) (validFrame : List β)
  | discarded (buf : List β)

def Output.bytes : Output β → List β
  | .frame _ validFrame => validFrame
  | .discarded buf => buf

/-- A size passed as an `int`. -/
def ofSize (n : ℕ) : ℤ := Int.bmod n (2 ^ 32)

/-- An `int` passed as a size. -/
def toSize (n : ℤ) : ℕ := (n % 2 ^ 64).toNat

def dealMsg (mapFixFunc : Map String (FixFunc β)) (devName : String) (recvBuf : List β) :
    List β × Option (Output β) :=
  match mapFixFunc[devName]? with
  | none => (recvBuf, none)
  | some func =>
    match func devName recvBuf (ofSize recvBuf.length) with
    | (.incomplete, _) => (recvBuf, none)
    | (.complete, validLen) =>
      (recvBuf.drop (toSize validLen), some (.frame devName (recvBuf.take (toSize validLen))))
    | (.invalid, _) => ([], some (.discarded recvBuf))

/-- A call takes nothing off, or a frame for its device in front, or all. -/
lemma dealMsg_cases (mapFixFunc : Map String (FixFunc β)) (devName : String) (recvBuf : List β) :
    dealMsg mapFixFunc devName recvBuf = (recvBuf, none) ∨
      (∃ n, dealMsg mapFixFunc devName recvBuf =
        (recvBuf.drop n, some (.frame devName (recvBuf.take n)))) ∨
      dealMsg mapFixFunc devName recvBuf = ([], some (.discarded recvBuf)) := by
  unfold dealMsg
  split
  · exact .inl rfl
  rename_i func _
  rcases func devName recvBuf (ofSize recvBuf.length) with ⟨_ | _ | _, validLen⟩
  · exact .inr (.inr rfl)
  · exact .inr (.inl ⟨_, rfl⟩)
  · exact .inl rfl

lemma dealMsg_bytes (mapFixFunc : Map String (FixFunc β)) (devName : String) (recvBuf : List β) :
    (dealMsg mapFixFunc devName recvBuf).2.toList.flatMap Output.bytes ++
      (dealMsg mapFixFunc devName recvBuf).1 = recvBuf := by
  obtain h | ⟨n, h⟩ | h := dealMsg_cases mapFixFunc devName recvBuf <;> simp [h, Output.bytes]

/-! ### The handle -/

/-- Where the message thread is in `dealMessage`: at the top of its loop, or with the name it
has read, before and after it has emptied the buffer of the handle. -/
inductive Pc where
  | top
  | named (name : String)
  | loaded (name : String)
  deriving DecidableEq

structure MsgHandle (β : Type) where
  name : String
  recvBuf : List β
  /-- the local buffer of the thread -/
  recvBufTmp : List β
  pc : Pc

namespace MsgHandle

def init : MsgHandle β := ⟨"", [], [], .top⟩

inductive Move (β : Type) where
  | setName (name : String)
  | handleMessage (buf : List β)
  /-- The thread reads the name. -/
  | readName
  /-- The thread empties the buffer of the handle. -/
  | take
  /-- The thread calls `dealMsg`, with the fix functions there are at that moment. -/
  | dealMsg (mapFixFunc : Map String (FixFunc β))

def step (h : MsgHandle β) : Move β → Option (MsgHandle β × List (Output β))
  | .setName name => some ({ h with name := name }, [])
  | .handleMessage buf => some ({ h with recvBuf := h.recvBuf ++ buf }, [])
  | .readName =>
    match h.pc with
    | .top => some ({ h with pc := if h.name = "" then .top else .named h.name }, [])
    | _ => none
  | .take =>
    match h.pc with
    | .named name =>
      let recvBufTmp := h.recvBufTmp ++ h.recvBuf
      some ({ h with
        recvBuf := []
        recvBufTmp := recvBufTmp
        pc := if recvBufTmp = [] then .top else .loaded name }, [])
    | _ => none
  | .dealMsg mapFixFunc =>
    match h.pc with
    | .loaded name =>
      let dealt := dealMsg mapFixFunc name h.recvBufTmp
      some ({ h with recvBufTmp := dealt.1, pc := .top }, dealt.2.toList)
    | _ => none

def Move.received : Move β → List β
  | .handleMessage buf => buf
  | _ => []

/-- The bytes passed to `handleMessage`. -/
def received (ms : List (Move β)) : List β := ms.flatMap Move.received

@[simp] lemma received_snoc (ms : List (Move β)) (m : Move β) :
    received (ms ++ [m]) = received ms ++ m.received := by
  simp [received]

/-- One move keeps the order of the bytes: what it puts out was in front, what it receives comes
behind. -/
lemma step_bytes {h h' : MsgHandle β} {m : Move β} {out : List (Output β)}
    (hstep : step h m = some (h', out)) :
    h.recvBufTmp ++ h.recvBuf ++ m.received =
      out.flatMap Output.bytes ++ h'.recvBufTmp ++ h'.recvBuf := by
  obtain ⟨name, recvBuf, recvBufTmp, pc⟩ := h
  cases m <;> cases pc <;> simp only [step, Option.some.injEq, Prod.mk.injEq, reduceCtorEq] at hstep
  case dealMsg.loaded mapFixFunc n =>
    obtain ⟨rfl, rfl⟩ := hstep
    have hdealt := dealMsg_bytes mapFixFunc n recvBufTmp
    simp [Move.received, hdealt]
  all_goals
    obtain ⟨rfl, rfl⟩ := hstep
    simp [Move.received]

lemma run_bytes {ms : List (Move β)} {h : MsgHandle β} {out : List (Output β)}
    (hrun : run step init ms = some (h, out)) :
    received ms = out.flatMap Output.bytes ++ h.recvBufTmp ++ h.recvBuf := by
  refine run_inv (I := fun ms h out => received ms =
    out.flatMap Output.bytes ++ h.recvBufTmp ++ h.recvBuf) rfl ?_ hrun (along_true _ _)
  intro ms t o m u p ih _ hstep
  calc received (ms ++ [m])
      = o.flatMap Output.bytes ++ (t.recvBufTmp ++ t.recvBuf ++ m.received) := by simp [ih]
    _ = (o ++ p).flatMap Output.bytes ++ u.recvBufTmp ++ u.recvBuf := by simp [step_bytes hstep]

end MsgHandle

end DataEngine.Channel
