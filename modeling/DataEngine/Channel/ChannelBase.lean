import DataEngine.Channel.MsgHandle
import DataEngine.Semaphore

/-!
One channel between its requester and its message thread.

The requester sends a request, empties the semaphore of the device, announces the device to the
message handle and waits. The message thread runs the loop of the handle; a frame it has cut off
goes through `recvComplete`, whose three statements are three moves. Bytes may arrive at any
moment, and a wait may time out at any moment.

A byte is kept with the number of requests that had been sent when it arrived. Neither this
number nor the other counts of the state is read by any move.
-/

namespace DataEngine.Channel

open Lib.Machine

/-- Where the message thread is in `recvComplete`. -/
inductive Completing (γ : Type) where
  | out
  | storing (name : String) (recvBuf : List γ)
  | posting (name : String)
  | clearing

/-- Where the requester is in `sendSyncRecv` and `recvFrame`. -/
inductive Caller where
  | idle
  /-- in the loop of `tryPend` -/
  | draining (name : String)
  | registering (name : String)
  /-- in `pendFor` -/
  | waiting (name : String)
  | timedOut (name : String)
  | posted (name : String)
  deriving DecidableEq

structure ChannelBase (β σ : Type) where
  msgHandle : MsgHandle (β × ℕ)
  /-- A semaphore that is not yet there is as good as a new one. -/
  mapSem : String → σ
  recvBuf : List (β × ℕ)
  completing : Completing (β × ℕ)
  caller : Caller
  /-- how many requests have been sent -/
  sent : ℕ
  /-- whether a device has been announced since the thread has read the name -/
  overtaken : Bool

/-- What `recvFrame` returns with `true`, and the number of the request it answers. -/
structure Reply (β : Type) where
  name : String
  request : ℕ
  recvBuf : List (β × ℕ)
  deriving DecidableEq

inductive Move (β : Type) where
  | handleMessage (buf : List β)
  /-- The message thread. -/
  | readName
  | take
  | dealMsg (mapFixFunc : Map String (FixFunc β))
  | store
  | post
  | clear
  /-- The requester. -/
  | send (name : String)
  | tryPend
  | setName
  | pend
  | timeOut
  | withdraw
  | answer

variable {β σ : Type}

/-- A fix function sees the bytes only. -/
def onBytes (mapFixFunc : Map String (FixFunc β)) : Map String (FixFunc (β × ℕ)) :=
  mapFixFunc.map fun _ func devName buf len => func devName (buf.map Prod.fst) len

/-- A fix function for one device that finds a frame of one byte. -/
def firstByte (name : String) : Map String (FixFunc β) :=
  (∅ : Map String (FixFunc β)).insert name fun _ _ _ => (.complete, 1)

def completingOf : List (Output (β × ℕ)) → Completing (β × ℕ)
  | [.frame devName validFrame] => .storing devName validFrame
  | _ => .out

namespace ChannelBase

variable [Semaphore σ]

def init : ChannelBase β σ :=
  ⟨MsgHandle.init, fun _ => Semaphore.create, [], .out, .idle, 0, false⟩

/-- A move of the handle made by its thread. -/
def threadStep (c : ChannelBase β σ) (m : MsgHandle.Move (β × ℕ)) :
    Option (MsgHandle (β × ℕ) × List (Output (β × ℕ))) :=
  match c.completing with
  | .out => MsgHandle.step c.msgHandle m
  | _ => none

def setSem (c : ChannelBase β σ) (name : String) (s : σ) : ChannelBase β σ :=
  { c with mapSem := Function.update c.mapSem name s }

def setName (c : ChannelBase β σ) (name : String) : ChannelBase β σ :=
  { c with msgHandle := { c.msgHandle with name := name } }

def step (c : ChannelBase β σ) : Move β → Option (ChannelBase β σ × List (Reply β))
  | .handleMessage buf =>
    some ({ c with msgHandle := { c.msgHandle with
      recvBuf := c.msgHandle.recvBuf ++ buf.map fun b => (b, c.sent) } }, [])
  | .readName => do
    let (h, _) ← c.threadStep .readName
    some ({ c with msgHandle := h, overtaken := false }, [])
  | .take => do
    let (h, _) ← c.threadStep .take
    some ({ c with msgHandle := h }, [])
  | .dealMsg mapFixFunc => do
    let (h, out) ← c.threadStep (.dealMsg (onBytes mapFixFunc))
    some ({ c with msgHandle := h, completing := completingOf out }, [])
  | .store =>
    match c.completing with
    | .storing name recvBuf => some ({ c with recvBuf := recvBuf, completing := .posting name }, [])
    | _ => none
  | .post =>
    match c.completing with
    | .posting name =>
      some ({ c.setSem name (Semaphore.post (c.mapSem name)) with completing := .clearing }, [])
    | _ => none
  | .clear =>
    match c.completing with
    | .clearing => some ({ c.setName "" with completing := .out }, [])
    | _ => none
  | .send name =>
    match c.caller with
    | .idle => some ({ c with caller := .draining name, sent := c.sent + 1 }, [])
    | _ => none
  | .tryPend =>
    match c.caller with
    | .draining name =>
      match Semaphore.tryPend (c.mapSem name) with
      | some s => some (c.setSem name s, [])
      | none => some ({ c with caller := .registering name }, [])
    | _ => none
  | .setName =>
    match c.caller with
    | .registering name =>
      some ({ c.setName name with caller := .waiting name, overtaken := true }, [])
    | _ => none
  | .pend =>
    match c.caller with
    | .waiting name => do
      let s ← Semaphore.tryPend (c.mapSem name)
      some ({ c.setSem name s with caller := .posted name }, [])
    | _ => none
  | .timeOut =>
    match c.caller with
    | .waiting name => some ({ c with caller := .timedOut name }, [])
    | _ => none
  | .withdraw =>
    match c.caller with
    | .timedOut _ => some ({ c.setName "" with caller := .idle }, [])
    | _ => none
  | .answer =>
    match c.caller with
    | .posted name => some ({ c with caller := .idle }, [⟨name, c.sent, c.recvBuf⟩])
    | _ => none

/-- What each move does, with what it needs. -/
inductive Moved (c : ChannelBase β σ) :
    Move β → ChannelBase β σ → List (Reply β) → Prop where
  | handleMessage (buf : List β) :
      Moved c (.handleMessage buf) { c with msgHandle := { c.msgHandle with
        recvBuf := c.msgHandle.recvBuf ++ buf.map fun b => (b, c.sent) } } []
  | readName (hout : c.completing = .out) (hpc : c.msgHandle.pc = .top) :
      Moved c .readName { c with
        msgHandle := { c.msgHandle with
          pc := if c.msgHandle.name = "" then .top else .named c.msgHandle.name }
        overtaken := false } []
  | take {name : String} (hout : c.completing = .out) (hpc : c.msgHandle.pc = .named name) :
      Moved c .take { c with msgHandle := { c.msgHandle with
        recvBuf := []
        recvBufTmp := c.msgHandle.recvBufTmp ++ c.msgHandle.recvBuf
        pc := if c.msgHandle.recvBufTmp ++ c.msgHandle.recvBuf = [] then .top
          else .loaded name } } []
  | keep {name : String} {mapFixFunc : Map String (FixFunc β)} {rest : List (β × ℕ)}
      (hout : c.completing = .out) (hpc : c.msgHandle.pc = .loaded name)
      (hrest : rest ⊆ c.msgHandle.recvBufTmp) :
      Moved c (.dealMsg mapFixFunc)
        { c with msgHandle := { c.msgHandle with recvBufTmp := rest, pc := .top } } []
  | cut {name : String} {mapFixFunc : Map String (FixFunc β)} (n : ℕ)
      (hout : c.completing = .out) (hpc : c.msgHandle.pc = .loaded name) :
      Moved c (.dealMsg mapFixFunc) { c with
        msgHandle := { c.msgHandle with
          recvBufTmp := c.msgHandle.recvBufTmp.drop n
          pc := .top }
        completing := .storing name (c.msgHandle.recvBufTmp.take n) } []
  | store {name : String} {recvBuf : List (β × ℕ)}
      (hstoring : c.completing = .storing name recvBuf) :
      Moved c .store { c with recvBuf := recvBuf, completing := .posting name } []
  | post {name : String} (hposting : c.completing = .posting name) :
      Moved c .post
        { c.setSem name (Semaphore.post (c.mapSem name)) with completing := .clearing } []
  | clear (hclearing : c.completing = .clearing) :
      Moved c .clear { c.setName "" with completing := .out } []
  | send (name : String) (hidle : c.caller = .idle) :
      Moved c (.send name) { c with caller := .draining name, sent := c.sent + 1 } []
  | drain {name : String} {s : σ} (hdraining : c.caller = .draining name)
      (hs : Semaphore.tryPend (c.mapSem name) = some s) : Moved c .tryPend (c.setSem name s) []
  | drained {name : String} (hdraining : c.caller = .draining name)
      (hs : Semaphore.tryPend (c.mapSem name) = none) :
      Moved c .tryPend { c with caller := .registering name } []
  | setName {name : String} (hregistering : c.caller = .registering name) :
      Moved c .setName { c.setName name with caller := .waiting name, overtaken := true } []
  | pend {name : String} {s : σ} (hwaiting : c.caller = .waiting name)
      (hs : Semaphore.tryPend (c.mapSem name) = some s) :
      Moved c .pend { c.setSem name s with caller := .posted name } []
  | timeOut {name : String} (hwaiting : c.caller = .waiting name) :
      Moved c .timeOut { c with caller := .timedOut name } []
  | withdraw {name : String} (htimedOut : c.caller = .timedOut name) :
      Moved c .withdraw { c.setName "" with caller := .idle } []
  | answer {name : String} (hposted : c.caller = .posted name) :
      Moved c .answer { c with caller := .idle } [⟨name, c.sent, c.recvBuf⟩]

lemma step_moved {c c' : ChannelBase β σ} {m : Move β} {out : List (Reply β)}
    (hstep : c.step m = some (c', out)) : c.Moved m c' out := by
  obtain ⟨h, mapSem, recvBuf, completing, caller, sent, overtaken⟩ := c
  obtain ⟨name, hbuf, tmp, pc⟩ := h
  cases m with
  | handleMessage buf =>
    simp only [step, Option.some.injEq, Prod.mk.injEq] at hstep
    obtain ⟨rfl, rfl⟩ := hstep
    exact .handleMessage buf
  | readName =>
    cases completing <;> cases pc <;> simp [step, threadStep, MsgHandle.step] at hstep
    obtain ⟨rfl, rfl⟩ := hstep
    exact .readName rfl rfl
  | take =>
    cases completing <;> cases pc <;> simp only [step, threadStep, MsgHandle.step,
      Option.bind_eq_bind, Option.bind_some, Option.bind_none, Option.some.injEq, Prod.mk.injEq,
      reduceCtorEq] at hstep
    obtain ⟨rfl, rfl⟩ := hstep
    exact .take rfl rfl
  | dealMsg mapFixFunc =>
    cases completing <;> cases pc <;> simp [step, threadStep, MsgHandle.step] at hstep
    obtain ⟨rfl, rfl⟩ := hstep
    rename_i name
    obtain hd | ⟨n, hd⟩ | hd := dealMsg_cases (onBytes mapFixFunc) name tmp <;> rw [hd]
    · exact .keep rfl rfl (List.Subset.refl _)
    · exact .cut n rfl rfl
    · exact .keep rfl rfl (List.nil_subset _)
  | store =>
    cases completing <;> simp [step] at hstep
    obtain ⟨rfl, rfl⟩ := hstep
    exact .store rfl
  | post =>
    cases completing <;> simp [step] at hstep
    obtain ⟨rfl, rfl⟩ := hstep
    exact .post rfl
  | clear =>
    cases completing <;> simp [step] at hstep
    obtain ⟨rfl, rfl⟩ := hstep
    exact .clear rfl
  | send name =>
    cases caller <;> simp [step] at hstep
    obtain ⟨rfl, rfl⟩ := hstep
    exact .send name rfl
  | tryPend =>
    cases caller <;> simp only [step, reduceCtorEq] at hstep
    split at hstep
    all_goals
      simp only [Option.some.injEq, Prod.mk.injEq] at hstep
      obtain ⟨rfl, rfl⟩ := hstep
    · exact .drain rfl ‹_›
    · exact .drained rfl ‹_›
  | setName =>
    cases caller <;> simp [step] at hstep
    obtain ⟨rfl, rfl⟩ := hstep
    exact .setName rfl
  | pend =>
    cases caller <;> simp [step, Option.bind_eq_some_iff] at hstep
    obtain ⟨s, hs, rfl, rfl⟩ := hstep
    exact .pend rfl hs
  | timeOut =>
    cases caller <;> simp [step] at hstep
    obtain ⟨rfl, rfl⟩ := hstep
    exact .timeOut rfl
  | withdraw =>
    cases caller <;> simp [step] at hstep
    obtain ⟨rfl, rfl⟩ := hstep
    exact .withdraw rfl
  | answer =>
    cases caller <;> simp [step] at hstep
    obtain ⟨rfl, rfl⟩ := hstep
    exact .answer rfl

/-! ### The handle of a channel -/

/-- The bytes passed to `handleMessage` in a move. -/
def received : Move β → List β
  | .handleMessage buf => buf
  | _ => []

lemma handle_dealMsg {c c' : ChannelBase β σ} {mapFixFunc : Map String (FixFunc β)}
    {out : List (Reply β)} (hstep : c.step (.dealMsg mapFixFunc) = some (c', out)) :
    ∃ o, MsgHandle.step c.msgHandle (.dealMsg (onBytes mapFixFunc)) = some (c'.msgHandle, o) := by
  rcases hc : c.completing <;> simp only [step, threadStep, hc, Option.bind_eq_bind,
    Option.bind_eq_some_iff, Option.some.injEq, Prod.mk.injEq, Prod.exists, reduceCtorEq,
    false_and, exists_false] at hstep
  obtain ⟨h, o, hdealt, rfl, -⟩ := hstep
  exact ⟨o, hdealt⟩

/-- A move of the channel is none of the handle, or one in which the same bytes arrive. -/
lemma handle_step {c c' : ChannelBase β σ} {m : Move β} {out : List (Reply β)}
    (hstep : c.step m = some (c', out)) :
    (c'.msgHandle = c.msgHandle ∧ received m = []) ∨
      ∃ m' o, MsgHandle.step c.msgHandle m' = some (c'.msgHandle, o) ∧
        (m'.received).map Prod.fst = received m := by
  cases step_moved hstep with
  | handleMessage buf =>
    exact .inr ⟨.handleMessage (buf.map fun b => (b, c.sent)), [], rfl, by
      simp [MsgHandle.Move.received, received, Function.comp_def]⟩
  | readName hout hpc => exact .inr ⟨.readName, [], by simp [MsgHandle.step, hpc], rfl⟩
  | take hout hpc => exact .inr ⟨.take, [], by simp [MsgHandle.step, hpc], rfl⟩
  | keep | cut =>
    obtain ⟨o, hdealt⟩ := handle_dealMsg hstep
    exact .inr ⟨_, o, hdealt, rfl⟩
  | clear => exact .inr ⟨.setName "", [], rfl, rfl⟩
  | setName => exact .inr ⟨.setName _, [], rfl, rfl⟩
  | withdraw => exact .inr ⟨.setName "", [], rfl, rfl⟩
  | _ => exact .inl ⟨rfl, rfl⟩

/-- In a run of the channel its handle goes through a run of its own, and loses no byte. -/
theorem handle_run {ms : List (Move β)} {c : ChannelBase β σ} {out : List (Reply β)}
    (hrun : run step init ms = some (c, out)) :
    ∃ ns o, run MsgHandle.step MsgHandle.init ns = some (c.msgHandle, o) ∧
      ms.flatMap received =
        (o.flatMap Output.bytes ++ c.msgHandle.recvBufTmp ++ c.msgHandle.recvBuf).map Prod.fst := by
  have h : ∃ ns o, run MsgHandle.step MsgHandle.init ns = some (c.msgHandle, o) ∧
      (MsgHandle.received ns).map Prod.fst = ms.flatMap received := by
    refine run_inv (I := fun ms c _ => ∃ ns o,
      run MsgHandle.step MsgHandle.init ns = some (c.msgHandle, o) ∧
        (MsgHandle.received ns).map Prod.fst = ms.flatMap received)
      ⟨[], [], rfl, rfl⟩ ?_ hrun (along_true _ _)
    rintro ms t _ m u p ⟨ns, o, hns, hmap⟩ _ hstep
    obtain ⟨heq, hm⟩ | ⟨m', o', hm', hm⟩ := handle_step hstep
    · exact ⟨ns, o, heq ▸ hns, by simp [hmap, hm]⟩
    · exact ⟨ns ++ [m'], o ++ o', run_snoc.mpr ⟨_, _, _, hns, hm', rfl⟩, by simp [hmap, hm]⟩
  obtain ⟨ns, o, hns, hmap⟩ := h
  exact ⟨ns, o, hns, by rw [← hmap, MsgHandle.run_bytes hns]⟩

end ChannelBase

end DataEngine.Channel
