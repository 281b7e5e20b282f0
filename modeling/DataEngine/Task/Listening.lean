import DataEngine.Lib.Machine
import DataEngine.Plug.IEC104.TransIEC104

/-!
Start-up between its own statements and the clients that are already there.

All channels are started before the first plug-in attaches its callbacks to one. A server that
listens tells its message handle of every client and every message; what no callback takes is
dropped, or kept in a buffer nobody of the plug-in reads.
-/

namespace DataEngine.Listening

open Lib.Machine Lib.Trace TransIEC104

/-- `m_func` and `m_msgFunc` of a message handle -/
inductive Callback where
  | connect | msg
  deriving DecidableEq

/-- A statement of `CTaskCenter::start` as far as the servers are concerned. -/
inductive Stmt where
  | start (c : ℕ)
  | attach (f : Callback) (p c : ℕ)
  deriving DecidableEq

/-- How many servers there are, and for each protocol in the order of `start` the one its `init`
attaches to. A plug-in other than `CTransIEC104` attaches to none. -/
structure Setup where
  channelNum : ℕ
  protocols : List (Option ℕ)

/-- The `init` of a protocol -/
def initStmts (e : Option ℕ × ℕ) : List Stmt :=
  match e.1 with
  | none => []
  | some c => [.attach .connect e.2 c, .attach .msg e.2 c]

def Setup.program (u : Setup) : List Stmt :=
  (List.range u.channelNum).map .start ++ u.protocols.zipIdx.flatMap initStmts

/-- A server with its message handle. -/
structure Channel where
  started : Bool
  /-- the plug-in a callback belongs to -/
  func : Callback → Option ℕ
  recvBuf : List UInt8
  connected : Finset ℤ
  /-- all the octets received on a descriptor -/
  received : ℤ → List UInt8

structure State where
  /-- what is left of the start -/
  rest : List Stmt
  channel : ℕ → Channel
  plug : ℕ → Plug
  /-- the octets passed to `handleMessage` of a plug-in for a descriptor -/
  passed : ℕ → ℤ → List UInt8

inductive Move where
  | main (stmt : Stmt)
  | connect (c : ℕ) (fd : ℤ)
  | disconnect (c : ℕ) (fd : ℤ)
  | message (c : ℕ) (fd : ℤ) (buf : List UInt8)
  deriving DecidableEq

def begin (u : Setup) : State where
  rest := u.program
  channel _ := ⟨false, fun _ => none, [], ∅, fun _ => []⟩
  plug _ := Plug.init
  passed _ _ := []

namespace State

def setChannel (s : State) (c : ℕ) (ch : Channel) : State :=
  { s with channel := Function.update s.channel c ch }

def exec (s : State) : Stmt → State
  | .start c => s.setChannel c { s.channel c with started := true }
  | .attach f p c => s.setChannel c { s.channel c with
      func := Function.update (s.channel c).func f (some p) }

/-- `clientConnected` and `clientDisconnect` of the handle -/
def tell (s : State) (c : ℕ) (status : ConnectStatus) (fd : ℤ) : State :=
  match (s.channel c).func .connect with
  | none => s
  | some p => { s with plug := Function.update s.plug p (newConnectedFunc status fd (s.plug p)) }

/-- `handleMessage` of the handle -/
def handleMessage (s : State) (c : ℕ) (fd : ℤ) (buf : List UInt8) : State :=
  match (s.channel c).func .msg with
  | none => s.setChannel c { s.channel c with recvBuf := (s.channel c).recvBuf ++ buf }
  | some p => { s with
      passed := Function.update s.passed p
        (Function.update (s.passed p) fd (s.passed p fd ++ buf)) }

def setConnected (s : State) (c : ℕ) (fds : Finset ℤ) : State :=
  s.setChannel c { s.channel c with connected := fds }

def receive (s : State) (c : ℕ) (fd : ℤ) (buf : List UInt8) : State :=
  s.setChannel c { s.channel c with
    received := Function.update (s.channel c).received fd ((s.channel c).received fd ++ buf) }

@[simp] lemma setChannel_same (s : State) (c : ℕ) (ch : Channel) :
    (s.setChannel c ch).channel c = ch := by
  simp [setChannel]

lemma setChannel_ne {c d : ℕ} (hne : d ≠ c) (s : State) (ch : Channel) :
    (s.setChannel c ch).channel d = s.channel d := by
  simp [setChannel, hne]

@[simp] lemma exec_plug (s : State) (stmt : Stmt) : (s.exec stmt).plug = s.plug := by
  cases stmt <;> rfl

@[simp] lemma exec_passed (s : State) (stmt : Stmt) : (s.exec stmt).passed = s.passed := by
  cases stmt <;> rfl

@[simp] lemma exec_rest (s : State) (stmt : Stmt) : (s.exec stmt).rest = s.rest := by
  cases stmt <;> rfl

/-- A statement has nothing to do with the clients. -/
lemma exec_clients (s : State) (stmt : Stmt) (d : ℕ) :
    ((s.exec stmt).channel d).connected = (s.channel d).connected ∧
      ((s.exec stmt).channel d).received = (s.channel d).received := by
  rcases stmt with c | ⟨f, p, c⟩ <;> rcases eq_or_ne d c with rfl | hne <;>
    simp [exec, setChannel_ne, *]

lemma exec_attach (s : State) (f : Callback) (p c : ℕ) :
    ((s.exec (.attach f p c)).channel c).func f = some p := by
  simp [exec]

/-- Only attaching it changes a callback. -/
lemma exec_other {f : Callback} {c : ℕ} {stmt : Stmt} (h : ∀ p, stmt ≠ .attach f p c)
    (s : State) : ((s.exec stmt).channel c).func f = (s.channel c).func f := by
  rcases stmt with d | ⟨g, q, d⟩ <;> rcases eq_or_ne c d with rfl | hne
  · simp [exec]
  · simp [exec, setChannel_ne hne]
  · have hfg : f ≠ g := fun hfg => h q (by rw [hfg])
    simp [exec, hfg]
  · simp [exec, setChannel_ne hne]

@[simp] lemma setConnected_func (s : State) (c d : ℕ) (fds : Finset ℤ) :
    ((s.setConnected c fds).channel d).func = (s.channel d).func := by
  rcases eq_or_ne d c with rfl | hne <;> simp [setConnected, setChannel_ne, *]

@[simp] lemma setConnected_connected (s : State) (c : ℕ) (fds : Finset ℤ) :
    ((s.setConnected c fds).channel c).connected = fds := by
  simp [setConnected]

@[simp] lemma setConnected_received (s : State) (c d : ℕ) (fds : Finset ℤ) :
    ((s.setConnected c fds).channel d).received = (s.channel d).received := by
  rcases eq_or_ne d c with rfl | hne <;> simp [setConnected, setChannel_ne, *]

@[simp] lemma setConnected_passed (s : State) (c : ℕ) (fds : Finset ℤ) :
    (s.setConnected c fds).passed = s.passed := rfl

@[simp] lemma setConnected_plug (s : State) (c : ℕ) (fds : Finset ℤ) :
    (s.setConnected c fds).plug = s.plug := rfl

@[simp] lemma tell_channel (s : State) (c : ℕ) (status : ConnectStatus) (fd : ℤ) :
    (s.tell c status fd).channel = s.channel := by
  unfold tell
  split <;> rfl

@[simp] lemma tell_passed (s : State) (c : ℕ) (status : ConnectStatus) (fd : ℤ) :
    (s.tell c status fd).passed = s.passed := by
  unfold tell
  split <;> rfl

@[simp] lemma tell_rest (s : State) (c : ℕ) (status : ConnectStatus) (fd : ℤ) :
    (s.tell c status fd).rest = s.rest := by
  unfold tell
  split <;> rfl

/-- The clients of one server are no business of a plug-in that has its callback elsewhere. -/
lemma tell_ne {c p : ℕ} {s : State} (h : (s.channel c).func .connect ≠ some p)
    (status : ConnectStatus) (fd : ℤ) : (s.tell c status fd).plug p = s.plug p := by
  unfold tell
  split
  · rfl
  · rename_i q hq
    have hne : p ≠ q := fun hpq => h (hpq ▸ hq)
    simp [hne]

lemma tell_eq {c p : ℕ} {s : State} (h : (s.channel c).func .connect = some p)
    (status : ConnectStatus) (fd : ℤ) :
    (s.tell c status fd).plug p = newConnectedFunc status fd (s.plug p) := by
  simp [tell, h]

lemma handleMessage_eq {c p : ℕ} {s : State} (h : (s.channel c).func .msg = some p) (fd : ℤ)
    (buf : List UInt8) : (s.handleMessage c fd buf).passed p =
      Function.update (s.passed p) fd (s.passed p fd ++ buf) := by
  simp [handleMessage, h]

lemma handleMessage_ne {c p : ℕ} {s : State} (h : (s.channel c).func .msg ≠ some p) (fd : ℤ)
    (buf : List UInt8) : (s.handleMessage c fd buf).passed p = s.passed p := by
  unfold handleMessage
  split
  · rfl
  · rename_i q hq
    have hne : p ≠ q := fun hpq => h (hpq ▸ hq)
    simp [hne]

@[simp] lemma receive_passed (s : State) (c : ℕ) (fd : ℤ) (buf : List UInt8) :
    (s.receive c fd buf).passed = s.passed := rfl

lemma handleMessage_received (s : State) (c d : ℕ) (fd : ℤ) (buf : List UInt8) :
    ((s.handleMessage c fd buf).channel d).received = (s.channel d).received := by
  unfold handleMessage
  split <;> rcases eq_or_ne d c with rfl | hne <;> simp [setChannel_ne, *]

lemma receive_received (s : State) (c : ℕ) (fd : ℤ) (buf : List UInt8) (e : ℤ) :
    (((s.handleMessage c fd buf).receive c fd buf).channel c).received e =
      Function.update (s.channel c).received fd ((s.channel c).received fd ++ buf) e := by
  simp [receive, handleMessage_received]

lemma receive_ne {c d : ℕ} (hne : d ≠ c) (s : State) (fd : ℤ) (buf : List UInt8) :
    (((s.handleMessage c fd buf).receive c fd buf).channel d).received =
      (s.channel d).received := by
  simp [receive, setChannel_ne hne, handleMessage_received]

/-- What a message leaves of the state as the clients see it. -/
lemma receive_frame (s : State) (c : ℕ) (fd : ℤ) (buf : List UInt8) (d : ℕ) :
    let t := (s.handleMessage c fd buf).receive c fd buf
    t.rest = s.rest ∧ t.plug = s.plug ∧ (t.channel d).func = (s.channel d).func ∧
      (t.channel d).connected = (s.channel d).connected := by
  unfold handleMessage
  split <;> rcases eq_or_ne d c with rfl | hne <;> simp [receive, setChannel, *]

end State

def step (s : State) : Move → Option (State × List Unit)
  | .main stmt =>
    match s.rest with
    | [] => none
    | next :: rest => if stmt = next then some ({ s with rest := rest }.exec stmt, []) else none
  | .connect c fd =>
    if (s.channel c).started ∧ fd ∉ (s.channel c).connected then
      some ((s.tell c .connect fd).setConnected c (insert fd (s.channel c).connected), [])
    else none
  | .disconnect c fd =>
    if fd ∈ (s.channel c).connected then
      some ((s.tell c .disconnect fd).setConnected c ((s.channel c).connected.erase fd), [])
    else none
  | .message c fd buf =>
    if fd ∈ (s.channel c).connected then some ((s.handleMessage c fd buf).receive c fd buf, [])
    else none

/-! ### What a move does -/

section Moves

variable {s t : State} {o : List Unit} {c : ℕ} {fd : ℤ}

lemma step_main {stmt : Stmt} (h : step s (.main stmt) = some (t, o)) :
    ∃ rest, s.rest = stmt :: rest ∧ t = { s with rest := rest }.exec stmt := by
  simp only [step] at h
  split at h
  · cases h
  · rename_i next rest hrest
    split_ifs at h with heq
    obtain ⟨rfl, -⟩ : _ = t ∧ _ := by simpa using h
    exact ⟨rest, heq ▸ hrest, rfl⟩

lemma step_connect (h : step s (.connect c fd) = some (t, o)) :
    fd ∉ (s.channel c).connected ∧
      t = (s.tell c .connect fd).setConnected c (insert fd (s.channel c).connected) := by
  simp only [step] at h
  split_ifs at h with hguard
  obtain ⟨rfl, -⟩ : _ = t ∧ _ := by simpa using h
  exact ⟨hguard.2, rfl⟩

lemma step_disconnect (h : step s (.disconnect c fd) = some (t, o)) :
    t = (s.tell c .disconnect fd).setConnected c ((s.channel c).connected.erase fd) := by
  simp only [step] at h
  split_ifs at h
  obtain ⟨rfl, -⟩ : _ = t ∧ _ := by simpa using h
  rfl

lemma step_message {buf : List UInt8} (h : step s (.message c fd buf) = some (t, o)) :
    t = (s.handleMessage c fd buf).receive c fd buf := by
  simp only [step] at h
  split_ifs at h
  obtain ⟨rfl, -⟩ : _ = t ∧ _ := by simpa using h
  rfl

end Moves

/-! ### The conditions -/

/-- A connection that was made before the callback of `p` was attached and is still up. -/
def Early (p c : ℕ) (ms : List Move) (fd : ℤ) : Prop :=
  ∃ pre post, ms = pre ++ .connect c fd :: post ∧ .main (.attach .connect p c) ∉ pre ∧
    .disconnect c fd ∉ post

/-- Every message with octets has found the callback of `p` attached. -/
def AllHeard (p c : ℕ) (ms : List Move) : Prop :=
  Each (fun pre m => ∀ fd buf, m = .message c fd buf → buf ≠ [] →
    .main (.attach .msg p c) ∈ pre) ms

/-- The plug-in knows the clients of its server and has been passed all they have sent. -/
structure Serves (s : State) (p c : ℕ) : Prop where
  clients : (s.plug p).vecFd = (s.channel c).connected
  octets : ∀ fd, s.passed p fd = (s.channel c).received fd

/-! ### The order of the statements -/

variable {u : Setup} {f : Callback} {p q c : ℕ} {ms : List Move} {s t : State}

lemma attach_mem : .attach f p c ∈ u.program ↔ u.protocols[p]? = some (some c) := by
  simp only [Setup.program, List.mem_append, List.mem_map, List.mem_flatMap, Prod.exists,
    List.mem_zipIdx_iff_getElem?, reduceCtorEq, and_false, exists_false, false_or]
  constructor
  · rintro ⟨_ | c', q, hq, hmem⟩ <;> simp [initStmts] at hmem
    rcases hmem with ⟨-, rfl, rfl⟩ | ⟨-, rfl, rfl⟩ <;> exact hq
  · intro h
    exact ⟨some c, p, h, by cases f <;> simp [initStmts]⟩

/-- The plug-ins attach one after the other. -/
lemma Setup.program_sorted (u : Setup) : u.program.Pairwise fun a b =>
    ∀ f g p q c d, a = .attach f p c → b = .attach g q d → p ≤ q := by
  unfold Setup.program
  refine List.pairwise_append.mpr ⟨?_, List.pairwise_flatMap.mpr ⟨?_, ?_⟩, ?_⟩
  · refine List.pairwise_map.mpr (List.pairwise_of_forall fun a b => ?_)
    rintro _ _ _ _ _ _ ⟨⟩
  · rintro ⟨_ | c, q⟩ -
    · exact .nil
    · refine List.pairwise_pair.mpr ?_
      rintro _ _ _ _ _ _ ⟨⟩ ⟨⟩
      exact le_rfl
  · have hsorted : (u.protocols.zipIdx.map Prod.snd).Pairwise (· < ·) := by
      rw [List.zipIdx_map_snd]
      exact List.pairwise_lt_range'
    refine (List.pairwise_map.mp hsorted).imp ?_
    rintro ⟨_ | a, i⟩ ⟨_ | b, j⟩ hij x hx y hy <;> simp [initStmts] at hx hy
    rintro f g p q c d rfl rfl
    simp only [Stmt.attach.injEq] at hx hy
    have hi : p = i := by rcases hx with ⟨-, h, -⟩ | ⟨-, h, -⟩ <;> exact h
    have hj : q = j := by rcases hy with ⟨-, h, -⟩ | ⟨-, h, -⟩ <;> exact h
    rw [hi, hj]
    exact hij.le
  · rintro a ha b -
    obtain ⟨c, -, rfl⟩ := List.mem_map.mp ha
    rintro _ _ _ _ _ _ ⟨⟩

/-- The statements that have been executed. -/
def mains (ms : List Move) : List Stmt :=
  ms.filterMap fun
    | .main stmt => some stmt
    | _ => none

lemma mem_mains {stmt : Stmt} : stmt ∈ mains ms ↔ .main stmt ∈ ms := by
  simp only [mains, List.mem_filterMap]
  constructor
  · rintro ⟨_ | _ | _ | _, hm, h⟩ <;> simp at h
    rwa [h] at hm
  · intro h
    exact ⟨_, h, rfl⟩

/-- Which callbacks are those of `p`. -/
structure Attached (u : Setup) (p c : ℕ) (ms : List Move) (s : State) : Prop where
  done : u.program = mains ms ++ s.rest
  here : ∀ f, .main (.attach f p c) ∈ ms → (s.channel c).func f = some p
  alone : ∀ f d, (s.channel d).func f = some p → d = c ∧ .main (.attach f p c) ∈ ms

/-- Nobody attaches to the server after `p`. -/
lemma Attached.last {stmt : Stmt} {rest : List Stmt} (h : Attached u p c ms s)
    (hlast : ∀ q, p < q → u.protocols[q]? ≠ some (some c)) (hrest : s.rest = stmt :: rest)
    (hmem : .main (.attach f p c) ∈ ms) (hstmt : stmt = .attach f q c) : q = p := by
  have hle : p ≤ q := by
    have hsorted := u.program_sorted
    rw [h.done, hrest] at hsorted
    exact (List.pairwise_append.mp hsorted).2.2 _ (mem_mains.mpr hmem) stmt List.mem_cons_self
      f f p q c c rfl hstmt
  have hprog : .attach f q c ∈ u.program := by
    rw [h.done, hrest, hstmt]
    simp
  by_contra hne
  exact hlast q (by omega) (attach_mem.mp hprog)

/-- A move of the clients leaves the callbacks alone. -/
lemma Attached.of_func {m : Move} (h : Attached u p c ms s) (hm : ∀ stmt, m ≠ .main stmt)
    (hrest : t.rest = s.rest) (hfunc : ∀ d, (t.channel d).func = (s.channel d).func) :
    Attached u p c (ms ++ [m]) t := by
  have hmem : ∀ stmt, .main stmt ∈ ms ++ [m] ↔ .main stmt ∈ ms := by
    intro stmt
    simp [(hm stmt).symm]
  refine ⟨?_, fun f hf => ?_, fun f d hd => ?_⟩
  · have hmains : mains [m] = [] := by
      cases m with
      | main stmt => exact absurd rfl (hm stmt)
      | _ => rfl
    rw [mains, List.filterMap_append, ← mains, ← mains, hmains, List.append_nil, hrest]
    exact h.done
  · rw [hfunc]
    exact h.here f ((hmem _).mp hf)
  · rw [hmem]
    rw [hfunc] at hd
    exact h.alone f d hd

lemma Attached.step {m : Move} {o : List Unit} (h : Attached u p c ms s)
    (hp : u.protocols[p]? = some (some c))
    (hlast : ∀ q, p < q → u.protocols[q]? ≠ some (some c)) (hstep : step s m = some (t, o)) :
    Attached u p c (ms ++ [m]) t := by
  cases m with
  | main stmt =>
    obtain ⟨rest, hrest, rfl⟩ := step_main hstep
    have hdone : u.program = mains (ms ++ [.main stmt]) ++ rest := by
      rw [h.done, hrest, mains, mains, List.filterMap_append]
      simp
    refine ⟨by simpa using hdone, fun f hf => ?_, fun f d hd => ?_⟩
    · by_cases hnew : ∃ q, stmt = .attach f q c
      · obtain ⟨q, rfl⟩ := hnew
        have hq : q = p := by
          rcases List.mem_append.mp hf with hf | hf
          · exact h.last hlast hrest hf rfl
          · simpa using (List.mem_singleton.mp hf).symm
        rw [State.exec_attach, hq]
      · rw [State.exec_other (not_exists.mp hnew)]
        have hne : stmt ≠ .attach f p c := fun heq => hnew ⟨p, heq⟩
        exact h.here f (by simpa [hne.symm] using hf)
    · by_cases hnew : ∃ q, stmt = .attach f q d
      · obtain ⟨q, rfl⟩ := hnew
        rw [State.exec_attach] at hd
        obtain rfl : q = p := by simpa using hd
        have hprog : .attach f q d ∈ u.program := by
          rw [h.done, hrest]
          simp
        obtain rfl : d = c := by simpa [hp] using (attach_mem.mp hprog).symm
        simp
      · rw [State.exec_other (not_exists.mp hnew)] at hd
        exact (h.alone f d hd).imp id fun hmem => by simp [hmem]
  | connect d fd =>
    obtain ⟨-, rfl⟩ := step_connect hstep
    exact h.of_func (by simp) (by simp [State.setConnected, State.setChannel]) (by simp)
  | disconnect d fd =>
    obtain rfl := step_disconnect hstep
    exact h.of_func (by simp) (by simp [State.setConnected, State.setChannel]) (by simp)
  | message d fd buf =>
    obtain rfl := step_message hstep
    exact h.of_func (by simp) (s.receive_frame d fd buf 0).1
      fun e => (s.receive_frame d fd buf e).2.2.1

/-! ### The clients -/

lemma early_snoc {m : Move} {fd : ℤ} : Early p c (ms ++ [m]) fd ↔
    (m = .connect c fd ∧ .main (.attach .connect p c) ∉ ms) ∨
      (Early p c ms fd ∧ m ≠ .disconnect c fd) := by
  constructor
  · rintro ⟨pre, post, hms, hpre, hpost⟩
    rcases List.eq_nil_or_concat post with rfl | ⟨post, m', rfl⟩
    · obtain ⟨rfl, rfl⟩ : ms = pre ∧ m = .connect c fd := by simpa using hms
      exact .inl ⟨rfl, hpre⟩
    · obtain ⟨rfl, rfl⟩ : ms = pre ++ .connect c fd :: post ∧ m = m' := by
        have hsnoc : ms ++ [m] = (pre ++ .connect c fd :: post) ++ [m'] := by simpa using hms
        exact (List.append_inj' hsnoc rfl).imp id List.singleton_inj.mp
      refine .inr ⟨⟨pre, post, rfl, hpre, fun h => hpost (by simp [h])⟩, fun h => hpost ?_⟩
      simp [h]
  · rintro (⟨rfl, hpre⟩ | ⟨⟨pre, post, rfl, hpre, hpost⟩, hm⟩)
    · exact ⟨ms, [], rfl, hpre, by simp⟩
    · exact ⟨pre, post ++ [m], by simp, hpre, by simpa [hpost] using hm.symm⟩

/-- The clients of the server that the plug-in does not know are the early ones. -/
structure Clients (p c : ℕ) (ms : List Move) (s : State) : Prop where
  known : ∀ fd, fd ∈ (s.channel c).connected ↔ fd ∈ (s.plug p).vecFd ∨ Early p c ms fd
  apart : ∀ fd, Early p c ms fd → fd ∉ (s.plug p).vecFd
  before : .main (.attach .connect p c) ∉ ms → (s.plug p).vecFd = ∅

/-- A move that is not about the clients of `c`. -/
lemma Clients.of_eq {m : Move} (h : Clients p c ms s) (hm : ∀ fd, m ≠ .connect c fd)
    (hm' : ∀ fd, m ≠ .disconnect c fd) (hplug : (t.plug p).vecFd = (s.plug p).vecFd)
    (hconn : (t.channel c).connected = (s.channel c).connected) : Clients p c (ms ++ [m]) t := by
  have hearly : ∀ fd, Early p c (ms ++ [m]) fd ↔ Early p c ms fd := by
    intro fd
    simp [early_snoc, hm fd, hm' fd]
  refine ⟨fun fd => ?_, fun fd hfd => ?_, fun hmem => ?_⟩
  · rw [hearly, hplug, hconn]
    exact h.known fd
  · rw [hplug]
    exact h.apart fd ((hearly fd).mp hfd)
  · rw [hplug]
    exact h.before fun hold => hmem (by simp [hold])

/-- Before it has attached its callback, a plug-in is told of nobody: all clients are early. -/
lemma Clients.untold (h : Clients p c ms s) (ha : Attached u p c ms s)
    (hatt : .main (.attach .connect p c) ∉ ms) (status : ConnectStatus) (fd : ℤ) :
    ((s.tell c status fd).plug p).vecFd = ∅ ∧
      ∀ e, e ∈ (s.channel c).connected ↔ Early p c ms e := by
  have hempty := h.before hatt
  refine ⟨?_, fun e => ?_⟩
  · rw [State.tell_ne (fun hf => hatt (ha.alone _ _ hf).2), hempty]
  · simpa [hempty] using h.known e

lemma Clients.connect {fd : ℤ} (h : Clients p c ms s) (ha : Attached u p c ms s)
    (hfd : fd ∉ (s.channel c).connected) :
    Clients p c (ms ++ [.connect c fd])
      ((s.tell c .connect fd).setConnected c (insert fd (s.channel c).connected)) := by
  by_cases hatt : .main (.attach .connect p c) ∈ ms
  · have hplug := State.tell_eq (ha.here _ hatt) .connect fd
    refine ⟨fun e => ?_, fun e he => ?_, fun hmem => absurd hatt (by simpa using hmem)⟩
    · simp [early_snoc, hatt, hplug, newConnectedFunc, h.known e, or_assoc]
    · have hold : Early p c ms e := by simpa [early_snoc, hatt] using he
      have hne : e ≠ fd := fun heq => hfd ((h.known fd).mpr (.inr (heq ▸ hold)))
      simpa [hplug, newConnectedFunc, hne] using h.apart e hold
  · obtain ⟨hempty, hknown⟩ := h.untold ha hatt .connect fd
    refine ⟨fun e => ?_, fun e _ => by simp [hempty], fun _ => by simp [hempty]⟩
    simp [early_snoc, hatt, hempty, hknown, eq_comm]

lemma Clients.disconnect {fd : ℤ} (h : Clients p c ms s) (ha : Attached u p c ms s) :
    Clients p c (ms ++ [.disconnect c fd])
      ((s.tell c .disconnect fd).setConnected c ((s.channel c).connected.erase fd)) := by
  have hearly : ∀ e, Early p c (ms ++ [.disconnect c fd]) e ↔ Early p c ms e ∧ e ≠ fd := by
    intro e
    simp [early_snoc, eq_comm]
  by_cases hatt : .main (.attach .connect p c) ∈ ms
  · have hplug := State.tell_eq (ha.here _ hatt) .disconnect fd
    refine ⟨fun e => ?_, fun e he => ?_, fun hmem => absurd hatt (by simpa using hmem)⟩
    · rw [hearly]
      simp [hplug, newConnectedFunc, h.known e, and_comm, and_or_left]
    · have hold := h.apart e ((hearly e).mp he).1
      simp [hplug, newConnectedFunc, hold]
  · obtain ⟨hempty, hknown⟩ := h.untold ha hatt .disconnect fd
    refine ⟨fun e => ?_, fun e _ => by simp [hempty], fun _ => by simp [hempty]⟩
    rw [hearly]
    simp [hempty, hknown, and_comm]

lemma Clients.step {m : Move} {o : List Unit} (h : Clients p c ms s) (ha : Attached u p c ms s)
    (hstep : step s m = some (t, o)) : Clients p c (ms ++ [m]) t := by
  -- a plug-in that has its callback at `c` does not hear of the clients of another server
  have helse : ∀ d, d ≠ c → (s.channel d).func .connect ≠ some p :=
    fun d hne hf => hne (ha.alone _ _ hf).1
  cases m with
  | main stmt =>
    obtain ⟨rest, -, rfl⟩ := step_main hstep
    exact h.of_eq (by simp) (by simp) (by simp) (State.exec_clients _ stmt c).1
  | connect d fd =>
    obtain ⟨hfd, rfl⟩ := step_connect hstep
    rcases eq_or_ne d c with rfl | hne
    · exact h.connect ha hfd
    · refine h.of_eq (by simp [hne]) (by simp) ?_ ?_
      · rw [State.setConnected_plug, State.tell_ne (helse d hne)]
      · simp [State.setConnected, State.setChannel_ne hne.symm]
  | disconnect d fd =>
    obtain rfl := step_disconnect hstep
    rcases eq_or_ne d c with rfl | hne
    · exact h.disconnect ha
    · refine h.of_eq (by simp) (by simp [hne]) ?_ ?_
      · rw [State.setConnected_plug, State.tell_ne (helse d hne)]
      · simp [State.setConnected, State.setChannel_ne hne.symm]
  | message d fd buf =>
    obtain rfl := step_message hstep
    obtain ⟨-, hplug, -, hconn⟩ := s.receive_frame d fd buf c
    exact h.of_eq (by simp) (by simp) (by rw [hplug]) hconn

/-! ### The octets -/

/-- The plug-in is passed what is received on a connection, less what came too early. -/
structure Octets (p c : ℕ) (ms : List Move) (s : State) (lost : ℤ → List UInt8) : Prop where
  received : ∀ fd, (s.channel c).received fd = lost fd ++ s.passed p fd
  heard : (∀ fd, lost fd = []) ↔ AllHeard p c ms
  before : .main (.attach .msg p c) ∉ ms → ∀ fd, s.passed p fd = []

/-- A move that brings the server `c` no octets. -/
lemma Octets.of_eq {m : Move} {lost : ℤ → List UInt8} (h : Octets p c ms s lost)
    (hm : ∀ fd buf, m ≠ .message c fd buf) (hpassed : t.passed p = s.passed p)
    (hrecv : (t.channel c).received = (s.channel c).received) :
    Octets p c (ms ++ [m]) t lost := by
  refine ⟨fun fd => ?_, ?_, fun hmem => ?_⟩
  · rw [hpassed, hrecv]
    exact h.received fd
  · rw [h.heard, AllHeard, AllHeard, each_snoc]
    exact (and_iff_left fun fd buf heq => absurd heq (hm fd buf)).symm
  · rw [hpassed]
    exact h.before fun hold => hmem (by simp [hold])

lemma Octets.message {fd : ℤ} {buf : List UInt8} {lost : ℤ → List UInt8}
    (h : Octets p c ms s lost) (ha : Attached u p c ms s) :
    ∃ lost', Octets p c (ms ++ [.message c fd buf])
      ((s.handleMessage c fd buf).receive c fd buf) lost' := by
  have hheard : AllHeard p c (ms ++ [.message c fd buf]) ↔
      AllHeard p c ms ∧ (buf ≠ [] → .main (.attach .msg p c) ∈ ms) := by
    rw [AllHeard, each_snoc]
    refine and_congr_right fun _ => ⟨fun hall => hall fd buf rfl, ?_⟩
    rintro hbuf _ _ ⟨⟩
    exact hbuf
  by_cases hatt : .main (.attach .msg p c) ∈ ms
  · refine ⟨lost, fun e => ?_, ?_, fun hmem => absurd hatt (by simpa using hmem)⟩
    · rw [State.receive_received, State.receive_passed, State.handleMessage_eq (ha.here _ hatt)]
      rcases eq_or_ne e fd with rfl | hne
      · simp [h.received]
      · simp [hne, h.received]
    · rw [hheard, h.heard]
      exact (and_iff_left fun _ => hatt).symm
  · have hpassed : (s.handleMessage c fd buf).passed p = s.passed p :=
      State.handleMessage_ne (fun hf => hatt (ha.alone _ _ hf).2) _ _
    have hempty := h.before hatt
    refine ⟨Function.update lost fd (lost fd ++ buf), fun e => ?_, ?_, fun _ e => ?_⟩
    · rw [State.receive_received, State.receive_passed, hpassed, hempty]
      rcases eq_or_ne e fd with rfl | hne
      · simp [h.received, hempty]
      · simp [hne, h.received, hempty]
    · rw [hheard, ← h.heard]
      constructor
      · intro hnil
        have hfd : lost fd ++ buf = [] := by simpa using hnil fd
        obtain ⟨hold, rfl⟩ := List.append_eq_nil_iff.mp hfd
        refine ⟨fun e => ?_, fun hne => absurd rfl hne⟩
        rcases eq_or_ne e fd with rfl | hne
        · exact hold
        · simpa [hne] using hnil e
      · rintro ⟨hold, hbuf⟩ e
        obtain rfl : buf = [] := by
          by_contra hne
          exact hatt (hbuf hne)
        rcases eq_or_ne e fd with rfl | hne <;> simp [*]
    · rw [State.receive_passed, hpassed, hempty]

lemma Octets.step {m : Move} {o : List Unit} {lost : ℤ → List UInt8} (h : Octets p c ms s lost)
    (ha : Attached u p c ms s) (hstep : step s m = some (t, o)) :
    ∃ lost', Octets p c (ms ++ [m]) t lost' := by
  cases m with
  | main stmt =>
    obtain ⟨rest, -, rfl⟩ := step_main hstep
    exact ⟨lost, h.of_eq (by simp) (by simp) (State.exec_clients _ stmt c).2⟩
  | connect d fd =>
    obtain ⟨-, rfl⟩ := step_connect hstep
    exact ⟨lost, h.of_eq (by simp) (by simp) (by simp)⟩
  | disconnect d fd =>
    obtain rfl := step_disconnect hstep
    exact ⟨lost, h.of_eq (by simp) (by simp) (by simp)⟩
  | message d fd buf =>
    obtain rfl := step_message hstep
    rcases eq_or_ne d c with rfl | hne
    · exact h.message ha
    · refine ⟨lost, h.of_eq (by simp [hne]) ?_ (State.receive_ne hne.symm ..)⟩
      rw [State.receive_passed]
      exact State.handleMessage_ne (fun hf => hne (ha.alone _ _ hf).1) _ _

/-! ### The whole start -/

/-- One server and one plug-in. -/
def one : Setup := ⟨1, [some 0]⟩

end DataEngine.Listening
