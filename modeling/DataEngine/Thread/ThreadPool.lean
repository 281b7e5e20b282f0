import DataEngine.MsgQue.Concurrent

/-!
Stopping a thread pool.

The workers take tasks from a message queue. To stop them a flag is cleared, and then a null task
is sent for each worker, whatever becomes of it: the queue takes no more than its size, and no
task of a priority it does not have. A worker that has looked at the flag before may wait for
a task that nobody sends.

The pool is followed up to the call of `clean` with which `stop` ends, once all workers are done.
-/

namespace DataEngine.ThreadPool

open MsgQue MsgQue.Shared Lib.Counting Lib.Machine

/-! ### Moves inside the queue -/

variable {T σ : Type}

/-- A receiver without a permit -/
def wants : Pc T → Bool
  | .trying _ _ _ | .refused _ _ | .pending _ _ => true
  | _ => false

/-- In `pend`. -/
def pends : Pc T → Bool
  | .pending _ _ => true
  | _ => false

/-- A thread that calls nothing but `recvMessage(task)` may be there. -/
def Receives : Pc T → Prop
  | .out | .leaving => True
  | .trying timeWait wait bDeque => timeWait = 0 ∧ wait ∧ bDeque
  | .refused timeWait bDeque | .pending timeWait bDeque => timeWait = 0 ∧ bDeque
  | .pended ret bDeque => ret ∧ bDeque
  | .permitted bDeque => bDeque
  | _ => False

/-- A thread that calls nothing but `sendMessage` may be there. -/
def Sends : Pc T → Prop
  | .out | .sending _ _ | .leaving => True
  | _ => False

def isOut : Pc T → Bool
  | .out => true
  | _ => false

def isLeaving : Pc T → Bool
  | .leaving => true
  | _ => false

section Act

variable [Semaphore σ] {s s' : Shared T σ} {t : ℕ} {a : Act T} {pc : Pc T}

/-- What a thread does to the parameters and to the other threads, which is nothing. -/
structure Moved (s s' : Shared T σ) (t : ℕ) (pc' : Pc T) : Prop where
  threads : s'.threads = s.threads.set t pc'
  queSize : s'.que.queSize = s.que.queSize
  prioLevel : s'.que.prioLevel = s.que.prioLevel

lemma next_of_act (ht : s.threads[t]? = some pc) (h : s.act t a = some (.ok s')) :
    s.next t pc a = some (.ok s') := by
  unfold act at h
  rwa [ht] at h

/-- A call begins. -/
lemma act_out (ht : s.threads[t]? = some .out) (h : s.act t a = some (.ok s')) :
    Semaphore.count s'.que.semphore = Semaphore.count s.que.semphore ∧
      ((∃ timeWait wait bDeque, a = .recvMessage timeWait wait bDeque ∧
          Moved s s' t (.trying timeWait wait bDeque)) ∨
        (∃ message priority, a = .sendMessage message priority ∧
          Moved s s' t (.sending message priority)) ∨ a = .clean) := by
  have hnext := next_of_act ht h
  cases a with
  | sendMessage message priority =>
    simp only [next] at hnext
    split_ifs at hnext
    obtain rfl := Except.ok.inj (Option.some.inj hnext)
    exact ⟨rfl, .inr (.inl ⟨_, _, rfl, rfl, rfl, rfl⟩)⟩
  | recvMessage timeWait wait bDeque =>
    simp only [next] at hnext
    split_ifs at hnext
    obtain rfl := Except.ok.inj (Option.some.inj hnext)
    exact ⟨rfl, .inl ⟨_, _, _, rfl, rfl, rfl, rfl⟩⟩
  | clean =>
    simp only [next] at hnext
    split_ifs at hnext
    obtain rfl := Except.ok.inj (Option.some.inj hnext)
    exact ⟨rfl, .inr (.inr rfl)⟩
  | _ => cases hnext

/-- A receiver goes on: when it takes a permit, it wants none any more. -/
lemma act_receiver (ht : s.threads[t]? = some pc) (hpc : Receives pc) (hin : isOut pc = false)
    (h : s.act t a = some (.ok s')) : ∃ pc', Receives pc' ∧ Moved s s' t pc' ∧
      Semaphore.count s'.que.semphore + (wants pc).toNat =
        Semaphore.count s.que.semphore + (wants pc').toNat := by
  have hnext := next_of_act ht h
  cases pc with
  | out => cases hin
  | sending | cleaning => exact absurd hpc id
  | trying timeWait wait bDeque =>
    obtain ⟨rfl, rfl, rfl⟩ := hpc
    cases a with
    | tryPend =>
      simp only [next] at hnext
      rcases hs : Semaphore.tryPend s.que.semphore with _ | semphore <;> rw [hs] at hnext
      · obtain rfl := Except.ok.inj (Option.some.inj hnext)
        exact ⟨.refused 0 true, ⟨rfl, rfl⟩, ⟨rfl, rfl, rfl⟩, rfl⟩
      · obtain rfl := Except.ok.inj (Option.some.inj hnext)
        exact ⟨.permitted true, rfl, ⟨rfl, rfl, rfl⟩, (Semaphore.count_of_tryPend hs).symm⟩
    | _ => cases hnext
  | refused timeWait bDeque =>
    cases a with
    | unlock =>
      obtain rfl := Except.ok.inj (Option.some.inj hnext)
      exact ⟨.pending timeWait bDeque, hpc, ⟨rfl, rfl, rfl⟩, rfl⟩
    | _ => cases hnext
  | pending timeWait bDeque =>
    obtain ⟨rfl, rfl⟩ := hpc
    cases a with
    | pend =>
      obtain ⟨semphore, hs, hnext⟩ := Option.bind_eq_some_iff.mp hnext
      obtain rfl := Except.ok.inj (Option.some.inj hnext)
      exact ⟨.pended true true, ⟨rfl, rfl⟩, ⟨rfl, rfl, rfl⟩, (Semaphore.count_of_tryPend hs).symm⟩
    | _ => cases hnext
  | pended ret bDeque =>
    obtain ⟨rfl, rfl⟩ := hpc
    cases a with
    | lock =>
      simp only [next] at hnext
      split_ifs at hnext
      obtain rfl := Except.ok.inj (Option.some.inj hnext)
      exact ⟨.permitted true, rfl, ⟨rfl, rfl, rfl⟩, rfl⟩
    | _ => cases hnext
  | permitted bDeque =>
    obtain rfl : bDeque = true := hpc
    cases a with
    | take =>
      obtain ⟨_, -, hnext⟩ := Lib.Effect.bind_eq_ok.mp (Option.some.inj hnext)
      obtain ⟨que, hpop, hnext⟩ := Lib.Effect.bind_eq_ok.mp hnext
      obtain rfl := Except.ok.inj hnext
      have hgrown := popFront_grown hpop
      refine ⟨.leaving, trivial, ⟨rfl, hgrown.queSize, hgrown.prioLevel⟩, ?_⟩
      show Semaphore.count que.semphore + 0 = _
      rw [hgrown.semphore]
      rfl
    | _ => cases hnext
  | leaving =>
    cases a with
    | unlock =>
      obtain rfl := Except.ok.inj (Option.some.inj hnext)
      exact ⟨.out, trivial, ⟨rfl, rfl, rfl⟩, rfl⟩
    | _ => cases hnext

/-- A sender goes on: its message goes in, or the queue is full. -/
lemma act_sender (ht : s.threads[t]? = some pc) (hpc : Sends pc) (hin : isOut pc = false)
    (h : s.act t a = some (.ok s')) :
    (∃ message priority, pc = .sending message priority ∧ Moved s s' t .leaving ∧
      (Semaphore.count s'.que.semphore = Semaphore.count s.que.semphore + 1 ∨
        Semaphore.count s'.que.semphore = Semaphore.count s.que.semphore ∧
          s.que.queSize ≤ s.que.queue.length)) ∨
    pc = .leaving ∧ Moved s s' t .out ∧
      Semaphore.count s'.que.semphore = Semaphore.count s.que.semphore := by
  have hnext := next_of_act ht h
  cases pc with
  | sending message priority =>
    refine .inl ⟨message, priority, rfl, ?_⟩
    cases a with
    | insert =>
      simp only [next] at hnext
      split_ifs at hnext with hfull
      · obtain rfl := Except.ok.inj (Option.some.inj hnext)
        exact ⟨⟨rfl, rfl, rfl⟩, .inr ⟨rfl, hfull⟩⟩
      · obtain ⟨que, hpush, hnext⟩ := Lib.Effect.bind_eq_ok.mp (Option.some.inj hnext)
        obtain rfl := Except.ok.inj hnext
        have hgrown := push_grown hpush
        refine ⟨⟨rfl, hgrown.queSize, hgrown.prioLevel⟩, .inl ?_⟩
        show Semaphore.count (Semaphore.post que.semphore) = _
        rw [Semaphore.count_post, hgrown.semphore]
    | _ => cases hnext
  | leaving =>
    cases a with
    | unlock =>
      obtain rfl := Except.ok.inj (Option.some.inj hnext)
      exact .inr ⟨rfl, ⟨rfl, rfl, rfl⟩, rfl⟩
    | _ => cases hnext
  | out => cases hin
  | _ => exact absurd hpc id

end Act

/-! ### The pool -/

/-- Where a worker is in `loopTask`: before it looks at the flag, before it calls `recvMessage`,
or in it. A task is done before it looks at the flag again. -/
inductive Worker where
  | check
  | call
  | receiving
  | done
  deriving DecidableEq

/-- The workers are the first threads of the queue, the one that stops them is the next, and
behind it are those that add tasks. -/
structure Pool (T σ : Type) where
  shared : Shared (Option T) σ
  bStart : Bool
  workers : List Worker
  /-- How many calls of `sendMessage` the loop of `stop` has made, if `stop` has been called. -/
  sent : Option ℕ
  /-- The thread has found the pool started and will add its task. -/
  admitted : ℕ → Bool

inductive Move (T : Type) where
  /-- A worker looks at the flag. -/
  | check (i : ℕ)
  /-- `stop` clears the flag. -/
  | stop
  /-- `sendMessage` returns in `stop` before it takes the mutex. -/
  | refuse
  /-- A thread calls `addTask` and finds the flag set. -/
  | addTask (t : ℕ)
  /-- A thread calls a function of the queue, or goes on in it. -/
  | act (t : ℕ) (a : Act (Option T))

namespace Pool

/-- The thread of `stop` -/
def stopper (s : Pool T σ) : ℕ := s.workers.length

/-- Whether the thread may make the move: it does not call what it is not there for. -/
def mayAct (s : Pool T σ) (t : ℕ) : Act (Option T) → Bool
  | .recvMessage timeWait wait bDeque =>
    s.workers[t]? = some .call && timeWait = 0 && wait && bDeque
  | .sendMessage task priority =>
    t = s.stopper && s.sent.any (· < s.workers.length) && task.isNone && priority = 0 ||
      s.stopper < t && s.admitted t && task.isSome
  -- `stop` cleans when the workers have been joined, and nothing is left to tell then
  | .clean => false
  | _ => true

/-- Where the thread goes on after a move in the queue, out of which it may have come. -/
def goOn (s : Pool T σ) (t : ℕ) (shared : Shared (Option T) σ) : Pool T σ :=
  let returned := (shared.threads[t]?).any isOut
  { s with
    shared := shared
    workers := s.workers.set t (if returned then .check else .receiving)
    sent := if t = s.stopper ∧ returned then s.sent.map (· + 1) else s.sent
    admitted := if returned then Function.update s.admitted t false else s.admitted }

variable [Semaphore σ]

/-- A started pool, with `others` threads besides. -/
def start (threadNum others : ℕ) (taskNum prioNum : ℤ) : Pool T σ where
  shared := Shared.start (threadNum + 1 + others) taskNum prioNum
  bStart := true
  workers := List.replicate threadNum .check
  sent := none
  admitted := fun _ => false

def step (s : Pool T σ) : Move T → Option (Pool T σ × List Unit)
  | .check i =>
    match s.workers[i]? with
    | some .check =>
      some ({ s with workers := s.workers.set i (if s.bStart then .call else .done) }, [])
    | _ => none
  | .stop => if s.sent = none then some ({ s with bStart := false, sent := some 0 }, []) else none
  | .refuse =>
    if s.shared.threads[s.stopper]?.any isOut ∧ s.sent.any (· < s.workers.length) ∧
        s.shared.que.prioLevel ≤ 0 then
      some ({ s with sent := s.sent.map (· + 1) }, [])
    else none
  | .addTask t =>
    if s.bStart ∧ s.stopper < t ∧ s.shared.threads[t]?.any isOut then
      some ({ s with admitted := Function.update s.admitted t true }, [])
    else none
  | .act t a =>
    if s.mayAct t a then
      match s.shared.act t a with
      | some (.ok shared) => some (s.goOn t shared, [])
      | _ => none
    else none

/-- The loop of `stop` has finished. -/
def Stopped (s : Pool T σ) : Prop := s.sent = some s.workers.length

omit [Semaphore σ] in
/-- The workers blocked in `recvMessage` -/
def blocked (s : Pool T σ) : ℕ := s.shared.threads.countP pends

/-- The messages that are there to be taken -/
def available (s : Pool T σ) : ℕ := Semaphore.count s.shared.que.semphore

/-- The workers that will take a message or wait for one -/
def hungry (s : Pool T σ) : ℕ :=
  s.workers.countP (· = .call) + s.shared.threads.countP wants

/-! ### What a pool keeps -/

omit [Semaphore σ] in
/-- The call of `sendMessage` that `stop` is about to leave, if it is in one. -/
def leaving (s : Pool T σ) : ℕ := (s.shared.threads[s.stopper]?.any isLeaving).toNat

structure Kept (taskNum prioNum : ℤ) (s : Pool T σ) : Prop where
  counted : s.shared.Counted
  queSize : s.shared.que.queSize = taskNum
  prioLevel : s.shared.que.prioLevel = prioNum
  /-- the workers receive, and whoever is behind them sends -/
  receives : ∀ (i : ℕ) pc, i < s.stopper → s.shared.threads[i]? = some pc → Receives pc ∧
    (isOut pc = false → s.workers[i]? = some .receiving)
  sends : ∀ (t : ℕ) pc, s.stopper ≤ t → s.shared.threads[t]? = some pc → Sends pc
  idle : ∀ pc, s.sent = none → s.shared.threads[s.stopper]? = some pc → isOut pc
  sending : ∀ k pc, s.sent = some k → s.shared.threads[s.stopper]? = some pc → isOut pc = false →
    k < s.workers.length
  bStart : ∀ k, s.sent = some k → s.bStart = false
  /-- each call of `sendMessage` so far has made up for one worker -/
  hungry : ∀ k, s.sent = some k → s.hungry + k + s.leaving ≤ s.available + s.workers.length

section Kept

variable {taskNum prioNum : ℤ} {s : Pool T σ} (hs : Kept taskNum prioNum s)

include hs

/-- A worker wants a permit, or has one, or neither. -/
lemma Kept.hungry_add_le :
    s.hungry + s.shared.threads.countP Pc.holds ≤ s.workers.length := by
  have hthreads : s.shared.threads.countP wants + s.shared.threads.countP Pc.holds ≤
      s.workers.countP (· = .receiving) := by
    refine (countP_add_le (fun pc => ?_) _).trans (countP_le_of_getElem fun i pc hpc hq => ?_)
    · cases pc <;> simp [wants, Pc.holds]
    · by_cases hi : i < s.stopper
      · obtain ⟨-, hrecv⟩ := hs.receives i pc hi hpc
        refine ⟨.receiving, hrecv ?_, by simp⟩
        cases pc <;> simp_all [wants, Pc.holds, isOut]
      · have := hs.sends i pc (not_lt.mp hi) hpc
        cases pc <;> simp_all [wants, Pc.holds, Sends]
  have hother : ∀ w : Worker, decide (w = .call) → decide (w = .receiving) = false := by
    intro w hw
    cases w <;> simp_all
  calc s.hungry + s.shared.threads.countP Pc.holds
      = s.workers.countP (· = .call) +
          (s.shared.threads.countP wants + s.shared.threads.countP Pc.holds) := Nat.add_assoc _ _ _
    _ ≤ s.workers.countP (· = .call) + s.workers.countP (· = .receiving) :=
        Nat.add_le_add_left hthreads _
    _ ≤ s.workers.countP fun w => w = .call || w = .receiving := countP_add_le hother _
    _ ≤ s.workers.length := List.countP_le_length

omit hs [Semaphore σ] in
lemma returned_eq {shared : Shared (Option T) σ} {t : ℕ} {pc pc' : Pc (Option T)}
    (ht : s.shared.threads[t]? = some pc) (hm : Moved s.shared shared t pc') :
    shared.threads[t]? = some pc' := by
  rw [hm.threads]
  exact List.getElem?_set_self (List.getElem?_eq_some_iff.mp ht).1

/-- Most of it is kept by a move that takes the thread where it may be. -/
lemma Kept.goOn {shared : Shared (Option T) σ} {t : ℕ} {pc pc' : Pc (Option T)}
    (ht : s.shared.threads[t]? = some pc) (hm : Moved s.shared shared t pc')
    (hcounted : shared.Counted) (hreceives : t < s.stopper → Receives pc')
    (hsends : s.stopper ≤ t → Sends pc') (hstop : t = s.stopper → ∀ k, s.sent = some k →
      k < s.workers.length) (hidle : t = s.stopper → s.sent ≠ none)
    (hhungry : ∀ k, (s.goOn t shared).sent = some k →
      (s.goOn t shared).hungry + k + (s.goOn t shared).leaving ≤
        (s.goOn t shared).available + s.workers.length) :
    Kept taskNum prioNum (s.goOn t shared) := by
  have hself := returned_eq ht hm
  have hother {u : ℕ} (hu : u ≠ t) : shared.threads[u]? = s.shared.threads[u]? := by
    rw [hm.threads, List.getElem?_set_ne hu.symm]
  have hlen : (s.goOn t shared).workers.length = s.workers.length := List.length_set
  have hstopper : (s.goOn t shared).stopper = s.stopper := hlen
  have hsent : ∀ k, (s.goOn t shared).sent = some k → ∃ k', s.sent = some k' := by
    intro k hk
    simp only [Pool.goOn] at hk
    split_ifs at hk
    · obtain ⟨k', hk', -⟩ := Option.map_eq_some_iff.mp hk
      exact ⟨k', hk'⟩
    · exact ⟨k, hk⟩
  refine ⟨hcounted, hm.queSize.trans hs.queSize, hm.prioLevel.trans hs.prioLevel,
    fun i p hi hp => ?_, fun u p hu hp => ?_, fun p hk hp => ?_, fun k p hk hp hout => ?_,
    fun k hk => ?_, by rw [hlen]; exact hhungry⟩
  · rw [hstopper] at hi
    by_cases hit : i = t
    · subst hit
      obtain rfl : pc' = p := Option.some.inj (hself.symm.trans hp)
      refine ⟨hreceives hi, fun hout => ?_⟩
      simp only [Pool.goOn, hself, Option.any_some, hout, Bool.false_eq_true, if_false]
      exact List.getElem?_set_self hi
    · obtain ⟨hrecv, hworker⟩ := hs.receives i p hi ((hother hit).symm.trans hp)
      refine ⟨hrecv, fun hout => ?_⟩
      rw [← hworker hout]
      exact List.getElem?_set_ne (Ne.symm hit)
  · rw [hstopper] at hu
    by_cases hut : u = t
    · subst hut
      obtain rfl : pc' = p := Option.some.inj (hself.symm.trans hp)
      exact hsends hu
    · exact hs.sends u p hu ((hother hut).symm.trans hp)
  · rw [hstopper] at hp
    have hnone : s.sent = none := by
      simp only [Pool.goOn] at hk
      split_ifs at hk
      · exact Option.map_eq_none_iff.mp hk
      · exact hk
    have hne : s.stopper ≠ t := fun h => hidle h.symm hnone
    exact hs.idle p hnone ((hother hne).symm.trans hp)
  · rw [hstopper] at hp
    rw [hlen]
    by_cases hst : s.stopper = t
    · subst hst
      obtain rfl : pc' = p := Option.some.inj (hself.symm.trans hp)
      have hk' : s.sent = some k := by
        simpa [Pool.goOn, hself, hout] using hk
      exact hstop rfl k hk'
    · have hk' : s.sent = some k := by
        simpa [Pool.goOn, Ne.symm hst] using hk
      exact hs.sending k p hk' ((hother hst).symm.trans hp) hout
  · obtain ⟨k', hk'⟩ := hsent k hk
    exact hs.bStart k' hk'

section Thread

variable {shared : Shared (Option T) σ} {t : ℕ} {a : Act (Option T)} {pc pc' : Pc (Option T)}

omit hs [Semaphore σ] in
/-- Who is hungry after a move of one thread -/
lemma hungry_goOn (ht : s.shared.threads[t]? = some pc) (hm : Moved s.shared shared t pc') :
    (s.goOn t shared).hungry + (wants pc).toNat + (s.workers[t]?.any (· = .call)).toNat =
      s.hungry + (wants pc').toNat := by
  have hthreads := countP_set_add wants ht pc'
  have hworkers {w : Worker} (hw : w ≠ .call) : (s.workers.set t w).countP (· = .call) +
      (s.workers[t]?.any (· = .call)).toNat = s.workers.countP (· = .call) := by
    rcases hwt : s.workers[t]? with _ | v
    · rw [List.set_eq_of_length_le (List.getElem?_eq_none_iff.mp hwt)]
      rfl
    · have := countP_set_add (fun x : Worker => decide (x = .call)) hwt w
      simpa [hw] using this
  have hnew : (if (shared.threads[t]?).any isOut then Worker.check else .receiving) ≠ .call := by
    split_ifs <;> simp
  have := hworkers hnew
  simp only [Pool.hungry, Pool.goOn, hm.threads] at this ⊢
  omega

omit hs [Semaphore σ] in
lemma goOn_of_ne (hne : t ≠ s.stopper) (hm : Moved s.shared shared t pc') :
    (s.goOn t shared).sent = s.sent ∧ (s.goOn t shared).leaving = s.leaving := by
  have hstopper : (s.goOn t shared).stopper = s.stopper := List.length_set
  constructor
  · simp [Pool.goOn, hne]
  · rw [Pool.leaving, Pool.leaving, hstopper]
    show (shared.threads[s.stopper]?.any isLeaving).toNat = _
    rw [hm.threads, List.getElem?_set_ne hne]

/-- A worker -/
lemma Kept.worker (hlt : t < s.stopper) (hmay : s.mayAct t a)
    (hact : s.shared.act t a = some (.ok shared)) : Kept taskNum prioNum (s.goOn t shared) := by
  obtain ⟨pc, _, hacted⟩ := acted_of_act hact
  obtain ⟨hrecv, hworker⟩ := hs.receives t pc hlt hacted.here
  -- whatever the move is, no more are hungry than permits have come
  have hmoved : ∃ pc', Receives pc' ∧ Moved s.shared shared t pc' ∧
      (s.goOn t shared).hungry + s.available ≤ s.hungry + (s.goOn t shared).available := by
    rcases hout : isOut pc with _ | _
    · obtain ⟨pc', hrecv', hm, hcount⟩ := act_receiver hacted.here hrecv hout hact
      have hhungry := hungry_goOn hacted.here hm
      have havailable : (s.goOn t shared).available = Semaphore.count shared.que.semphore := rfl
      refine ⟨pc', hrecv', hm, ?_⟩
      rw [Pool.available, havailable]
      omega
    · obtain rfl : pc = .out := by
        cases pc <;> simp_all [isOut]
      obtain ⟨hcount, ⟨timeWait, wait, bDeque, rfl, hm⟩ | ⟨message, priority, rfl, -⟩ | rfl⟩ :=
        act_out hacted.here hact
      · simp only [Pool.mayAct, Bool.and_eq_true, decide_eq_true_eq] at hmay
        obtain ⟨⟨⟨hcall, rfl⟩, rfl⟩, rfl⟩ := hmay
        have hhungry := hungry_goOn hacted.here hm
        have havailable : (s.goOn t shared).available = Semaphore.count shared.que.semphore := rfl
        refine ⟨.trying 0 true true, ⟨rfl, rfl, rfl⟩, hm, ?_⟩
        rw [hcall] at hhungry
        rw [Pool.available, havailable, hcount]
        simp [wants] at hhungry
        omega
      · simp [Pool.mayAct, hlt.ne, hlt.not_gt] at hmay
      · simp [Pool.mayAct] at hmay
  obtain ⟨pc', hrecv', hm, hle⟩ := hmoved
  obtain ⟨hsent, hleaving⟩ := goOn_of_ne hlt.ne hm
  refine hs.goOn hacted.here hm (hacted.counted hs.counted) (fun _ => hrecv')
    (fun hge => absurd hlt (not_lt.mpr hge)) (fun h => absurd h hlt.ne) (fun h => absurd h hlt.ne)
    fun k hk => ?_
  have := hs.hungry k (hsent ▸ hk)
  rw [hleaving]
  omega

omit hs [Semaphore σ] in
/-- Whoever sends has no part in the hunger. -/
lemma hungry_goOn_sends (hge : s.stopper ≤ t) (ht : s.shared.threads[t]? = some pc)
    (hm : Moved s.shared shared t pc') (hpc : Sends pc) (hpc' : Sends pc') :
    (s.goOn t shared).hungry = s.hungry := by
  have hwants {p : Pc (Option T)} (hp : Sends p) : wants p = false := by
    cases p <;> first | rfl | exact absurd hp id
  have hnone : s.workers[t]? = none := List.getElem?_eq_none hge
  have h := hungry_goOn ht hm
  rw [hwants hpc, hwants hpc', hnone] at h
  simpa using h

/-- What a sender does: it begins a call, its message goes in or not, or the call ends. -/
lemma Kept.sender_cases (hge : s.stopper ≤ t) (hmay : s.mayAct t a)
    (hact : s.shared.act t a = some (.ok shared)) :
    ∃ pc pc', s.shared.threads[t]? = some pc ∧ Sends pc ∧ Sends pc' ∧ Moved s.shared shared t pc' ∧
      shared.Counted ∧
      (isOut pc ∧ isLeaving pc' = false ∧ isOut pc' = false ∧
          (s.goOn t shared).available = s.available ∧
          (t = s.stopper → s.sent.any (· < s.workers.length)) ∨
        isOut pc = false ∧ isLeaving pc = false ∧ isLeaving pc' ∧ isOut pc' = false ∧
          ((s.goOn t shared).available = s.available + 1 ∨
            (s.goOn t shared).available = s.available ∧
              taskNum ≤ s.shared.que.queue.length) ∨
        isOut pc = false ∧ isLeaving pc ∧ isLeaving pc' = false ∧ isOut pc' ∧
          (s.goOn t shared).available = s.available) := by
  obtain ⟨pc, _, hacted⟩ := acted_of_act hact
  have hsends := hs.sends t pc hge hacted.here
  have hcounted := hacted.counted hs.counted
  rcases hout : isOut pc with _ | _
  · rcases act_sender hacted.here hsends hout hact with ⟨message, priority, rfl, hm, hcount⟩ |
      ⟨rfl, hm, hcount⟩
    · rw [hs.queSize] at hcount
      exact ⟨_, .leaving, hacted.here, trivial, trivial, hm, hcounted,
        .inr (.inl ⟨rfl, rfl, rfl, rfl, hcount⟩)⟩
    · exact ⟨_, .out, hacted.here, trivial, trivial, hm, hcounted,
        .inr (.inr ⟨rfl, rfl, rfl, rfl, hcount⟩)⟩
  · obtain rfl : pc = .out := by
      cases pc <;> simp_all [isOut]
    obtain ⟨hcount, ⟨timeWait, wait, bDeque, rfl, hm⟩ | ⟨message, priority, rfl, hm⟩ | rfl⟩ :=
      act_out hacted.here hact
    · have hnone : s.workers[t]? = none := List.getElem?_eq_none hge
      simp [Pool.mayAct, hnone] at hmay
    · refine ⟨_, .sending message priority, hacted.here, trivial, trivial, hm, hcounted,
        .inl ⟨rfl, rfl, rfl, hcount, ?_⟩⟩
      rintro rfl
      simp only [Pool.mayAct, Nat.lt_irrefl, decide_true, decide_false, Bool.true_and,
        Bool.false_and, Bool.or_false, Bool.and_eq_true] at hmay
      exact hmay.1.1
    · simp [Pool.mayAct] at hmay

/-- A thread that adds a task -/
lemma Kept.other (hlt : s.stopper < t) (hmay : s.mayAct t a)
    (hact : s.shared.act t a = some (.ok shared)) : Kept taskNum prioNum (s.goOn t shared) := by
  obtain ⟨pc, pc', ht, hpc, hpc', hm, hcounted, hcases⟩ := hs.sender_cases hlt.le hmay hact
  have hhungry := hungry_goOn_sends hlt.le ht hm hpc hpc'
  have hle : s.available ≤ (s.goOn t shared).available := by
    rcases hcases with ⟨-, -, -, h, -⟩ | ⟨-, -, -, -, h | ⟨h, -⟩⟩ | ⟨-, -, -, -, h⟩ <;> omega
  obtain ⟨hsent, hleaving⟩ := goOn_of_ne hlt.ne' hm
  refine hs.goOn ht hm hcounted (fun h => absurd h hlt.not_gt) (fun _ => hpc')
    (fun h => absurd h hlt.ne') (fun h => absurd h hlt.ne') fun k hk => ?_
  have := hs.hungry k (hsent ▸ hk)
  rw [hleaving]
  omega

omit hs [Semaphore σ] in
lemma goOn_stopper (ht : s.shared.threads[s.stopper]? = some pc)
    (hm : Moved s.shared shared s.stopper pc') :
    (s.goOn s.stopper shared).sent = (if isOut pc' then s.sent.map (· + 1) else s.sent) ∧
      (s.goOn s.stopper shared).leaving = (isLeaving pc').toNat ∧
      s.leaving = (isLeaving pc).toNat := by
  have hself := returned_eq ht hm
  have hstopper : (s.goOn s.stopper shared).stopper = s.stopper := List.length_set
  refine ⟨by simp [Pool.goOn, hself], ?_, by rw [Pool.leaving, ht]; rfl⟩
  rw [Pool.leaving, hstopper]
  show (shared.threads[s.stopper]?.any isLeaving).toNat = _
  rw [hself]
  rfl

/-- The thread of `stop`, if the queue has room for a message for each worker: a message that
does not go in finds as many in the queue as there are workers. -/
lemma Kept.stopping (hroom : (s.workers.length : ℤ) ≤ taskNum) (hmay : s.mayAct s.stopper a)
    (hact : s.shared.act s.stopper a = some (.ok shared)) :
    Kept taskNum prioNum (s.goOn s.stopper shared) := by
  obtain ⟨pc, pc', ht, hpc, hpc', hm, hcounted, hcases⟩ := hs.sender_cases le_rfl hmay hact
  have hhungry := hungry_goOn_sends le_rfl ht hm hpc hpc'
  obtain ⟨hsent, hleaving, hleaving'⟩ := goOn_stopper ht hm
  have hbefore : s.sent ≠ none ∧ ∀ k, s.sent = some k → k < s.workers.length := by
    rcases hout : isOut pc with _ | _
    · refine ⟨fun hnone => ?_, fun k hk => hs.sending k pc hk ht hout⟩
      rw [hs.idle pc hnone ht] at hout
      cases hout
    · rcases hcases with ⟨-, -, -, -, hany⟩ | ⟨h, -⟩ | ⟨h, -⟩
      · obtain ⟨k, hk, hlt⟩ : ∃ k, s.sent = some k ∧ k < s.workers.length := by
          simpa [Option.any_eq_true] using hany rfl
        rw [hk]
        exact ⟨by simp, by rintro _ ⟨⟩; exact hlt⟩
      · rw [h] at hout
        cases hout
      · rw [h] at hout
        cases hout
  refine hs.goOn ht hm hcounted (fun h => absurd h (lt_irrefl _)) (fun _ => hpc')
    (fun _ => hbefore.2) (fun _ => hbefore.1) fun k hk => ?_
  rw [hhungry, hleaving]
  rcases hcases with ⟨-, hin, hout, hsame, -⟩ | ⟨-, hin, hin', hout, hcount⟩ |
    ⟨-, hin, hin', hout, hsame⟩
  · rw [hsent, hout] at hk
    have := hs.hungry k (by simpa using hk)
    rw [hin, hsame]
    simp only [Bool.toNat_false]
    omega
  · rw [hsent, hout] at hk
    have hk : s.sent = some k := by simpa using hk
    have hold := hs.hungry k hk
    have hlt := hbefore.2 k hk
    rw [hleaving', hin] at hold
    rw [hin']
    rcases hcount with hcount | ⟨hcount, hfull⟩
    · rw [hcount]
      simp only [Bool.toNat_false, Bool.toNat_true] at hold ⊢
      omega
    · have hbalance := hs.counted.balance
      have hworkers := hs.hungry_add_le
      rw [hcount]
      simp only [Pool.available, Bool.toNat_true]
      omega
  · rw [hsent, hout] at hk
    obtain ⟨k', hk', rfl⟩ := Option.map_eq_some_iff.mp (by simpa using hk)
    have hold := hs.hungry k' hk'
    rw [hleaving', hin] at hold
    rw [hin', hsame]
    simp only [Bool.toNat_false, Bool.toNat_true] at hold ⊢
    omega

end Thread

end Kept

/-! ### Runs -/

section Runs

variable {taskNum prioNum : ℤ} {s u : Pool T σ}

lemma kept_start (threadNum others : ℕ) (taskNum prioNum : ℤ) :
    Kept taskNum prioNum (start threadNum others taskNum prioNum : Pool T σ) := by
  have hout {t : ℕ} {pc : Pc (Option T)}
      (h : (List.replicate (threadNum + 1 + others) Pc.out)[t]? = some pc) : pc = .out :=
    List.eq_of_mem_replicate (List.mem_of_getElem? h)
  refine ⟨counted_start _ _ _, rfl, rfl, fun i pc _ h => ?_, fun t pc _ h => ?_, fun pc _ h => ?_,
    nofun, nofun, nofun⟩
  · obtain rfl := hout h
    exact ⟨trivial, nofun⟩
  · obtain rfl := hout h
    trivial
  · obtain rfl := hout h
    rfl

/-- A worker that looks at the flag calls `recvMessage` no more once `stop` has been called. -/
lemma Kept.check (hs : Kept taskNum prioNum s) {i : ℕ} (hi : s.workers[i]? = some .check) :
    Kept taskNum prioNum
      { s with workers := s.workers.set i (if s.bStart then .call else .done) } := by
  have hlen : (s.workers.set i (if s.bStart then Worker.call else .done)).length =
      s.workers.length := List.length_set
  refine ⟨hs.counted, hs.queSize, hs.prioLevel, fun j pc hj hpc => ?_,
    fun t pc ht hpc => hs.sends t pc (by simpa [stopper] using ht) hpc,
    fun pc hnone hpc => hs.idle pc hnone (by simpa [stopper] using hpc),
    fun k pc hk hpc hout => ?_, hs.bStart, fun k hk => ?_⟩
  · obtain ⟨hrecv, hworker⟩ := hs.receives j pc (by simpa [stopper] using hj) hpc
    refine ⟨hrecv, fun hout => ?_⟩
    have hji : i ≠ j := by
      rintro rfl
      have := (hworker hout).symm.trans hi
      cases this
    show (s.workers.set i _)[j]? = _
    rw [List.getElem?_set_ne hji, hworker hout]
  · rw [hlen]
    exact hs.sending k pc hk (by simpa [stopper] using hpc) hout
  · have hold := hs.hungry k hk
    have hcount := countP_set_add (fun w : Worker => decide (w = .call)) hi .done
    have hdone : (if s.bStart then Worker.call else .done) = .done := by
      rw [hs.bStart k hk]
      rfl
    simp only [Pool.hungry, Pool.leaving, stopper, Pool.available, hdone, List.length_set] at hold ⊢
    simp only [reduceCtorEq, decide_false, Bool.toNat_false] at hcount
    omega

/-- The loop of `stop` has not begun, and no more than all workers can be hungry. -/
lemma Kept.stop (hs : Kept taskNum prioNum s) (hnone : s.sent = none) :
    Kept taskNum prioNum { s with bStart := false, sent := some 0 } := by
  have hout {pc : Pc (Option T)} (hpc : s.shared.threads[s.stopper]? = some pc) : isOut pc :=
    hs.idle pc hnone hpc
  refine ⟨hs.counted, hs.queSize, hs.prioLevel, hs.receives, hs.sends,
    fun pc h => absurd h (by simp), fun k pc _ hpc hin => ?_, fun _ _ => rfl, fun k hk => ?_⟩
  · rw [hout hpc] at hin
    cases hin
  · obtain rfl : 0 = k := Option.some.inj hk
    have hle := hs.hungry_add_le
    have hleaving : s.leaving = 0 := by
      rw [Pool.leaving]
      rcases hpc : s.shared.threads[s.stopper]? with _ | pc
      · rfl
      · have := hout hpc
        cases pc <;> simp_all [isOut, isLeaving]
    show s.hungry + 0 + s.leaving ≤ s.available + s.workers.length
    omega

/-- One move, if the queue has the priority of a message of `stop`, and room. -/
lemma Kept.step (hs : Kept taskNum prioNum s) (hroom : (s.workers.length : ℤ) ≤ taskNum)
    (hprio : 1 ≤ prioNum) {m : Move T} {o : List Unit} (h : step s m = some (u, o)) :
    Kept taskNum prioNum u ∧ u.workers.length = s.workers.length := by
  cases m with
  | check i =>
    simp only [Pool.step] at h
    split at h
    · next hi =>
      obtain ⟨rfl, -⟩ := Prod.mk.inj (Option.some.inj h)
      exact ⟨hs.check hi, List.length_set⟩
    · cases h
  | stop =>
    simp only [Pool.step] at h
    split_ifs at h with hnone
    obtain ⟨rfl, -⟩ := Prod.mk.inj (Option.some.inj h)
    exact ⟨hs.stop hnone, rfl⟩
  | refuse =>
    simp only [Pool.step] at h
    split_ifs at h with hrefuse
    have hlevel := hrefuse.2.2
    rw [hs.prioLevel] at hlevel
    omega
  | addTask t =>
    simp only [Pool.step] at h
    split_ifs at h
    obtain ⟨rfl, -⟩ := Prod.mk.inj (Option.some.inj h)
    exact ⟨⟨hs.counted, hs.queSize, hs.prioLevel, hs.receives, hs.sends, hs.idle, hs.sending,
      hs.bStart, hs.hungry⟩, rfl⟩
  | act t a =>
    simp only [Pool.step] at h
    split_ifs at h with hmay
    split at h
    · next shared hact =>
      obtain ⟨rfl, -⟩ := Prod.mk.inj (Option.some.inj h)
      refine ⟨?_, List.length_set⟩
      rcases lt_trichotomy t s.stopper with hlt | rfl | hgt
      · exact hs.worker hlt hmay hact
      · exact hs.stopping hroom hmay hact
      · exact hs.other hgt hmay hact
    · cases h

lemma Kept.run {threadNum others : ℕ} {taskNum prioNum : ℤ} (hroom : (threadNum : ℤ) ≤ taskNum)
    (hprio : 1 ≤ prioNum) {ms : List (Move T)} {o : List Unit}
    (hrun : run Pool.step (start threadNum others taskNum prioNum : Pool T σ) ms = some (s, o)) :
    Kept taskNum prioNum s ∧ s.workers.length = threadNum := by
  refine run_inv (C := fun _ _ => True)
    (I := fun _ s _ => Kept taskNum prioNum s ∧ s.workers.length = threadNum)
    ⟨kept_start threadNum others taskNum prioNum, List.length_replicate⟩ ?_ hrun (along_true _ _)
  intro _ s _ m u _ ⟨hs, hlen⟩ _ hstep
  obtain ⟨hu, hlen'⟩ := hs.step (by rw [hlen]; exact hroom) hprio hstep
  exact ⟨hu, hlen'.trans hlen⟩

/-- Enough has come in by then. -/
lemma Kept.woken (hs : Kept taskNum prioNum s) (hstopped : s.Stopped) :
    s.hungry ≤ s.available := by
  have := hs.hungry _ hstopped
  omega

omit [Semaphore σ] in
lemma blocked_le_hungry (s : Pool T σ) : s.blocked ≤ s.hungry := by
  refine le_trans (List.countP_mono_left fun pc _ hpc => ?_) (Nat.le_add_left _ _)
  cases pc <;> simp_all [pends, wants]

end Runs

/-! ### All workers asleep -/

section Asleep

variable {taskNum prioNum : ℤ} {s : Pool T σ}

lemma step_act {t : ℕ} {a : Act (Option T)} {shared : Shared (Option T) σ} (hmay : s.mayAct t a)
    (hact : s.shared.act t a = some (.ok shared)) :
    Pool.step s (.act t a) = some (s.goOn t shared, []) := by
  simp only [Pool.step, hmay, if_true, hact]

omit [Semaphore σ] in
/-- A thread that stays in the queue -/
lemma goOn_inside {t : ℕ} {shared : Shared (Option T) σ} {pc : Pc (Option T)}
    (ht : shared.threads[t]? = some pc) (hin : isOut pc = false) :
    s.goOn t shared = { s with shared := shared, workers := s.workers.set t .receiving } := by
  simp [goOn, ht, hin]

/-- A worker looks at the flag, finds no message and waits. -/
lemma doze {i : ℕ} (hworker : s.workers[i]? = some .check)
    (hthread : s.shared.threads[i]? = some .out) (hstart : s.bStart)
    (hmutex : s.shared.mutex = none)
    (hempty : Semaphore.tryPend s.shared.que.semphore = none) :
    Leads Pool.step (fun _ => True) s fun u _ => u = { s with
      shared := { s.shared with threads := s.shared.threads.set i (.pending 0 true) }
      workers := s.workers.set i .receiving } := by
  have hi : i < s.workers.length := (List.getElem?_eq_some_iff.mp hworker).1
  have hi' : i < s.shared.threads.length := (List.getElem?_eq_some_iff.mp hthread).1
  have hself {pc : Pc (Option T)} : (s.shared.threads.set i pc)[i]? = some pc :=
    List.getElem?_set_self hi'
  set called : Pool T σ := { s with workers := s.workers.set i .call } with hcalled
  set trying : Pool T σ := { s with
    shared := s.shared.enter i (.trying 0 true true)
    workers := s.workers.set i .receiving } with htrying
  set refused : Pool T σ := { s with
    shared := s.shared.enter i (.refused 0 true)
    workers := s.workers.set i .receiving } with hrefused
  have hcheck : Pool.step s (.check i) = some (called, []) := by
    simp [Pool.step, hworker, hstart, hcalled]
  have hcall : Pool.step called (.act i (.recvMessage 0 true true)) = some (trying, []) := by
    have hact : called.shared.act i (.recvMessage 0 true true) =
        some (.ok (s.shared.enter i (.trying 0 true true))) := by
      simp [act, hcalled, hthread, next, hmutex]
    rw [step_act (by simp [mayAct, hcalled, hi]) hact, goOn_inside hself rfl]
    simp [hcalled, htrying]
  have htry : Pool.step trying (.act i .tryPend) = some (refused, []) := by
    have hact : trying.shared.act i .tryPend =
        some (.ok (s.shared.enter i (.refused 0 true))) := by
      simp [act, htrying, enter, goto, next, hi', hempty]
    rw [step_act rfl hact, goOn_inside hself rfl]
    simp [htrying, hrefused]
  have hunlock : Pool.step refused (.act i .unlock) = some ({ s with
      shared := { s.shared with threads := s.shared.threads.set i (.pending 0 true) }
      workers := s.workers.set i .receiving }, []) := by
    have hact : refused.shared.act i .unlock =
        some (.ok { s.shared with threads := s.shared.threads.set i (.pending 0 true) }) := by
      simp [act, hrefused, enter, leave, next, hi', hmutex]
    rw [step_act rfl hact, goOn_inside hself rfl]
    simp [hrefused]
  exact .move hcheck trivial (.move hcall trivial (.move htry trivial (.move hunlock trivial
    (.here rfl))))

/-- The first `i` workers wait for a message, and `m` are yet to look at the flag. -/
structure Dozing (taskNum prioNum : ℤ) (i m : ℕ) (s : Pool T σ) : Prop where
  threads : s.shared.threads =
    List.replicate i (.pending 0 true) ++ (List.replicate m .out ++ [.out])
  workers : s.workers = List.replicate i .receiving ++ (List.replicate m .check ++ [])
  bStart : s.bStart
  sent : s.sent = none
  mutex : s.shared.mutex = none
  que : s.shared.que = TMsgQue.init.setParam taskNum prioNum

lemma dozing_start (threadNum : ℕ) (taskNum prioNum : ℤ) :
    Dozing taskNum prioNum 0 threadNum (start threadNum 0 taskNum prioNum : Pool T σ) :=
  ⟨List.replicate_succ', (List.append_nil _).symm, rfl, rfl, rfl, rfl⟩

/-- One after the other, all come to wait. -/
lemma Dozing.leads {i m : ℕ} (h : Dozing taskNum prioNum i m s) :
    Leads Pool.step (fun _ => True) s fun u _ => Dozing taskNum prioNum (i + m) 0 u := by
  induction m generalizing i s with
  | zero => exact .here h
  | succ m ih =>
    have hworker : s.workers[i]? = some .check := by
      rw [h.workers, List.getElem?_append_right (by simp)]
      simp
    have hthread : s.shared.threads[i]? = some .out := by
      rw [h.threads, List.getElem?_append_right (by simp)]
      simp
    have hempty : Semaphore.tryPend s.shared.que.semphore = none := by
      rw [h.que]
      exact Semaphore.tryPend_eq_none.mpr Semaphore.count_create
    have hdozing : Dozing taskNum prioNum (i + 1) m { s with
        shared := { s.shared with threads := s.shared.threads.set i (.pending 0 true) }
        workers := s.workers.set i .receiving } := by
      refine ⟨?_, ?_, h.bStart, h.sent, h.mutex, h.que⟩
      · show s.shared.threads.set i _ = _
        rw [h.threads, set_append_replicate]
      · show s.workers.set i _ = _
        rw [h.workers, set_append_replicate]
    refine (doze hworker hthread h.bStart h.mutex hempty).then fun u _ hu => ?_
    subst hu
    rw [show i + (m + 1) = i + 1 + m by omega]
    exact ih hdozing

/-! ### Sending while all are asleep -/

/-- All workers wait, and `k` calls of `sendMessage` have been made. -/
structure Sending (taskNum prioNum : ℤ) (threadNum k : ℕ) (s : Pool T σ) : Prop where
  threads : s.shared.threads = List.replicate threadNum (.pending 0 true) ++ [.out]
  workers : s.workers = List.replicate threadNum .receiving
  sent : s.sent = some k
  mutex : s.shared.mutex = none
  queSize : s.shared.que.queSize = taskNum
  prioLevel : s.shared.que.prioLevel = prioNum
  /-- no more messages than the queue has room for, and none without a priority -/
  stored : ∃ a, Stores s.shared.que a ∧ (a.stored.length : ℤ) ≤ taskNum ∧
    (prioNum ≤ 0 → a.stored = [])

/-- The flag is cleared. -/
lemma Dozing.stop {threadNum : ℕ} (htask : 0 ≤ taskNum) (h : Dozing taskNum prioNum threadNum 0 s) :
    Leads Pool.step (fun _ => True) s fun u _ => Sending taskNum prioNum threadNum 0 u := by
  have hstep : Pool.step s .stop = some ({ s with bStart := false, sent := some 0 }, []) := by
    simp [Pool.step, h.sent]
  refine .move hstep trivial (.here ⟨h.threads, ?_, rfl, h.mutex, ?_, ?_, PrioQueue.empty, ?_,
    htask, fun _ => rfl⟩)
  · simpa using h.workers
  · show s.shared.que.queSize = _
    rw [h.que]
    rfl
  · show s.shared.que.prioLevel = _
    rw [h.que]
    rfl
  · show Stores s.shared.que _
    rw [h.que]
    exact setParam_stores taskNum prioNum

section Sending

variable {threadNum k : ℕ} (h : Sending taskNum prioNum threadNum k s)

include h

lemma Sending.stopper_eq : s.stopper = threadNum := by
  rw [stopper, h.workers, List.length_replicate]

lemma Sending.thread : s.shared.threads[threadNum]? = some .out := by
  rw [h.threads, List.getElem?_append_right (by simp)]
  simp

/-- Without a priority there is no message. -/
lemma Sending.refuse (hk : k < threadNum) (hprio : prioNum ≤ 0) :
    Leads Pool.step (fun _ => True) s fun u _ => Sending taskNum prioNum threadNum (k + 1) u := by
  have hstep : Pool.step s .refuse = some ({ s with sent := some (k + 1) }, []) := by
    simp [Pool.step, h.stopper_eq, h.thread, h.sent, h.workers, hk, h.prioLevel, hprio, isOut]
  exact .move hstep trivial (.here ⟨h.threads, h.workers, rfl, h.mutex, h.queSize, h.prioLevel,
    h.stored⟩)

omit h in
/-- The move of a sender does to the queue what its call does alone. -/
lemma act_insert {s : Shared T σ} {t : ℕ} {message : T} {priority : ℤ} {b : Bool}
    {que : TMsgQue T σ} (ht : s.threads[t]? = some (.sending message priority))
    (hprio : 0 ≤ priority ∧ priority < s.que.prioLevel)
    (hsend : s.que.sendMessage message priority = .ok (b, que)) :
    s.act t .insert = some (.ok ({ s with que := que }.goto t .leaving)) := by
  unfold act
  rw [ht]
  rw [TMsgQue.sendMessage, if_neg (by omega)] at hsend
  simp only [Option.bind_eq_bind, Option.bind_some, next]
  split_ifs at hsend ⊢ with hfull
  · obtain ⟨-, rfl⟩ := Prod.mk.inj (Except.ok.inj hsend)
    rfl
  · obtain ⟨que', hpush, hsend⟩ := Lib.Effect.bind_eq_ok.mp hsend
    obtain ⟨-, rfl⟩ := Prod.mk.inj (Except.ok.inj hsend)
    rw [hpush]
    rfl

/-- A call of `sendMessage` that takes the mutex, whatever it returns -/
lemma Sending.send (hk : k < threadNum) (hprio : 1 ≤ prioNum) :
    Leads Pool.step (fun _ => True) s fun u _ => Sending taskNum prioNum threadNum (k + 1) u := by
  obtain ⟨a, hstores, hroom, hnone⟩ := h.stored
  obtain ⟨que, hsend, hque, hparam⟩ := sendMessage_stores hstores none 0
  obtain ⟨hlen, hget⟩ := List.getElem?_eq_some_iff.mp h.thread
  have hset (w : Worker) : s.workers.set threadNum w = s.workers :=
    List.set_eq_of_length_le (by rw [h.workers, List.length_replicate])
  have hself {pc : Pc (Option T)} : (s.shared.threads.set threadNum pc)[threadNum]? = some pc :=
    List.getElem?_set_self hlen
  have hlevel : 0 < s.shared.que.prioLevel := by
    rw [h.prioLevel]
    omega
  set sending : Pool T σ := { s with
    shared := s.shared.enter threadNum (.sending none 0) } with hsending
  set sent : Pool T σ := { s with
    shared := { s.shared.enter threadNum .leaving with que := que } } with hsent
  have hcall : Pool.step s (.act threadNum (.sendMessage none 0)) = some (sending, []) := by
    have hact : s.shared.act threadNum (.sendMessage none 0) =
        some (.ok (s.shared.enter threadNum (.sending none 0))) := by
      simp [act, h.thread, next, h.mutex, hlevel]
    have hmay : s.mayAct threadNum (.sendMessage none 0) := by
      simp [mayAct, h.stopper_eq, h.sent, h.workers, hk]
    rw [step_act hmay hact, goOn_inside hself rfl, hset]
  have hinsert : Pool.step sending (.act threadNum .insert) = some (sent, []) := by
    have hact : sending.shared.act threadNum .insert =
        some (.ok { s.shared.enter threadNum .leaving with que := que }) := by
      have hacted := act_insert (s := sending.shared) hself ⟨le_rfl, hlevel⟩ hsend
      rw [hacted]
      simp [hsending, enter, goto]
    rw [step_act rfl hact, goOn_inside hself rfl]
    simp [hsending, hsent, hset]
  have hunlock : ∃ u, Pool.step sent (.act threadNum .unlock) = some (u, []) ∧
      Sending taskNum prioNum threadNum (k + 1) u := by
    have hact : sent.shared.act threadNum .unlock = some (.ok { s.shared with que := que }) := by
      have hback : s.shared.threads.set threadNum .out = s.shared.threads := by
        rw [← hget, List.set_getElem_self]
      simp [act, hsent, enter, leave, hlen, next, hback, h.mutex]
    have hsent' : sent.sent = some k := h.sent
    have hstopper : sent.stopper = threadNum := h.stopper_eq
    refine ⟨_, step_act rfl hact, h.threads, ?_, ?_, h.mutex, ?_, ?_, ?_⟩
    · exact (hset _).trans h.workers
    · simp [goOn, h.thread, isOut, hsent', hstopper]
    · exact hparam.queSize.trans h.queSize
    · exact hparam.prioLevel.trans h.prioLevel
    · refine ⟨_, hque, ?_, fun h0 => absurd h0 (by omega)⟩
      split_ifs with htakes
      · have hroom' := htakes.2.2
        rw [hstores.queue, h.queSize, List.length_map] at hroom'
        show ((Lib.PriorityList.place _ a.stored).length : ℤ) ≤ taskNum
        rw [Lib.PriorityList.length_place]
        push_cast
        omega
      · exact hroom
  obtain ⟨u, hunlock, hu⟩ := hunlock
  exact .move hcall trivial (.move hinsert trivial (.move hunlock trivial (.here hu)))

/-- The loop of `stop` makes its calls. -/
lemma Sending.leads (hk : k ≤ threadNum) :
    Leads Pool.step (fun _ => True) s fun u _ => Sending taskNum prioNum threadNum threadNum u := by
  obtain ⟨m, rfl⟩ := Nat.exists_eq_add_of_le hk
  induction m generalizing k s with
  | zero => exact .here h
  | succ m ih =>
    have hnext : Leads Pool.step (fun _ => True) s fun u _ =>
        Sending taskNum prioNum (k + (m + 1)) (k + 1) u := by
      rcases lt_or_ge 0 prioNum with hprio | hprio
      · exact h.send (by omega) hprio
      · exact h.refuse (by omega) hprio
    refine hnext.then fun u _ hu => ?_
    rw [show k + (m + 1) = k + 1 + m by omega] at hu ⊢
    exact ih hu (by omega)

/-- All workers are blocked, and there is a message for each only if the queue takes as many. -/
lemma Sending.room (hthread : 1 ≤ threadNum) (hwoken : s.blocked ≤ s.available) :
    (threadNum : ℤ) ≤ taskNum ∧ 1 ≤ prioNum := by
  obtain ⟨a, hstores, hroom, hnone⟩ := h.stored
  have hblocked : s.blocked = threadNum := by
    rw [blocked, h.threads, List.countP_append, List.countP_replicate]
    simp [pends]
  rw [hblocked, available, hstores.count] at hwoken
  refine ⟨by omega, ?_⟩
  by_contra hprio
  rw [hnone (by omega), List.length_nil] at hwoken
  omega

end Sending

end Asleep

/-- **Stopping wakes every worker** exactly if the queue has room for a message for each of them,
and a priority for it: then whatever the workers and the threads that add tasks do, there are
messages for all that are blocked once the loop of `stop` has finished. Otherwise all may
be asleep when `stop` is called, and what does not go in is lost. -/
theorem stop_wakes_iff {threadNum : ℕ} {taskNum prioNum : ℤ} (hthread : 1 ≤ threadNum)
    (htask : 1 ≤ taskNum) :
    (∀ (others : ℕ) (ms : List (Move T)) (s : Pool T σ) (o : List Unit),
        run step (start threadNum others taskNum prioNum) ms = some (s, o) → s.Stopped →
        s.blocked ≤ s.available) ↔
      (threadNum : ℤ) ≤ taskNum ∧ 1 ≤ prioNum := by
  constructor
  · intro hwakes
    have hdozing : Leads step (fun _ => True) (start threadNum 0 taskNum prioNum : Pool T σ)
        fun u _ => Dozing taskNum prioNum threadNum 0 u := by
      simpa using (dozing_start threadNum taskNum prioNum).leads
    have hstop : Leads step (fun _ => True) (start threadNum 0 taskNum prioNum : Pool T σ)
        fun u _ => Sending taskNum prioNum threadNum 0 u :=
      hdozing.then fun _ _ hu => hu.stop (by omega)
    have hsent : Leads step (fun _ => True) (start threadNum 0 taskNum prioNum : Pool T σ)
        fun u _ => Sending taskNum prioNum threadNum threadNum u :=
      hstop.then fun _ _ hu => hu.leads (by omega)
    obtain ⟨ms, s, o, -, hrun, hs⟩ := hsent
    have hstopped : s.Stopped := by
      rw [Stopped, hs.sent, hs.workers, List.length_replicate]
    exact hs.room hthread (hwakes 0 ms s o hrun hstopped)
  · rintro ⟨hroom, hlevel⟩ others ms s o hrun hstopped
    obtain ⟨hkept, -⟩ := Kept.run hroom hlevel hrun
    calc s.blocked ≤ s.hungry := blocked_le_hungry s
      _ ≤ s.available := hkept.woken hstopped

/-- What `loopTask` does until it waits -/
def sleeping (i : ℕ) : List (Move Unit) :=
  [.check i, .act i (.recvMessage 0 true true), .act i .tryPend, .act i .unlock]

/-- One round of the loop of `stop`, in the thread behind the workers -/
def sending (threadNum : ℕ) : List (Move Unit) :=
  [.act threadNum (.sendMessage none 0), .act threadNum .insert, .act threadNum .unlock]

/-- A pool with the default sizes: its one worker is woken. -/
theorem one_worker_woken :
    ∃ (s : Pool Unit ℕ) (o : List Unit), run step (start 1 0 16 1)
      (sleeping 0 ++ .stop :: sending 1) = some (s, o) ∧ s.blocked = 1 ∧ s.blocked ≤ s.available :=
  ⟨_, _, rfl, rfl, (stop_wakes_iff le_rfl (by decide : (1 : ℤ) ≤ 16)).mpr
    ⟨by decide, le_rfl⟩ 0 (sleeping 0 ++ .stop :: sending 1) _ _ rfl rfl⟩

/-- Two workers wait, and the queue has room for one message: the second one that `stop` sends
is lost, and one worker waits for ever. -/
theorem second_worker_asleep :
    ∃ (s : Pool Unit ℕ) (o : List Unit), run step (start 2 0 1 1)
      (sleeping 0 ++ sleeping 1 ++ .stop :: (sending 2 ++ sending 2)) = some (s, o) ∧
      s.Stopped ∧ s.blocked = 2 ∧ s.available = 1 :=
  ⟨_, _, rfl, rfl, rfl, rfl⟩

end Pool

end DataEngine.ThreadPool
