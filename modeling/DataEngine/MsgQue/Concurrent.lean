import DataEngine.MsgQue.MsgQue
import DataEngine.Lib.Counting
import DataEngine.Lib.Machine

/-!
The message queue between any number of threads that send, receive and clean.

A move is one operation on the mutex or on the semaphore. What a thread does to the list before
or after it, with the mutex held, belongs to the move. A receiver that finds nothing gives the
mutex back while it waits, so permits and messages are taken at different moments; a wait with a
limit may time out at any moment.
-/

namespace DataEngine.MsgQue

open Lib.Counting Lib.Machine Lib.PriorityList

/-- Where a thread is in `sendMessage`, `recvMessage` or `clean`. -/
inductive Pc (T : Type) where
  | out
  /-- `sendMessage` with the mutex -/
  | sending (message : T) (priority : ℤ)
  /-- `recvMessage` with the mutex, before `tryPend` -/
  | trying (timeWait : ℤ) (wait bDeque : Bool)
  /-- after a `tryPend` that failed, still with the mutex -/
  | refused (timeWait : ℤ) (bDeque : Bool)
  /-- in `pend` or `pendFor` -/
  | pending (timeWait : ℤ) (bDeque : Bool)
  /-- after `pend` or `pendFor`, without the mutex -/
  | pended (ret bDeque : Bool)
  /-- with a permit and the mutex -/
  | permitted (bDeque : Bool)
  /-- in the loop of `clean` -/
  | cleaning
  /-- before the last unlock -/
  | leaving

inductive Act (T : Type) where
  | sendMessage (message : T) (priority : ℤ)
  | insert
  | recvMessage (timeWait : ℤ) (wait bDeque : Bool)
  | tryPend
  | unlock
  | pend
  | timeOut
  | lock
  | take
  | clean
  | popBack

structure Shared (T σ : Type) where
  que : TMsgQue T σ
  /-- the thread that holds the mutex -/
  mutex : Option ℕ
  threads : List (Pc T)

variable {T σ : Type}

/-- The thread holds the mutex. -/
def Pc.inside : Pc T → Bool
  | .out | .pending _ _ | .pended _ _ => false
  | _ => true

/-- A receiver that has taken a permit and not yet popped or given it back. -/
def Pc.holds : Pc T → Bool
  | .pended ret _ => ret
  | .permitted _ => true
  | _ => false

namespace Shared

/-- Thread `t` goes on at `pc`. -/
def goto (s : Shared T σ) (t : ℕ) (pc : Pc T) : Shared T σ :=
  { s with threads := s.threads.set t pc }

/-- Thread `t` takes the mutex. -/
def enter (s : Shared T σ) (t : ℕ) (pc : Pc T) : Shared T σ :=
  { s with mutex := some t, threads := s.threads.set t pc }

/-- Thread `t` gives the mutex back. -/
def leave (s : Shared T σ) (t : ℕ) (pc : Pc T) : Shared T σ :=
  { s with mutex := none, threads := s.threads.set t pc }

variable [Semaphore σ]

def start (n : ℕ) (queueSize priLevel : ℤ) : Shared T σ :=
  ⟨TMsgQue.init.setParam queueSize priLevel, none, List.replicate n .out⟩

def setSem (s : Shared T σ) (semphore : σ) : Shared T σ :=
  { s with que := { s.que with semphore := semphore } }

/-- What thread `t` does at `pc`. -/
def next (s : Shared T σ) (t : ℕ) : Pc T → Act T → Option (Except Fault (Shared T σ))
  | .out, .sendMessage message priority =>
    if s.mutex = none ∧ 0 ≤ priority ∧ priority < s.que.prioLevel then
      some (.ok (s.enter t (.sending message priority)))
    else none
  | .sending message priority, .insert =>
    if s.que.queSize ≤ s.que.queue.length then some (.ok (s.goto t .leaving))
    else some do
      let que ← s.que.push message priority.toNat
      .ok (({ s with que := que }.setSem (Semaphore.post que.semphore)).goto t .leaving)
  | .out, .recvMessage timeWait wait bDeque =>
    if s.mutex = none ∧ 0 ≤ timeWait then some (.ok (s.enter t (.trying timeWait wait bDeque)))
    else none
  | .trying timeWait wait bDeque, .tryPend =>
    match Semaphore.tryPend s.que.semphore with
    | some semphore => some (.ok ((s.setSem semphore).goto t (.permitted bDeque)))
    | none => some (.ok (s.goto t (if wait then .refused timeWait bDeque else .leaving)))
  | .refused timeWait bDeque, .unlock => some (.ok (s.leave t (.pending timeWait bDeque)))
  | .pending _ bDeque, .pend => do
    let semphore ← Semaphore.tryPend s.que.semphore
    some (.ok ((s.setSem semphore).goto t (.pended true bDeque)))
  | .pending timeWait bDeque, .timeOut =>
    if timeWait = 0 then none else some (.ok (s.goto t (.pended false bDeque)))
  | .pended ret bDeque, .lock =>
    if s.mutex = none then some (.ok (s.enter t (if ret then .permitted bDeque else .leaving)))
    else none
  | .permitted bDeque, .take => some do
    let _ ← s.que.front
    if bDeque then
      let que ← s.que.popFront
      .ok ({ s with que := que }.goto t .leaving)
    else .ok ((s.setSem (Semaphore.post s.que.semphore)).goto t .leaving)
  | .out, .clean => if s.mutex = none then some (.ok (s.enter t .cleaning)) else none
  | .cleaning, .popBack =>
    if s.que.queue = [] then some (.ok (s.goto t .leaving))
    else
      match Semaphore.tryPend s.que.semphore with
      | some semphore =>
        let s := s.setSem semphore
        some (.ok { s with que := { s.que with queue := s.que.queue.dropLast } })
      | none => some (.ok (s.goto t .leaving))
  | .leaving, .unlock => some (.ok (s.leave t .out))
  | _, _ => none

/-- `none` if the move is not possible now. A call that returns before it takes the mutex makes
no move. -/
def act (s : Shared T σ) (t : ℕ) (a : Act T) : Option (Except Fault (Shared T σ)) := do
  s.next t (← s.threads[t]?) a

/-- A run ends where a move faults. -/
def step (s : Shared T σ) (m : ℕ × Act T) : Option (Shared T σ × List Unit) :=
  match s.act m.1 m.2 with
  | some (.ok s') => some (s', [])
  | _ => none

end Shared

/-! ### The list -/

lemma length_insertAt {iter : QueIter} {node : Node T} {queue queue' : List (Node T)}
    (h : insertAt iter node queue = .ok queue') : queue'.length = queue.length + 1 := by
  cases iter with
  | none =>
    obtain rfl := Except.ok.inj h
    simp
  | some a =>
    unfold insertAt at h
    simp only at h
    split_ifs at h
    obtain rfl := Except.ok.inj h
    have hsplit := congrArg List.length
      (List.takeWhile_append_dropWhile (p := fun n : Node T => n.addr ≠ a) (l := queue))
    rw [List.length_append] at hsplit
    rw [List.length_append, List.length_cons]
    omega

lemma length_repair (old new : QueIter) (iters : List QueIter) :
    (repair old new iters).length = iters.length := by
  induction iters with
  | nil => rfl
  | cons iter iters ih =>
    unfold repair
    split_ifs
    · rw [List.length_cons, List.length_cons, ih]
    · rfl

/-- How an operation changes the sizes of a queue. -/
structure Grown (q q' : TMsgQue T σ) (n m : ℕ) : Prop extends Keeps q q' where
  queue : q'.queue.length + n = q.queue.length + m
  prioIter : q'.prioIter.length = q.prioIter.length

lemma push_grown {q q' : TMsgQue T σ} {message : T} {p : ℕ} (h : q.push message p = .ok q') :
    Grown q q' 0 1 := by
  unfold TMsgQue.push at h
  rcases hiter : q.prioIter[p]? with _ | iter
  · simp [hiter] at h
  rw [hiter] at h
  obtain ⟨queue, hinsert, h⟩ := Lib.Effect.bind_eq_ok.mp h
  obtain rfl := Except.ok.inj h
  have hp : p < q.prioIter.length := (List.getElem?_eq_some_iff.mp hiter).1
  refine ⟨⟨rfl, rfl, rfl⟩, length_insertAt hinsert, ?_⟩
  rw [List.length_append, length_repair, List.length_take, List.length_drop]
  omega

lemma popFront_grown {q q' : TMsgQue T σ} (h : q.popFront = .ok q') : Grown q q' 1 0 := by
  unfold TMsgQue.popFront at h
  split at h
  · exact absurd h (by simp)
  · next hq =>
    obtain rfl := Except.ok.inj h
    refine ⟨⟨rfl, rfl, rfl⟩, by rw [hq]; rfl, ?_⟩
    rw [List.length_reverse, length_repair, List.length_reverse]

/-! ### One move -/

namespace Shared

variable [Semaphore σ]

/-- A move of thread `t` from `pc` to `pc'`: permits and messages change together. -/
structure Acted (s s' : Shared T σ) (t : ℕ) (pc pc' : Pc T) : Prop where
  here : s.threads[t]? = some pc
  threads : s'.threads = s.threads.set t pc'
  balance : Semaphore.count s'.que.semphore + pc'.holds.toNat + s.que.queue.length =
    Semaphore.count s.que.semphore + pc.holds.toNat + s'.que.queue.length
  prioIter : s'.que.prioIter.length = s.que.prioIter.length
  prioLevel : s'.que.prioLevel = s.que.prioLevel
  priority : ∀ message priority, pc' = .sending message priority →
    0 ≤ priority ∧ priority < s.que.prioLevel
  mutex : s'.mutex = s.mutex ∧ pc'.inside = pc.inside ∨
    s.mutex = none ∧ s'.mutex = some t ∧ pc'.inside ∨
    pc.inside ∧ s'.mutex = none ∧ pc'.inside = false

section Acted

variable {s s' : Shared T σ} {t : ℕ} {a : Act T} {pc pc' : Pc T}

/-- A move that touches neither the queue nor the mutex. -/
lemma Acted.goto (ht : s.threads[t]? = some pc) (hholds : pc'.holds = pc.holds)
    (hinside : pc'.inside = pc.inside) (hsending : ∀ message priority,
      pc' ≠ .sending message priority) : Acted s (s.goto t pc') t pc pc' where
  here := ht
  threads := rfl
  balance := by rw [hholds]; rfl
  prioIter := rfl
  prioLevel := rfl
  priority message priority h := absurd h (hsending message priority)
  mutex := .inl ⟨rfl, hinside⟩

lemma Acted.enter (ht : s.threads[t]? = some pc) (hfree : s.mutex = none)
    (hholds : pc'.holds = pc.holds) (hinside : pc'.inside) (hpriority : ∀ message priority,
      pc' = .sending message priority → 0 ≤ priority ∧ priority < s.que.prioLevel) :
    Acted s (s.enter t pc') t pc pc' where
  here := ht
  threads := rfl
  balance := by rw [hholds]; rfl
  prioIter := rfl
  prioLevel := rfl
  priority := hpriority
  mutex := .inr (.inl ⟨hfree, rfl, hinside⟩)

lemma Acted.leave (ht : s.threads[t]? = some pc) (hinside : pc.inside)
    (hholds : pc'.holds = pc.holds) (hinside' : pc'.inside = false) :
    Acted s (s.leave t pc') t pc pc' where
  here := ht
  threads := rfl
  balance := by rw [hholds]; rfl
  prioIter := rfl
  prioLevel := rfl
  priority message priority h := by rw [h] at hinside'; cases hinside'
  mutex := .inr (.inr ⟨hinside, rfl, hinside'⟩)

/-- A receiver takes a permit. -/
lemma Acted.permit {semphore : σ} (ht : s.threads[t]? = some pc)
    (hsem : Semaphore.tryPend s.que.semphore = some semphore) (hholds : pc.holds = false)
    (hholds' : pc'.holds = true) (hinside : pc'.inside = pc.inside) :
    Acted s ((s.setSem semphore).goto t pc') t pc pc' where
  here := ht
  threads := rfl
  balance := by
    have hcount := Semaphore.count_of_tryPend hsem
    rw [hholds, hholds', hcount]
    rfl
  prioIter := rfl
  prioLevel := rfl
  priority message priority h := by rw [h] at hholds'; cases hholds'
  mutex := .inl ⟨rfl, hinside⟩

lemma acted_sending {message : T} {priority : ℤ}
    (ht : s.threads[t]? = some (.sending message priority))
    (h : s.next t (.sending message priority) .insert = some (.ok s')) :
    Acted s s' t (.sending message priority) .leaving := by
  simp only [next] at h
  split_ifs at h
  · obtain rfl : s.goto t .leaving = s' := by simpa using h
    exact .goto ht rfl rfl nofun
  · obtain ⟨que, hpush, h⟩ := Lib.Effect.bind_eq_ok.mp (Option.some.inj h)
    obtain rfl := Except.ok.inj h
    have hgrown := push_grown hpush
    refine ⟨ht, rfl, ?_, hgrown.prioIter, hgrown.prioLevel, nofun, .inl ⟨rfl, rfl⟩⟩
    show Semaphore.count (Semaphore.post que.semphore) + 0 + s.que.queue.length =
      Semaphore.count s.que.semphore + 0 + que.queue.length
    have hlength := hgrown.queue
    rw [Semaphore.count_post, hgrown.semphore]
    omega

lemma acted_permitted {bDeque : Bool} (ht : s.threads[t]? = some (.permitted bDeque))
    (h : s.next t (.permitted bDeque) .take = some (.ok s')) :
    Acted s s' t (.permitted bDeque) .leaving := by
  obtain ⟨_, -, h⟩ := Lib.Effect.bind_eq_ok.mp (Option.some.inj h)
  cases bDeque with
  | true =>
    obtain ⟨que, hpop, h⟩ := Lib.Effect.bind_eq_ok.mp h
    obtain rfl := Except.ok.inj h
    have hgrown := popFront_grown hpop
    refine ⟨ht, rfl, ?_, hgrown.prioIter, hgrown.prioLevel, nofun, .inl ⟨rfl, rfl⟩⟩
    show Semaphore.count que.semphore + 0 + s.que.queue.length =
      Semaphore.count s.que.semphore + 1 + que.queue.length
    have hlength := hgrown.queue
    rw [hgrown.semphore]
    omega
  | false =>
    obtain rfl := Except.ok.inj h
    refine ⟨ht, rfl, ?_, rfl, rfl, nofun, .inl ⟨rfl, rfl⟩⟩
    show Semaphore.count (Semaphore.post s.que.semphore) + 0 + s.que.queue.length =
      Semaphore.count s.que.semphore + 1 + s.que.queue.length
    rw [Semaphore.count_post]

/-- A message is dropped with a permit, and the thread goes round again. -/
lemma acted_cleaning (ht : s.threads[t]? = some .cleaning)
    (h : s.next t .cleaning .popBack = some (.ok s')) :
    ∃ pc', Acted s s' t .cleaning pc' := by
  simp only [next] at h
  split_ifs at h with hempty
  · obtain rfl : s.goto t .leaving = s' := by simpa using h
    exact ⟨_, .goto ht rfl rfl nofun⟩
  rcases hs : Semaphore.tryPend s.que.semphore with _ | semphore <;> rw [hs] at h
  · obtain rfl := Except.ok.inj (Option.some.inj h)
    exact ⟨_, .goto ht rfl rfl nofun⟩
  · obtain rfl := Except.ok.inj (Option.some.inj h)
    refine ⟨.cleaning, ht, ?_, ?_, rfl, rfl, nofun, .inl ⟨rfl, rfl⟩⟩
    · obtain ⟨hlt, hget⟩ := List.getElem?_eq_some_iff.mp ht
      show s.threads = s.threads.set t .cleaning
      rw [← hget, List.set_getElem_self]
    · show Semaphore.count semphore + 0 + s.que.queue.length =
        Semaphore.count s.que.semphore + 0 + s.que.queue.dropLast.length
      have hpos := List.length_pos_iff.mpr hempty
      rw [Semaphore.count_of_tryPend hs, List.length_dropLast]
      omega

lemma acted_of_act (h : s.act t a = some (.ok s')) : ∃ pc pc', Acted s s' t pc pc' := by
  obtain ⟨pc, ht, h⟩ := Option.bind_eq_some_iff.mp h
  refine ⟨pc, ?_⟩
  cases a with
  | sendMessage message priority =>
    cases pc with
    | out =>
      simp only [next] at h
      split_ifs at h with hfree
      obtain rfl : s.enter t (.sending message priority) = s' := by simpa using h
      refine ⟨_, .enter ht hfree.1 rfl rfl ?_⟩
      rintro _ _ ⟨⟩
      exact hfree.2
    | _ => cases h
  | insert =>
    cases pc with
    | sending => exact ⟨_, acted_sending ht h⟩
    | _ => cases h
  | recvMessage timeWait wait bDeque =>
    cases pc with
    | out =>
      simp only [next] at h
      split_ifs at h with hfree
      obtain rfl : s.enter t (.trying timeWait wait bDeque) = s' := by simpa using h
      exact ⟨_, .enter ht hfree.1 rfl rfl nofun⟩
    | _ => cases h
  | tryPend =>
    cases pc with
    | trying timeWait wait bDeque =>
      simp only [next] at h
      rcases hs : Semaphore.tryPend s.que.semphore with _ | semphore <;> rw [hs] at h
      · obtain rfl := Except.ok.inj (Option.some.inj h)
        cases wait
        · exact ⟨.leaving, .goto ht rfl rfl nofun⟩
        · exact ⟨.refused timeWait bDeque, .goto ht rfl rfl nofun⟩
      · obtain rfl := Except.ok.inj (Option.some.inj h)
        exact ⟨.permitted bDeque, .permit ht hs rfl rfl rfl⟩
    | _ => cases h
  | unlock =>
    cases pc with
    | refused timeWait bDeque =>
      obtain rfl := Except.ok.inj (Option.some.inj h)
      exact ⟨.pending timeWait bDeque, .leave ht rfl rfl rfl⟩
    | leaving =>
      obtain rfl := Except.ok.inj (Option.some.inj h)
      exact ⟨.out, .leave ht rfl rfl rfl⟩
    | _ => cases h
  | pend =>
    cases pc with
    | pending timeWait bDeque =>
      obtain ⟨semphore, hs, h⟩ := Option.bind_eq_some_iff.mp h
      obtain rfl := Except.ok.inj (Option.some.inj h)
      exact ⟨.pended true bDeque, .permit ht hs rfl rfl rfl⟩
    | _ => cases h
  | timeOut =>
    cases pc with
    | pending timeWait bDeque =>
      simp only [next] at h
      split_ifs at h
      obtain rfl := Except.ok.inj (Option.some.inj h)
      exact ⟨.pended false bDeque, .goto ht rfl rfl nofun⟩
    | _ => cases h
  | lock =>
    cases pc with
    | pended ret bDeque =>
      simp only [next] at h
      split at h
      · next hfree =>
        obtain rfl := Except.ok.inj (Option.some.inj h)
        cases ret
        · exact ⟨.leaving, .enter ht hfree rfl rfl nofun⟩
        · exact ⟨.permitted bDeque, .enter ht hfree rfl rfl nofun⟩
      · cases h
    | _ => cases h
  | take =>
    cases pc with
    | permitted => exact ⟨_, acted_permitted ht h⟩
    | _ => cases h
  | clean =>
    cases pc with
    | out =>
      simp only [next] at h
      split_ifs at h with hfree
      obtain rfl : s.enter t .cleaning = s' := by simpa using h
      exact ⟨_, .enter ht hfree rfl rfl nofun⟩
    | _ => cases h
  | popBack =>
    cases pc with
    | cleaning => exact acted_cleaning ht h
    | _ => cases h

end Acted

/-! ### Runs -/

/-- Permits that are there or held match the messages, and the thread with the mutex is the one
inside. -/
structure Counted (s : Shared T σ) : Prop where
  balance : Semaphore.count s.que.semphore + s.threads.countP Pc.holds = s.que.queue.length
  mutex : ∀ (t : ℕ) (pc : Pc T), s.threads[t]? = some pc → (pc.inside ↔ s.mutex = some t)
  iters : s.que.prioIter.length = s.que.prioLevel.toNat
  priority : ∀ (t : ℕ) message priority, s.threads[t]? = some (.sending message priority) →
    0 ≤ priority ∧ priority < s.que.prioLevel

lemma counted_start (n : ℕ) (queueSize priLevel : ℤ) :
    Counted (start n queueSize priLevel : Shared T σ) where
  balance := by
    show Semaphore.count (Semaphore.create : σ) +
      (List.replicate n (.out : Pc T)).countP Pc.holds = 0
    rw [Semaphore.count_create, List.countP_replicate]
    rfl
  mutex t pc ht := by
    obtain rfl := List.eq_of_mem_replicate (List.mem_of_getElem? ht)
    simp [start, Pc.inside]
  iters := by simp [start, TMsgQue.setParam]
  priority t message priority ht := by
    cases List.eq_of_mem_replicate (List.mem_of_getElem? ht)

variable {s s' : Shared T σ} {t : ℕ}

omit [Semaphore σ] in
lemma set_self {pc : Pc T} (ht : s.threads[t]? = some pc) (pc' : Pc T) :
    (s.threads.set t pc')[t]? = some pc' :=
  List.getElem?_set_self (List.getElem?_eq_some_iff.mp ht).1

/-- **One move** keeps permits and messages in step. -/
lemma Acted.counted {pc pc' : Pc T} (h : Acted s s' t pc pc') (hc : Counted s) : Counted s' where
  balance := by
    have hset := countP_set_add Pc.holds h.here pc'
    have hbal := h.balance
    have hold := hc.balance
    rw [h.threads]
    omega
  mutex u p hu := by
    have hmutex := hc.mutex t pc h.here
    rw [h.threads] at hu
    by_cases htu : t = u
    · subst htu
      rw [set_self h.here] at hu
      obtain rfl := Option.some.inj hu
      rcases h.mutex with ⟨hm, hin⟩ | ⟨-, hm, hin⟩ | ⟨-, hm, hin⟩
      · rw [hm, hin]
        exact hmutex
      · simp [hm, hin]
      · simp [hm, hin]
    · rw [List.getElem?_set_ne htu] at hu
      have hmutex' := hc.mutex u p hu
      rcases h.mutex with ⟨hm, -⟩ | ⟨hm, hm', -⟩ | ⟨hin, hm, -⟩
      · rw [hm]
        exact hmutex'
      · rw [hm] at hmutex'
        simp only [hm', Option.some.injEq, htu, iff_false]
        simpa using hmutex'
      · rw [hmutex.mp hin, Option.some.injEq] at hmutex'
        rw [hm]
        simp only [reduceCtorEq, iff_false]
        exact fun hp => htu (hmutex'.mp hp)
  iters := by rw [h.prioIter, h.prioLevel, hc.iters]
  priority u message priority hu := by
    rw [h.prioLevel]
    rw [h.threads] at hu
    by_cases htu : t = u
    · subst htu
      rw [set_self h.here] at hu
      exact h.priority message priority (Option.some.inj hu)
    · rw [List.getElem?_set_ne htu] at hu
      exact hc.priority u message priority hu

lemma step_eq_some {m : ℕ × Act T} {o : List Unit} (h : s.step m = some (s', o)) :
    s.act m.1 m.2 = some (.ok s') := by
  unfold step at h
  split at h
  · next hact =>
    obtain ⟨rfl, -⟩ := Prod.mk.inj (Option.some.inj h)
    exact hact
  · exact absurd h (by simp)

lemma run_counted {n : ℕ} {queueSize priLevel : ℤ} {ms : List (ℕ × Act T)} {o : List Unit}
    (hrun : run step (start n queueSize priLevel : Shared T σ) ms = some (s, o)) : Counted s :=
  run_inv (C := fun _ _ => True) (I := fun _ s _ => Counted s) (counted_start n queueSize priLevel)
    (fun _ _ _ _ _ _ hc _ hstep =>
      let ⟨_, _, hacted⟩ := acted_of_act (step_eq_some hstep)
      hacted.counted hc)
    hrun (along_true _ _)

/-- A receiver with a permit and the mutex finds a message. -/
lemma Counted.queue_ne_nil (hc : Counted s) {bDeque : Bool}
    (ht : s.threads[t]? = some (.permitted bDeque)) : s.que.queue ≠ [] := by
  have hpos : 0 < s.threads.countP Pc.holds :=
    List.countP_pos_iff.mpr ⟨_, List.mem_of_getElem? ht, rfl⟩
  have hbal := hc.balance
  intro hempty
  rw [hempty, List.length_nil] at hbal
  omega

/-- **Only an insertion faults**, and only at an iterator whose node has been erased. -/
theorem act_error (hc : Counted s) {a : Act T} {f : Fault} (h : s.act t a = some (.error f)) :
    ∃ message priority n, s.threads[t]? = some (.sending message priority) ∧
      s.que.prioIter[priority.toNat]? = some (some n) ∧ n ∉ s.que.queue.map Node.addr := by
  obtain ⟨pc, ht, h⟩ := Option.bind_eq_some_iff.mp h
  cases a with
  | insert =>
    cases pc with
    | sending message priority =>
      simp only [next] at h
      split_ifs at h
      · cases h
      obtain ⟨h0, hlevel⟩ := hc.priority t message priority ht
      obtain ⟨iter, hiter⟩ : ∃ iter, s.que.prioIter[priority.toNat]? = some iter := by
        have hlt : priority.toNat < s.que.prioIter.length := by
          rw [hc.iters]
          omega
        exact ⟨_, List.getElem?_eq_getElem hlt⟩
      rcases Lib.Effect.bind_eq_error.mp (Option.some.inj h) with hpush | ⟨_, -, h⟩
      · rw [TMsgQue.push, hiter] at hpush
        rcases Lib.Effect.bind_eq_error.mp hpush with hinsert | ⟨_, -, h⟩
        · cases iter with
          | none => cases hinsert
          | some n =>
            refine ⟨message, priority, n, ht, hiter, fun hmem => ?_⟩
            rw [insertAt, if_pos hmem] at hinsert
            cases hinsert
        · cases h
      · cases h
    | _ => cases h
  | take =>
    cases pc with
    | permitted bDeque =>
      obtain ⟨node, queue, hq⟩ := List.exists_cons_of_ne_nil (hc.queue_ne_nil ht)
      cases bDeque <;> simp [next, TMsgQue.front, TMsgQue.popFront, hq, bind, Except.bind] at h
    | _ => cases h
  | pend =>
    cases pc with
    | pending timeWait bDeque =>
      obtain ⟨_, -, h⟩ := Option.bind_eq_some_iff.mp h
      cases h
    | _ => cases h
  | _ =>
    -- no other move can fault
    cases pc <;> try cases h
    all_goals
      simp only [next] at h
      repeat' split at h
      all_goals cases h

/-- **No front of an empty queue.** Whatever any number of threads do, permits that are there or
held are as many as the messages. A receiver about to take the front has the mutex and finds a
message, and takes it; all that can go wrong is an insertion at an erased node. -/
theorem permits_match_messages (n : ℕ) (queueSize priLevel : ℤ) (ms : List (ℕ × Act T))
    {o : List Unit}
    (hrun : run step (start n queueSize priLevel : Shared T σ) ms = some (s, o)) :
    Semaphore.count s.que.semphore + s.threads.countP Pc.holds = s.que.queue.length ∧
    (∀ (t : ℕ) bDeque, s.threads[t]? = some (.permitted bDeque) →
      s.mutex = some t ∧ s.que.queue ≠ [] ∧ ∃ s', s.act t .take = some (.ok s')) ∧
    ∀ t a f, s.act t a = some (.error f) → ∃ message priority n,
      s.threads[t]? = some (.sending message priority) ∧
      s.que.prioIter[priority.toNat]? = some (some n) ∧ n ∉ s.que.queue.map Node.addr := by
  have hc := run_counted hrun
  refine ⟨hc.balance, fun t bDeque ht => ?_, fun t a f h => act_error hc h⟩
  have hne := hc.queue_ne_nil ht
  refine ⟨(hc.mutex t _ ht).mp rfl, hne, ?_⟩
  obtain ⟨node, queue, hq⟩ := List.exists_cons_of_ne_nil hne
  unfold act
  rw [ht]
  cases bDeque <;> simp [next, TMsgQue.front, TMsgQue.popFront, hq, bind, Except.bind]

/-- A receiver that has waited with the mutex given back finds the message sent meanwhile. -/
theorem woken_receiver_finds : ∃ (s : Shared ℕ ℕ) (o : List Unit),
    run step (start 2 4 1) [(0, .recvMessage 0 true true), (0, .tryPend), (0, .unlock),
      (1, .sendMessage 7 0), (1, .insert), (0, .pend), (1, .unlock), (0, .lock)] = some (s, o) ∧
    s.threads[0]? = some (.permitted true) ∧ s.que.queue ≠ [] :=
  ⟨_, _, rfl, rfl, ((permits_match_messages 2 4 1 [(0, .recvMessage 0 true true), (0, .tryPend),
    (0, .unlock), (1, .sendMessage 7 0), (1, .insert), (0, .pend), (1, .unlock), (0, .lock)]
    rfl).2.1 0 true rfl).2.1⟩

end Shared

end DataEngine.MsgQue
