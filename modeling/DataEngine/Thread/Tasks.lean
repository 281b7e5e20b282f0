import DataEngine.MsgQue.Linear
import DataEngine.MsgQue.Reset
import DataEngine.Thread.ThreadPool

/-!
What becomes of the tasks of a thread pool.

A worker that has taken a task does it before it looks at the flag again, if `looping` says that
it may go on, and lets it go otherwise. A null task it has nothing to do with. When `stop` has
sent its null tasks and joined the workers, it cleans the queue, which is the last it does.
-/

namespace DataEngine.ThreadPool

open MsgQue MsgQue.Shared Lib.Machine Lib.PriorityList

variable {T σ : Type}

/-- A pool, and the task each worker has taken and not yet done. -/
structure Crew (T σ : Type) where
  pool : Pool T σ
  hands : List (Option T)

inductive Event (T : Type) where
  /-- A task has come into the queue. -/
  | added (task : T) (level : ℤ)
  | taken (i : ℕ) (task : T)
  | done (i : ℕ) (task : T)
  | dropped (i : ℕ) (task : T)

inductive Deed (T : Type) where
  | move (m : Move T)
  /-- A worker deals with its task; `looping` says whether the thread goes on. -/
  | work (i : ℕ) (looping : Bool)

/-- What a call on the queue in thread `t` does to the tasks. -/
def Event.ofCall (t : ℕ) : Call (Option T) × Result (Option T) → List (Event T)
  | (.sendMessage (some task) level, .sent true) => [.added task level]
  | (.recvMessage _ _ true, .received (some (some task))) => [.taken t task]
  | _ => []

namespace Crew

variable [Semaphore σ]

def start (threadNum others : ℕ) (taskNum prioNum : ℤ) : Crew T σ :=
  ⟨Pool.start threadNum others taskNum prioNum, List.replicate threadNum none⟩

/-- The worker has nothing to do before it looks at the flag. -/
def ready (s : Crew T σ) : Move T → Bool
  | .check i => (s.hands[i]?.join).isNone
  | _ => true

/-- What a move does to the tasks. -/
def events (s : Crew T σ) : Move T → List (Event T)
  | .act t a => (s.pool.shared.effect t a).flatMap (Event.ofCall t)
  | _ => []

/-- The workers' tasks after something has happened to one. -/
def hold (hands : List (Option T)) : Event T → List (Option T)
  | .added _ _ => hands
  | .taken i task => hands.set i (some task)
  | .done i _ | .dropped i _ => hands.set i none

def step (s : Crew T σ) : Deed T → Option (Crew T σ × List (Event T))
  | .move m =>
    if s.ready m then
      (s.pool.step m).map fun r => (⟨r.1, (s.events m).foldl hold s.hands⟩, s.events m)
    else none
  | .work i looping =>
    match s.pool.workers[i]?, s.hands[i]? with
    | some .check, some (some task) =>
      let event := if looping then .done i task else .dropped i task
      some ({ s with hands := hold s.hands event }, [event])
    | _, _ => none

end Crew

/-! ### What has happened to the tasks -/

/-- The tasks of a level that have come into the queue. -/
def added (level : ℤ) (log : List (Event T)) : List T :=
  log.filterMap fun
    | .added task l => if l = level then some task else none
    | _ => none

/-- The tasks taken out of the queue. -/
def taken (log : List (Event T)) : List T :=
  log.filterMap fun
    | .taken _ task => some task
    | _ => none

/-- The tasks a worker has taken out of the queue. -/
def takenBy (i : ℕ) (log : List (Event T)) : List T :=
  log.filterMap fun
    | .taken j task => if j = i then some task else none
    | _ => none

/-- The tasks a worker is done with. -/
def dealtBy (i : ℕ) (log : List (Event T)) : List T :=
  log.filterMap fun
    | .done j task | .dropped j task => if j = i then some task else none
    | _ => none

/-- The task a worker has in its hands. -/
def Crew.hand (s : Crew T σ) (i : ℕ) : List T := s.hands[i]?.join.toList

/-- The tasks that wait in the queue. -/
def Crew.queued (s : Crew T σ) : List T := s.pool.shared.que.messages.filterMap id

/-- `stop` has sent its null tasks and joined the workers, and is left to clean the queue. -/
def Crew.Joined (s : Crew T σ) : Prop := s.pool.Stopped ∧ ∀ w ∈ s.pool.workers, w = .done

/-- The last thing `stop` does. -/
def Crew.clean [Semaphore σ] (s : Crew T σ) : Crew T σ :=
  { s with pool.shared.que := s.pool.shared.que.clean }

/-! ### Where the workers are -/

namespace Crew

variable [Semaphore σ]

omit [Semaphore σ] in
/-- A thread goes on at one place. -/
lemma eq_of_set_eq {threads : List (Pc (Option T))} {t : ℕ} {pc p q : Pc (Option T)}
    (ht : threads[t]? = some pc) (h : threads.set t p = threads.set t q) : p = q := by
  have hlt := (List.getElem?_eq_some_iff.mp ht).1
  apply Option.some.inj
  calc some p = (threads.set t p)[t]? := (List.getElem?_set_self hlt).symm
    _ = (threads.set t q)[t]? := by rw [h]
    _ = some q := List.getElem?_set_self hlt

/-- The worker has a task in its hands. -/
def Busy (s : Crew T σ) (i : ℕ) : Prop := ∃ task, s.hands[i]? = some (some task)

omit [Semaphore σ] in
lemma hand_eq_nil {s : Crew T σ} {i : ℕ} (h : ¬ s.Busy i) : s.hand i = [] := by
  rcases hi : s.hands[i]? with _ | _ | task
  · simp [hand, hi]
  · simp [hand, hi]
  · exact absurd ⟨task, hi⟩ h

/-- The workers receive, whoever is behind them sends, and a worker that has taken a task is on
its way out of the queue or at the flag. -/
structure Manned (s : Crew T σ) : Prop where
  hands : s.hands.length = s.pool.workers.length
  threads : s.pool.stopper < s.pool.shared.threads.length
  receives : ∀ (i : ℕ) pc, i < s.pool.stopper → s.pool.shared.threads[i]? = some pc →
    Receives pc ∧ (isOut pc = false ↔ s.pool.workers[i]? = some .receiving)
  sends : ∀ (t : ℕ) pc, s.pool.stopper ≤ t → s.pool.shared.threads[t]? = some pc → Sends pc
  busy : ∀ i, s.Busy i →
    s.pool.workers[i]? = some .check ∨ s.pool.shared.threads[i]? = some .leaving
  bStart : s.pool.bStart → .done ∉ s.pool.workers

lemma manned_start (threadNum others : ℕ) (taskNum prioNum : ℤ) :
    Manned (start threadNum others taskNum prioNum : Crew T σ) := by
  have hlen : (Pool.start threadNum others taskNum prioNum : Pool T σ).workers.length =
      threadNum := List.length_replicate
  have hout {t : ℕ} {pc : Pc (Option T)}
      (h : (List.replicate (threadNum + 1 + others) Pc.out)[t]? = some pc) : pc = .out :=
    List.eq_of_mem_replicate (List.mem_of_getElem? h)
  refine ⟨List.length_replicate.trans hlen.symm, ?_, fun i pc hi h => ?_, fun t pc _ h => ?_,
    fun i hi => ?_, fun _ h => ?_⟩
  · show (Pool.start threadNum others taskNum prioNum : Pool T σ).workers.length <
      (List.replicate (threadNum + 1 + others) Pc.out).length
    rw [hlen, List.length_replicate]
    omega
  · obtain rfl := hout h
    refine ⟨trivial, iff_of_false (by simp [isOut]) fun hw => ?_⟩
    cases List.eq_of_mem_replicate (List.mem_of_getElem? hw)
  · obtain rfl := hout h
    trivial
  · obtain ⟨task, h⟩ := hi
    cases List.eq_of_mem_replicate (List.mem_of_getElem? h)
  · cases List.eq_of_mem_replicate h

section Manned

variable {s : Crew T σ} (hs : s.Manned)

include hs

omit [Semaphore σ] in
/-- A worker that wants a message, or has just got the permit for one, has no task. -/
lemma Manned.not_busy {i : ℕ} {pc : Pc (Option T)} (hi : i < s.pool.stopper)
    (hpc : s.pool.shared.threads[i]? = some pc) (hin : isOut pc = false)
    (hleaving : isLeaving pc = false) : ¬ s.Busy i := by
  intro hbusy
  obtain ⟨-, hrecv⟩ := hs.receives i pc hi hpc
  rcases hs.busy i hbusy with h | h
  · cases (hrecv.mp hin).symm.trans h
  · obtain rfl := Option.some.inj (hpc.symm.trans h)
    cases hleaving

variable {shared : Shared (Option T) σ} {t : ℕ} {a : Act (Option T)}

/-- What a worker does in the queue: it takes a task, or it does not; with a task it comes out. -/
lemma Manned.worker_act (hlt : t < s.pool.stopper) (hmay : s.pool.mayAct t a)
    (hact : s.pool.shared.act t a = some (.ok shared)) :
    ∃ pc pc', s.pool.shared.threads[t]? = some pc ∧ Receives pc' ∧
      Moved s.pool.shared shared t pc' ∧
      (s.events (.act t a) = [] ∧ (s.Busy t → pc' = .out) ∨
        ∃ task, s.events (.act t a) = [.taken t task] ∧ ¬ s.Busy t ∧ pc' = .leaving) := by
  obtain ⟨pc, _, hacted⟩ := acted_of_act hact
  have ht := hacted.here
  obtain ⟨hrecv, hworker⟩ := hs.receives t pc hlt ht
  have hnext := next_of_act ht hact
  rcases hout : isOut pc with _ | _
  · obtain ⟨pc', hrecv', hm, -⟩ := act_receiver ht hrecv hout hact
    refine ⟨pc, pc', ht, hrecv', hm, ?_⟩
    cases pc with
    | out => cases hout
    | sending | cleaning => exact absurd hrecv id
    | leaving =>
      cases a with
      | unlock =>
        obtain rfl := Except.ok.inj (Option.some.inj hnext)
        refine .inl ⟨rfl, fun _ => ?_⟩
        exact eq_of_set_eq ht hm.threads.symm
      | _ => cases hnext
    | permitted bDeque =>
      obtain rfl : bDeque = true := hrecv
      have hfree := hs.not_busy hlt ht rfl rfl
      cases a with
      | take =>
        have hpc' : pc' = .leaving :=
          eq_of_set_eq ht (hm.threads.symm.trans (acted_permitted ht hnext).threads)
        rcases hqueue : s.pool.shared.que.queue with _ | ⟨⟨addr, _ | task⟩, queue⟩
        · exact .inl ⟨by simp [events, effect, ht, hqueue], fun h => absurd h hfree⟩
        · exact .inl ⟨by simp [events, effect, ht, hqueue, Event.ofCall], fun h => absurd h hfree⟩
        · exact .inr ⟨task, by simp [events, effect, ht, hqueue, Event.ofCall], hfree, hpc'⟩
      | _ => cases hnext
    | _ =>
      have hfree := hs.not_busy hlt ht rfl rfl
      refine .inl ⟨?_, fun h => absurd h hfree⟩
      cases a <;> first | rfl | cases hnext
  · obtain rfl : pc = .out := by
      cases pc <;> simp_all [isOut]
    obtain ⟨-, ⟨timeWait, wait, bDeque, rfl, hm⟩ | ⟨message, priority, rfl, -⟩ | rfl⟩ :=
      act_out ht hact
    · simp only [Pool.mayAct, Bool.and_eq_true, decide_eq_true_eq] at hmay
      obtain ⟨⟨⟨hcall, rfl⟩, rfl⟩, rfl⟩ := hmay
      refine ⟨.out, .trying 0 true true, ht, ⟨rfl, rfl, rfl⟩, hm, .inl ⟨rfl, fun hbusy => ?_⟩⟩
      rcases hs.busy t hbusy with h | h
      · cases hcall.symm.trans h
      · cases ht.symm.trans h
    · simp [Pool.mayAct, hlt.ne, hlt.not_gt] at hmay
    · simp [Pool.mayAct] at hmay

/-- Whoever is behind the workers takes nothing. -/
lemma Manned.sender_act (hge : s.pool.stopper ≤ t) (hmay : s.pool.mayAct t a)
    (hact : s.pool.shared.act t a = some (.ok shared)) :
    ∃ pc pc', s.pool.shared.threads[t]? = some pc ∧ Sends pc' ∧
      Moved s.pool.shared shared t pc' ∧
      (s.events (.act t a) = [] ∨ ∃ task level, s.events (.act t a) = [.added task level]) := by
  obtain ⟨pc, _, hacted⟩ := acted_of_act hact
  have ht := hacted.here
  have hsends := hs.sends t pc hge ht
  rcases hout : isOut pc with _ | _
  · rcases act_sender ht hsends hout hact with ⟨message, priority, rfl, hm, -⟩ | ⟨rfl, hm, -⟩
    · refine ⟨_, .leaving, ht, trivial, hm, ?_⟩
      have hnext := next_of_act ht hact
      cases a with
      | insert =>
        by_cases hroom : (s.pool.shared.que.queue.length : ℤ) < s.pool.shared.que.queSize
        · cases message with
          | none => exact .inl (by simp [events, effect, ht, Event.ofCall])
          | some task =>
            exact .inr ⟨task, priority, by simp [events, effect, ht, hroom, Event.ofCall]⟩
        · exact .inl (by simp [events, effect, ht, hroom, Event.ofCall])
      | _ => cases hnext
    · refine ⟨_, .out, ht, trivial, hm, .inl ?_⟩
      have hnext := next_of_act ht hact
      cases a <;> first | rfl | cases hnext
  · obtain rfl : pc = .out := by
      cases pc <;> simp_all [isOut]
    obtain ⟨-, ⟨timeWait, wait, bDeque, rfl, -⟩ | ⟨message, priority, rfl, hm⟩ | rfl⟩ :=
      act_out ht hact
    · have hnone : s.pool.workers[t]? = none := List.getElem?_eq_none hge
      simp [Pool.mayAct, hnone] at hmay
    · exact ⟨_, .sending message priority, ht, trivial, hm, .inl rfl⟩
    · simp [Pool.mayAct] at hmay

omit [Semaphore σ] in
/-- A thread goes on, and the hands of the others stay as they are. -/
lemma Manned.goOn {pc pc' : Pc (Option T)} (ht : s.pool.shared.threads[t]? = some pc)
    (hm : Moved s.pool.shared shared t pc') (hreceives : t < s.pool.stopper → Receives pc')
    (hsends : s.pool.stopper ≤ t → Sends pc') {hands : List (Option T)}
    (hlen : hands.length = s.hands.length) (hothers : ∀ i, i ≠ t → hands[i]? = s.hands[i]?)
    (hbusy : (∃ task, hands[t]? = some (some task)) → pc' = .out ∨ pc' = .leaving) :
    Manned ⟨s.pool.goOn t shared, hands⟩ := by
  have hself : shared.threads[t]? = some pc' := Pool.returned_eq ht hm
  have hother {u : ℕ} (hu : u ≠ t) : shared.threads[u]? = s.pool.shared.threads[u]? := by
    rw [hm.threads, List.getElem?_set_ne hu.symm]
  have hworkers : (s.pool.goOn t shared).workers.length = s.pool.workers.length :=
    List.length_set
  have hworker {u : ℕ} (hu : u ≠ t) :
      (s.pool.goOn t shared).workers[u]? = s.pool.workers[u]? :=
    List.getElem?_set_ne (Ne.symm hu)
  have hstopper : (s.pool.goOn t shared).stopper = s.pool.stopper := hworkers
  have hthere (hlt : t < s.pool.stopper) : (s.pool.goOn t shared).workers[t]? =
      some (if isOut pc' then .check else .receiving) := by
    have := List.getElem?_set_self (a := if isOut pc' then Worker.check else .receiving) hlt
    simpa [Pool.goOn, hself] using this
  refine ⟨hlen.trans (hs.hands.trans hworkers.symm), ?_, fun i p hi hp => ?_, fun u p hu hp => ?_,
    fun i hi => ?_, fun hstart hdone => ?_⟩
  · rw [hstopper]
    show s.pool.stopper < shared.threads.length
    rw [hm.threads, List.length_set]
    exact hs.threads
  · rw [hstopper] at hi
    by_cases hit : i = t
    · subst hit
      obtain rfl : pc' = p := Option.some.inj (hself.symm.trans hp)
      refine ⟨hreceives hi, ?_⟩
      rw [hthere hi]
      cases isOut pc' <;> simp
    · have hold := hs.receives i p hi ((hother hit).symm.trans hp)
      rwa [← hworker hit] at hold
  · rw [hstopper] at hu
    by_cases hut : u = t
    · subst hut
      obtain rfl : pc' = p := Option.some.inj (hself.symm.trans hp)
      exact hsends hu
    · exact hs.sends u p hu ((hother hut).symm.trans hp)
  · by_cases hit : i = t
    · subst hit
      have hlt : i < s.pool.stopper := by
        obtain ⟨task, hi⟩ := hi
        have := (List.getElem?_eq_some_iff.mp hi).1
        rw [hlen, hs.hands] at this
        exact this
      rcases hbusy hi with rfl | rfl
      · exact .inl (hthere hlt)
      · exact .inr hself
    · obtain ⟨task, hi⟩ := hi
      rw [show (⟨s.pool.goOn t shared, hands⟩ : Crew T σ).pool.workers[i]? = _ from hworker hit,
        show (⟨s.pool.goOn t shared, hands⟩ : Crew T σ).pool.shared.threads[i]? = _ from
          hother hit]
      exact hs.busy i ⟨task, (hothers i hit).symm.trans hi⟩
  · rcases List.mem_or_eq_of_mem_set hdone with hdone | hdone
    · exact hs.bStart hstart hdone
    · split_ifs at hdone

/-- What a move of a thread in the queue does to the tasks. -/
lemma Manned.act (hmay : s.pool.mayAct t a)
    (hact : s.pool.shared.act t a = some (.ok shared)) :
    Manned ⟨s.pool.goOn t shared, (s.events (.act t a)).foldl hold s.hands⟩ ∧
      ∀ i, s.hand i ++ takenBy i (s.events (.act t a)) = dealtBy i (s.events (.act t a)) ++
        hand (⟨s.pool.goOn t shared, (s.events (.act t a)).foldl hold s.hands⟩ : Crew T σ) i := by
  rcases lt_or_ge t s.pool.stopper with hlt | hge
  · obtain ⟨pc, pc', ht, hrecv, hm, ⟨hevents, hout⟩ | ⟨task, hevents, hfree, rfl⟩⟩ :=
      hs.worker_act hlt hmay hact
    · rw [hevents]
      exact ⟨hs.goOn ht hm (fun _ => hrecv) (fun h => absurd hlt (not_lt.mpr h)) rfl
        (fun _ _ => rfl) fun hbusy => .inl (hout hbusy), fun i => List.append_nil _⟩
    · rw [hevents]
      refine ⟨hs.goOn ht hm (fun _ => hrecv) (fun h => absurd hlt (not_lt.mpr h)) List.length_set
        (fun i hi => List.getElem?_set_ne (Ne.symm hi)) fun _ => .inr rfl, fun i => ?_⟩
      by_cases hi : i = t
      · subst hi
        have hlt' : i < s.hands.length := hs.hands ▸ hlt
        rw [hand_eq_nil hfree]
        simp [takenBy, dealtBy, hand, hold, hlt']
      · simp [takenBy, dealtBy, hand, hold, Ne.symm hi]
  · obtain ⟨pc, pc', ht, hsends, hm, hevents⟩ := hs.sender_act hge hmay hact
    have hhands : (s.events (.act t a)).foldl hold s.hands = s.hands := by
      rcases hevents with hevents | ⟨task, level, hevents⟩ <;> rw [hevents] <;> rfl
    have hnone : s.hands[t]? = none := List.getElem?_eq_none (hs.hands ▸ hge)
    rw [hhands]
    refine ⟨hs.goOn ht hm (fun h => absurd h (not_lt.mpr hge)) (fun _ => hsends) rfl
      (fun _ _ => rfl) (by simp [hnone]), fun i => ?_⟩
    rcases hevents with hevents | ⟨task, level, hevents⟩ <;> rw [hevents] <;>
      simp [takenBy, dealtBy, hand]

omit hs [Semaphore σ] in
/-- Only the flag, or how far `stop` is, may change besides. -/
lemma Manned.of_same (hs' : s.Manned) {pool : Pool T σ} (hshared : pool.shared = s.pool.shared)
    (hworkers : pool.workers = s.pool.workers) (hstart : pool.bStart → s.pool.bStart) :
    Manned ⟨pool, s.hands⟩ := by
  have hstopper : pool.stopper = s.pool.stopper := congrArg List.length hworkers
  refine ⟨hs'.hands.trans (by rw [hworkers]), ?_, ?_, ?_, fun i hi => ?_, ?_⟩ <;>
    simp only [hshared, hworkers, hstopper]
  · exact hs'.threads
  · exact hs'.receives
  · exact hs'.sends
  · exact hs'.busy i hi
  · exact fun h => hs'.bStart (hstart h)

omit [Semaphore σ] in
/-- A worker that has nothing in its hands looks at the flag. -/
lemma Manned.check {i : ℕ} (hi : s.pool.workers[i]? = some .check)
    (hfree : s.hands[i]?.join = none) :
    Manned ⟨{ s.pool with
      workers := s.pool.workers.set i (if s.pool.bStart then .call else .done) }, s.hands⟩ := by
  have hlen : (s.pool.workers.set i (if s.pool.bStart then Worker.call else .done)).length =
      s.pool.workers.length := List.length_set
  have hlt : i < s.pool.workers.length := (List.getElem?_eq_some_iff.mp hi).1
  refine ⟨hs.hands.trans hlen.symm, ?_, fun j pc hj hpc => ?_,
    fun t pc ht hpc => hs.sends t pc (by simpa [Pool.stopper] using ht) hpc, fun j hj => ?_,
    fun hstart hdone => ?_⟩
  · show (s.pool.workers.set i _).length < s.pool.shared.threads.length
    rw [hlen]
    exact hs.threads
  · obtain ⟨hrecv, hworker⟩ := hs.receives j pc (by simpa [Pool.stopper] using hj) hpc
    refine ⟨hrecv, hworker.trans ?_⟩
    by_cases hji : j = i
    · subst hji
      have hnew : (s.pool.workers.set j (if s.pool.bStart then Worker.call else .done))[j]? =
          some (if s.pool.bStart then .call else .done) := List.getElem?_set_self hlt
      simp only [hi, hnew]
      split_ifs <;> simp
    · simp only [List.getElem?_set_ne (Ne.symm hji)]
  · have hji : j ≠ i := by
      rintro rfl
      obtain ⟨task, hj⟩ := hj
      simp [show s.hands[j]? = some (some task) from hj] at hfree
    show (s.pool.workers.set i _)[j]? = _ ∨ _
    rw [List.getElem?_set_ne (Ne.symm hji)]
    exact hs.busy j hj
  · rcases List.mem_or_eq_of_mem_set hdone with hdone | hdone
    · exact hs.bStart hstart hdone
    · rw [if_pos hstart] at hdone
      cases hdone

omit [Semaphore σ] in
/-- A worker deals with its task. -/
lemma Manned.work {i : ℕ} {task : T} (hi : s.hands[i]? = some (some task)) (looping : Bool) :
    Manned { s with hands := s.hands.set i none } ∧
      ∀ j, s.hand j ++ takenBy j [if looping then .done i task else .dropped i task] =
        dealtBy j [if looping then .done i task else .dropped i task] ++
          hand { s with hands := s.hands.set i none } j := by
  obtain ⟨hlt, hget⟩ := List.getElem?_eq_some_iff.mp hi
  refine ⟨⟨List.length_set.trans hs.hands, hs.threads, hs.receives, hs.sends, fun j hj => ?_,
    hs.bStart⟩, fun j => ?_⟩
  · have hji : j ≠ i := by
      rintro rfl
      obtain ⟨task', hj⟩ := hj
      simp [hlt] at hj
    obtain ⟨task', hj⟩ := hj
    exact hs.busy j ⟨task', (List.getElem?_set_ne (Ne.symm hji)).symm.trans hj⟩
  · by_cases hji : j = i
    · subst hji
      cases looping <;> simp [takenBy, dealtBy, hand, hlt, hget]
    · cases looping <;> simp [takenBy, dealtBy, hand, Ne.symm hji]

/-- **One step.** The workers stay where they may be, and what one of them had or has taken it
has dealt with or still has. -/
lemma Manned.step {d : Deed T} {u : Crew T σ} {o : List (Event T)} (h : s.step d = some (u, o)) :
    u.Manned ∧ ∀ i, s.hand i ++ takenBy i o = dealtBy i o ++ u.hand i := by
  cases d with
  | work i looping =>
    simp only [Crew.step] at h
    split at h
    · next task hcheck hi =>
      obtain ⟨rfl, rfl⟩ := Prod.mk.inj (Option.some.inj h)
      have hhold : hold s.hands (if looping then Event.done i task else .dropped i task) =
          s.hands.set i none := by
        cases looping <;> rfl
      rw [hhold]
      exact hs.work hi looping
    · cases h
  | move m =>
    simp only [Crew.step] at h
    split_ifs at h with hready
    obtain ⟨⟨pool, _⟩, hpool, heq⟩ := Option.map_eq_some_iff.mp h
    obtain ⟨rfl, rfl⟩ := Prod.mk.inj heq
    cases m with
    | act t a =>
      simp only [Pool.step] at hpool
      split_ifs at hpool with hmay
      split at hpool
      · next shared hact =>
        obtain ⟨rfl, -⟩ := Prod.mk.inj (Option.some.inj hpool)
        exact hs.act hmay hact
      · cases hpool
    | check i =>
      simp only [Pool.step] at hpool
      split at hpool
      · next hi =>
        obtain ⟨rfl, -⟩ := Prod.mk.inj (Option.some.inj hpool)
        exact ⟨hs.check hi (Option.isNone_iff_eq_none.mp hready), fun i => List.append_nil _⟩
      · cases hpool
    | stop =>
      simp only [Pool.step] at hpool
      split_ifs at hpool
      obtain ⟨rfl, -⟩ := Prod.mk.inj (Option.some.inj hpool)
      exact ⟨hs.of_same rfl rfl (fun h => by cases h), fun i => List.append_nil _⟩
    | refuse =>
      simp only [Pool.step] at hpool
      split_ifs at hpool
      obtain ⟨rfl, -⟩ := Prod.mk.inj (Option.some.inj hpool)
      exact ⟨hs.of_same rfl rfl id, fun i => List.append_nil _⟩
    | addTask t =>
      simp only [Pool.step] at hpool
      split_ifs at hpool
      obtain ⟨rfl, -⟩ := Prod.mk.inj (Option.some.inj hpool)
      exact ⟨hs.of_same rfl rfl id, fun i => List.append_nil _⟩

omit [Semaphore σ] in
/-- A worker that is done is outside the queue. -/
lemma Manned.out_of_done (hdone : ∀ w ∈ s.pool.workers, w = .done) {i : ℕ}
    {pc : Pc (Option T)} (hi : i < s.pool.stopper)
    (hpc : s.pool.shared.threads[i]? = some pc) : pc = .out := by
  obtain ⟨-, hworker⟩ := hs.receives i pc hi hpc
  have hout : isOut pc = true := by
    by_contra hin
    have hreceiving := hworker.mp (Bool.eq_false_of_not_eq_true hin)
    cases hdone _ (List.mem_of_getElem? hreceiving)
  cases pc <;> simp_all [isOut]

omit [Semaphore σ] in
lemma Manned.lt_of_busy {i : ℕ} (hbusy : s.Busy i) : i < s.pool.stopper := by
  obtain ⟨task, hi⟩ := hbusy
  have hlt := (List.getElem?_eq_some_iff.mp hi).1
  rwa [hs.hands] at hlt

omit [Semaphore σ] in
/-- A worker that is done has nothing in its hands. -/
lemma Manned.hand_of_done (hdone : ∀ w ∈ s.pool.workers, w = .done) (i : ℕ) :
    s.hand i = [] := by
  refine hand_eq_nil fun hbusy => ?_
  rcases hs.busy i hbusy with hcheck | hleaving
  · cases hdone _ (List.mem_of_getElem? hcheck)
  · cases hs.out_of_done hdone (hs.lt_of_busy hbusy) hleaving

omit [Semaphore σ] in
/-- Whoever sends has no permit. -/
lemma Manned.countP_holds (hworkers : ∀ (i : ℕ) pc, i < s.pool.stopper →
    s.pool.shared.threads[i]? = some pc → pc.holds = false) :
    s.pool.shared.threads.countP Pc.holds = 0 := by
  refine List.countP_eq_zero.mpr fun pc hmem => ?_
  obtain ⟨t, ht⟩ := List.mem_iff_getElem?.mp hmem
  rcases lt_or_ge t s.pool.stopper with hlt | hge
  · simp [hworkers t pc hlt ht]
  · have := hs.sends t pc hge ht
    cases pc <;> simp_all [Sends, Pc.holds]

/-- Once the workers are done nobody holds a permit: there is one for each message, and `clean`
throws all of them away. -/
lemma Manned.queued_clean (hcounted : s.pool.shared.Counted)
    (hdone : ∀ w ∈ s.pool.workers, w = .done) : s.clean.queued = [] := by
  have hholds := hs.countP_holds fun i pc hi hpc => by
    rw [hs.out_of_done hdone hi hpc]
    rfl
  have hbalance := hcounted.balance
  rw [hholds, Nat.add_zero] at hbalance
  obtain ⟨semphore, hclean, -⟩ := clean_eq rfl hbalance
  show s.pool.shared.que.clean.messages.filterMap id = []
  rw [hclean]
  rfl

end Manned

/-! ### What goes through the queue -/

/-- An entry of the queue that is a task -/
def taskEntry (e : Entry ℤ (Option T)) : Option (Entry ℤ T) :=
  e.item.map fun task => ⟨e.number, e.prio, task⟩

omit [Semaphore σ] in
lemma map_taskEntry (es : List (Entry ℤ (Option T))) :
    (es.filterMap taskEntry).map Entry.item = (es.map Entry.item).filterMap id := by
  rw [List.map_filterMap, List.filterMap_map]
  refine List.filterMap_congr fun e _ => ?_
  obtain ⟨number, prio, _ | task⟩ := e <;> rfl

omit [Semaphore σ] in
lemma filter_taskEntry (es : List (Entry ℤ (Option T))) (level : ℤ) :
    ((es.filterMap taskEntry).filter (·.prio = level)).map Entry.item =
      (es.filter (·.prio = level)).filterMap Entry.item := by
  rw [List.filter_filterMap, List.map_filterMap, List.filterMap_filter]
  refine List.filterMap_congr fun e _ => ?_
  obtain ⟨number, prio, _ | task⟩ := e
  · by_cases h : prio = level <;> simp [taskEntry, h]
  · by_cases h : prio = level <;> simp [taskEntry, h]

omit [Semaphore σ] in
/-- What a call does to the tasks is what it does to the messages that are some. -/
lemma events_ofCall (t n : ℕ) (x : Call (Option T) × Result (Option T)) :
    (∀ level, added level (Event.ofCall t x) =
      ((accepted n [x]).filter (·.prio = level)).filterMap Entry.item) ∧
    taken (Event.ofCall t x) = (delivered [x]).filterMap id := by
  obtain ⟨c, r⟩ := x
  cases c with
  | sendMessage message priority =>
    rcases r with (_ | _) | _
    · exact ⟨fun _ => by cases message <;> rfl, by cases message <;> rfl⟩
    · refine ⟨fun level => ?_, by cases message <;> rfl⟩
      rcases message with _ | task
      · by_cases h : priority = level <;> simp [added, Event.ofCall, accepted, h]
      · by_cases h : priority = level <;> simp [added, Event.ofCall, accepted, h]
    · exact ⟨fun _ => by cases message <;> rfl, by cases message <;> rfl⟩
  | recvMessage timeWait wait bDeque =>
    rcases r with _ | _ | _ | task <;> cases bDeque <;> exact ⟨fun _ => rfl, rfl⟩

/-- The calls that have taken effect, and what they have done to the tasks. -/
structure Told (taskNum prioNum : ℤ) (s : Crew T σ) (log : List (Event T))
    (a : PrioQueue (Option T)) (calls : List (Call (Option T) × Result (Option T))) : Prop where
  opened : Open taskNum prioNum s.pool.shared a
  run : PrioQueue.empty.run taskNum prioNum (calls.map Prod.fst) = (calls, a)
  added : ∀ level, added level log =
    ((accepted 0 calls).filter (·.prio = level)).filterMap Entry.item
  taken : taken log = (delivered calls).filterMap id

section Told

variable {taskNum prioNum : ℤ} {s u : Crew T σ} {log o : List (Event T)}
  {a : PrioQueue (Option T)} {calls : List (Call (Option T) × Result (Option T))}

omit [Semaphore σ] in
lemma added_append (level : ℤ) (log log' : List (Event T)) :
    ThreadPool.added level (log ++ log') =
      ThreadPool.added level log ++ ThreadPool.added level log' := List.filterMap_append

omit [Semaphore σ] in
lemma taken_append (log log' : List (Event T)) :
    ThreadPool.taken (log ++ log') = ThreadPool.taken log ++ ThreadPool.taken log' :=
  List.filterMap_append

/-- The queue is left alone. -/
lemma Told.of_same (h : Told taskNum prioNum s log a calls)
    (hshared : u.pool.shared = s.pool.shared) (hadded : ∀ level, ThreadPool.added level o = [])
    (htaken : ThreadPool.taken o = []) : Told taskNum prioNum u (log ++ o) a calls where
  opened := hshared ▸ h.opened
  run := h.run
  added level := by rw [added_append, hadded, List.append_nil, h.added]
  taken := by rw [taken_append, htaken, List.append_nil, h.taken]

/-- A call takes effect. -/
lemma Told.call (h : Told taskNum prioNum s log a calls) {a' : PrioQueue (Option T)} {t : ℕ}
    {c : Call (Option T)} {r : Result (Option T)}
    (hcall : a.call taskNum prioNum c = some (r, a'))
    (hu : Open taskNum prioNum u.pool.shared a') :
    Told taskNum prioNum u (log ++ Event.ofCall t (c, r)) a' (calls ++ [(c, r)]) where
  opened := hu
  run := PrioQueue.run_snoc h.run hcall
  added level := by
    rw [added_append, accepted_append, List.filter_append, List.filterMap_append, h.added,
      (events_ofCall t _ (c, r)).1]
  taken := by
    rw [taken_append, delivered_append, List.filterMap_append, h.taken,
      (events_ofCall t 0 (c, r)).2]

/-- **One step** is one call on the queue or none. -/
lemma Told.step (h : Told taskNum prioNum s log a calls) {d : Deed T}
    (hstep : s.step d = some (u, o)) :
    ∃ a' calls', Told taskNum prioNum u (log ++ o) a' calls' := by
  cases d with
  | work i looping =>
    simp only [Crew.step] at hstep
    split at hstep
    · obtain ⟨rfl, rfl⟩ := Prod.mk.inj (Option.some.inj hstep)
      exact ⟨a, calls, h.of_same rfl (fun _ => by cases looping <;> rfl)
        (by cases looping <;> rfl)⟩
    · cases hstep
  | move m =>
    simp only [Crew.step] at hstep
    split_ifs at hstep
    obtain ⟨⟨pool, _⟩, hpool, heq⟩ := Option.map_eq_some_iff.mp hstep
    obtain ⟨rfl, rfl⟩ := Prod.mk.inj heq
    cases m with
    | act t b =>
      simp only [Pool.step] at hpool
      split_ifs at hpool with hmay
      split at hpool
      · next shared hact =>
        obtain ⟨rfl, -⟩ := Prod.mk.inj (Option.some.inj hpool)
        have hclean : b ≠ .clean := by
          rintro rfl
          cases hmay
        obtain ⟨shared', a', hr, hopen, heffect⟩ := h.opened.act hclean hact
        obtain rfl := Except.ok.inj hr
        rcases heffect with ⟨heffect, rfl⟩ | ⟨c, r, heffect, hcall⟩
        · refine ⟨a', calls, hopen, h.run, ?_, ?_⟩
          · simpa [events, heffect] using h.added
          · simpa [events, heffect] using h.taken
        · have := h.call (u := ⟨s.pool.goOn t shared, (s.events (.act t b)).foldl hold s.hands⟩)
            (t := t) hcall hopen
          exact ⟨a', calls ++ [(c, r)], by simpa [events, heffect] using this⟩
      · cases hpool
    | check i =>
      simp only [Pool.step] at hpool
      split at hpool
      · obtain ⟨rfl, -⟩ := Prod.mk.inj (Option.some.inj hpool)
        exact ⟨a, calls, h.of_same rfl (fun _ => rfl) rfl⟩
      · cases hpool
    | _ =>
      simp only [Pool.step] at hpool
      split_ifs at hpool
      obtain ⟨rfl, -⟩ := Prod.mk.inj (Option.some.inj hpool)
      exact ⟨a, calls, h.of_same rfl (fun _ => rfl) rfl⟩

end Told

/-! ### Runs -/

section Runs

variable {s : Crew T σ} {log : List (Event T)}

lemma run_told {threadNum others : ℕ} {taskNum prioNum : ℤ} {ds : List (Deed T)}
    (hrun : run step (start threadNum others taskNum prioNum : Crew T σ) ds = some (s, log)) :
    s.Manned ∧ (∃ a calls, Told taskNum prioNum s log a calls) ∧
      ∀ i, takenBy i log = dealtBy i log ++ s.hand i := by
  refine run_inv (C := fun _ _ => True)
    (I := fun _ s log => s.Manned ∧ (∃ a calls, Told taskNum prioNum s log a calls) ∧
      ∀ i, takenBy i log = dealtBy i log ++ s.hand i)
    ⟨manned_start _ _ _ _, ⟨PrioQueue.empty, [], ?_⟩, ?_⟩ ?_ hrun (along_true _ _)
  · exact ⟨open_start _ _ _, rfl, fun _ => rfl, rfl⟩
  · intro i
    by_cases hi : i < threadNum <;> simp [takenBy, dealtBy, hand, start, hi]
  · rintro _ s log d u o ⟨hs, ⟨a, calls, htold⟩, hdealt⟩ - hstep
    obtain ⟨hu, hnew⟩ := hs.step hstep
    refine ⟨hu, htold.step hstep, fun i => ?_⟩
    calc takenBy i (log ++ o)
        = takenBy i log ++ takenBy i o := List.filterMap_append
      _ = dealtBy i log ++ (s.hand i ++ takenBy i o) := by rw [hdealt, List.append_assoc]
      _ = dealtBy i log ++ (dealtBy i o ++ u.hand i) := by rw [hnew]
      _ = dealtBy i (log ++ o) ++ u.hand i := by
          rw [dealtBy, dealtBy, dealtBy, List.filterMap_append, List.append_assoc]

/-- **No task is lost or done twice.** Whatever the workers, the threads that add tasks and the
one that stops the pool do, the tasks taken out and those still waiting are the tasks added,
those of one level in the order in which they were added; and a worker has dealt with all it has
taken, in this order, up to the one it has in its hands. What still waits when the workers have
been joined is what `stop` throws away. -/
theorem tasks_dealt_with_once (threadNum others : ℕ) (taskNum prioNum : ℤ) (ds : List (Deed T))
    (hrun : run step (start threadNum others taskNum prioNum : Crew T σ) ds = some (s, log)) :
    (∃ order : List (Entry ℤ T), order.map Entry.item = taken log ++ s.queued ∧
      ∀ level, (order.filter (·.prio = level)).map Entry.item = added level log) ∧
    (∀ i, takenBy i log = dealtBy i log ++ s.hand i) ∧
    (s.Joined → (∀ i, s.hand i = []) ∧ s.clean.queued = []) := by
  obtain ⟨hs, ⟨a, calls, htold⟩, hdealt⟩ := run_told hrun
  refine ⟨?_, hdealt, fun hjoined =>
    ⟨hs.hand_of_done hjoined.2, hs.queued_clean htold.opened.counted hjoined.2⟩⟩
  obtain ⟨given, hpassed⟩ :=
    PrioQueue.empty.run_passed taskNum prioNum (calls.map Prod.fst)
  rw [htold.run] at hpassed
  refine ⟨(given ++ a.stored).filterMap taskEntry, ?_, fun level => ?_⟩
  · rw [map_taskEntry, List.map_append, List.filterMap_append, hpassed.items, htold.taken]
    congr 1
    rw [queued, TMsgQue.messages, htold.opened.holds.queue, List.map_map]
    rfl
  · have horder : (given ++ a.stored).filter (·.prio = level) =
        (accepted 0 calls).filter (·.prio = level) :=
      filter_prio_eq_of_perm hpassed.perm hpassed.inTurn (accepted_inTurn 0 calls) level
    rw [filter_taskEntry, htold.added, horder]

/-- One worker, and a thread that adds three tasks, the last as the pool is being stopped. -/
def threeTasks : List (Deed ℕ) :=
  [.move (.addTask 2), .move (.act 2 (.sendMessage (some 5) 0)), .move (.act 2 .insert),
    .move (.act 2 .unlock), .move (.check 0), .move (.act 0 (.recvMessage 0 true true)),
    .move (.act 0 .tryPend), .move (.act 0 .take), .move (.act 0 .unlock), .work 0 true,
    .move (.addTask 2), .move (.act 2 (.sendMessage (some 6) 0)), .move (.act 2 .insert),
    .move (.act 2 .unlock), .move (.addTask 2), .move (.check 0),
    .move (.act 0 (.recvMessage 0 true true)), .move .stop, .move (.act 0 .tryPend),
    .move (.act 0 .take), .move (.act 0 .unlock), .work 0 false, .move (.check 0),
    .move (.act 1 (.sendMessage none 0)), .move (.act 1 .insert), .move (.act 1 .unlock),
    .move (.act 2 (.sendMessage (some 7) 0)), .move (.act 2 .insert), .move (.act 2 .unlock)]

/-- The first is done, the second, taken after the pool has been told to stop, is let go, and the
third comes too late for the worker and is thrown away. -/
theorem late_task_thrown_away : ∃ (s : Crew ℕ ℕ) (log : List (Event ℕ)),
    run step (start 1 1 16 1) threeTasks = some (s, log) ∧
    log = [.added 5 0, .taken 0 5, .done 0 5, .added 6 0, .taken 0 6, .dropped 0 6, .added 7 0] ∧
    (∀ i, takenBy i log = dealtBy i log ++ s.hand i) ∧
    s.Joined ∧ s.queued = [7] ∧ s.clean.queued = [] := by
  obtain ⟨s, log, hrun, hlog, hstopped, hworkers, hqueued⟩ :
      ∃ (s : Crew ℕ ℕ) (log : List (Event ℕ)),
      run step (start 1 1 16 1) threeTasks = some (s, log) ∧
      log = [.added 5 0, .taken 0 5, .done 0 5, .added 6 0, .taken 0 6, .dropped 0 6,
        .added 7 0] ∧ s.pool.Stopped ∧ s.pool.workers = [.done] ∧ s.queued = [7] :=
    ⟨_, _, rfl, rfl, rfl, rfl, rfl⟩
  obtain ⟨-, hdealt, hclean⟩ := tasks_dealt_with_once 1 1 16 1 threeTasks hrun
  have hjoined : s.Joined := ⟨hstopped, by simp [hworkers]⟩
  exact ⟨s, log, hrun, hlog, hdealt, hjoined, hqueued, (hclean hjoined).2⟩

end Runs

end Crew

end DataEngine.ThreadPool
