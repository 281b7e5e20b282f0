import DataEngine.Thread.Tasks

/-!
A pool to which no more tasks are added deals with those it has.

Every move of a thread that goes on with what it has begun, and every move of a worker, brings the
pool nearer to its end; and where none is possible, nothing is left to do. So it does not
matter in which order the threads move. A worker lets a task go only where `looping` tells it so,
which can happen though nobody stops the pool: the monitor of the threads may store a time-out
while the worker asks.
-/

namespace DataEngine.ThreadPool

open MsgQue MsgQue.Shared Lib.Counting Lib.Machine Lib.PriorityList

variable {T σ : Type}

/-- Nobody begins to add a task, and nobody stops the pool; what `looping` says is left open. -/
def Deed.Inner : Deed T → Prop
  | .work _ _ => True
  | .move (.check _) => True
  | .move (.act _ (.sendMessage _ _)) => False
  | .move (.act _ _) => True
  | .move _ => False

/-! ### How much is left to do -/

/-- How far a thread is from leaving the queue. -/
def distance : Pc (Option T) → ℕ
  | .out | .cleaning => 0
  | .sending _ _ => 18
  | .trying _ _ _ => 5
  | .refused _ _ => 4
  | .pending _ _ => 3
  | .pended _ _ => 2
  | .permitted _ => 1
  | .leaving => 8

/-- How far a worker is from calling `recvMessage`. -/
def Worker.distance : Worker → ℕ
  | .check => 7
  | .call => 6
  | .receiving | .done => 0

namespace Crew

/-- Every message costs a worker one round, and a task in its hands one move more. -/
def remaining (s : Crew T σ) : ℕ :=
  (s.pool.shared.threads.map distance).sum + (s.pool.workers.map Worker.distance).sum +
    9 * s.pool.shared.que.queue.length + s.hands.countP Option.isSome

variable [Semaphore σ]

/-- A move of a thread inside the queue, with what it takes. -/
lemma distance_of_act {s s' : Shared (Option T) σ} {t : ℕ} {a : Act (Option T)}
    {pc : Pc (Option T)} (ht : s.threads[t]? = some pc) (hin : isOut pc = false)
    (hpc : Receives pc ∨ Sends pc) (h : s.act t a = some (.ok s')) :
    ∃ pc', s'.threads = s.threads.set t pc' ∧
      distance pc' + 9 * s'.que.queue.length + (if isOut pc' then 7 else 0) +
        (taken ((s.effect t a).flatMap (Event.ofCall t))).length <
          distance pc + 9 * s.que.queue.length := by
  have hnext := next_of_act ht h
  cases pc with
  | out => cases hin
  | cleaning => exact absurd hpc (not_or.mpr ⟨id, id⟩)
  | sending message priority =>
    cases a with
    | insert =>
      have hnone : taken ((s.effect t .insert).flatMap (Event.ofCall t)) = [] := by
        rcases message with _ | task
        · simp [effect, ht, Event.ofCall, taken]
        · by_cases hroom : (s.que.queue.length : ℤ) < s.que.queSize <;>
            simp [effect, ht, Event.ofCall, taken, hroom]
      have hacted := acted_sending ht hnext
      refine ⟨.leaving, hacted.threads, ?_⟩
      have hlength : s'.que.queue.length ≤ s.que.queue.length + 1 := by
        simp only [next] at hnext
        split_ifs at hnext
        · obtain rfl := Except.ok.inj (Option.some.inj hnext)
          exact Nat.le_succ _
        · obtain ⟨que, hpush, hnext⟩ := Lib.Effect.bind_eq_ok.mp (Option.some.inj hnext)
          obtain rfl := Except.ok.inj hnext
          exact (push_grown hpush).queue.le
      rw [hnone]
      simp [distance, isOut]
      omega
    | _ => cases hnext
  | trying timeWait wait bDeque =>
    obtain ⟨rfl, rfl, rfl⟩ : timeWait = 0 ∧ wait ∧ bDeque := hpc.resolve_right id
    cases a with
    | tryPend =>
      simp only [next] at hnext
      split at hnext <;> cases hnext
      · exact ⟨.permitted true, rfl, by simp [distance, isOut, effect, taken, setSem, goto]⟩
      · exact ⟨.refused 0 true, rfl, by simp [distance, isOut, effect, taken, goto]⟩
    | _ => cases hnext
  | refused timeWait bDeque =>
    cases a with
    | unlock =>
      cases hnext
      exact ⟨.pending timeWait bDeque, rfl, by simp [distance, isOut, effect, taken, leave]⟩
    | _ => cases hnext
  | pending timeWait bDeque =>
    obtain ⟨rfl, rfl⟩ : timeWait = 0 ∧ bDeque := hpc.resolve_right id
    cases a with
    | pend =>
      obtain ⟨semphore, -, hnext⟩ := Option.bind_eq_some_iff.mp hnext
      cases hnext
      exact ⟨.pended true true, rfl, by simp [distance, isOut, effect, taken, setSem, goto]⟩
    | _ => cases hnext
  | pended ret bDeque =>
    obtain ⟨rfl, rfl⟩ : ret ∧ bDeque := hpc.resolve_right id
    cases a with
    | lock =>
      simp only [next] at hnext
      split_ifs at hnext
      cases hnext
      exact ⟨.permitted true, rfl, by simp [distance, isOut, effect, taken, enter]⟩
    | _ => cases hnext
  | permitted bDeque =>
    obtain rfl : bDeque = true := hpc.resolve_right id
    cases a with
    | take =>
      refine ⟨.leaving, (acted_permitted ht hnext).threads, ?_⟩
      have hlength : s'.que.queue.length + 1 = s.que.queue.length := by
        obtain ⟨_, -, hnext⟩ := Lib.Effect.bind_eq_ok.mp (Option.some.inj hnext)
        obtain ⟨que, hpop, hnext⟩ := Lib.Effect.bind_eq_ok.mp hnext
        obtain rfl := Except.ok.inj hnext
        exact (popFront_grown hpop).queue
      have hone : (taken ((s.effect t .take).flatMap (Event.ofCall t))).length ≤ 1 := by
        rcases hqueue : s.que.queue with _ | ⟨⟨addr, _ | task⟩, queue⟩ <;>
          simp [effect, ht, hqueue, Event.ofCall, taken]
      simp only [distance, isOut, Bool.false_eq_true, if_false]
      omega
    | _ => cases hnext
  | leaving =>
    cases a with
    | unlock =>
      cases hnext
      refine ⟨.out, rfl, ?_⟩
      simp only [distance, isOut, effect, taken, leave, List.flatMap_nil, List.filterMap_nil,
        List.length_nil, if_true]
      omega
    | _ => cases hnext

omit [Semaphore σ] in
/-- Hands fill as tasks are taken. -/
lemma countP_hold_le (hands : List (Option T)) (events : List (Event T)) :
    (events.foldl hold hands).countP Option.isSome ≤
      hands.countP Option.isSome + (taken events).length := by
  induction events generalizing hands with
  | nil => exact le_rfl
  | cons e events ih =>
    have hhead : (hold hands e).countP Option.isSome + (taken events).length ≤
        hands.countP Option.isSome + (taken (e :: events)).length := by
      have hset (i : ℕ) (x : Option T) : (hands.set i x).countP Option.isSome ≤
          hands.countP Option.isSome + x.isSome.toNat := by
        rcases hi : hands[i]? with _ | y
        · rw [List.set_eq_of_length_le (List.getElem?_eq_none_iff.mp hi)]
          exact Nat.le_add_right _ _
        · have := countP_set_add Option.isSome hi x
          omega
      cases e with
      | added task level => exact le_rfl
      | taken i task =>
        have := hset i (some task)
        simp only [hold, taken, List.filterMap_cons, List.length_cons] at this ⊢
        simp only [Option.isSome_some, Bool.toNat_true] at this
        omega
      | done i task => exact Nat.add_le_add_right (hset i none) _
      | dropped i task => exact Nat.add_le_add_right (hset i none) _
    exact (ih (hold hands e)).trans hhead

section Step

variable {s u : Crew T σ} {o : List (Event T)}

/-- A worker that calls `recvMessage`, or a thread inside the queue -/
lemma Manned.remaining_act (hs : s.Manned) {t : ℕ} {a : Act (Option T)}
    {shared : Shared (Option T) σ} (hinner : (Deed.move (.act t a)).Inner)
    (hmay : s.pool.mayAct t a) (hact : s.pool.shared.act t a = some (.ok shared)) :
    remaining (⟨s.pool.goOn t shared, (s.events (.act t a)).foldl hold s.hands⟩ : Crew T σ) <
      s.remaining := by
  obtain ⟨pc, _, hacted⟩ := acted_of_act hact
  have ht := hacted.here
  have hhands := countP_hold_le s.hands (s.events (.act t a))
  rcases hin : isOut pc with _ | _
  · have hpc : Receives pc ∨ Sends pc := by
      rcases lt_or_ge t s.pool.stopper with hlt | hge
      · exact .inl (hs.receives t pc hlt ht).1
      · exact .inr (hs.sends t pc hge ht)
    obtain ⟨pc', hthreads, hless⟩ := distance_of_act ht hin hpc hact
    have hself : shared.threads[t]? = some pc' := by
      rw [hthreads]
      exact List.getElem?_set_self (List.getElem?_eq_some_iff.mp ht).1
    have hset := sum_map_set_add distance ht pc'
    -- a worker that comes out is to look at the flag
    have hworkers : ((s.pool.goOn t shared).workers.map Worker.distance).sum ≤
        (s.pool.workers.map Worker.distance).sum + if isOut pc' then 7 else 0 := by
      simp only [Pool.goOn, hself, Option.any_some]
      rcases hw : s.pool.workers[t]? with _ | w
      · rw [List.set_eq_of_length_le (List.getElem?_eq_none_iff.mp hw)]
        exact Nat.le_add_right _ _
      · have hset := sum_map_set_add Worker.distance hw (if isOut pc' then .check else .receiving)
        have hnew : Worker.distance (if isOut pc' then .check else .receiving) =
            if isOut pc' then 7 else 0 := by
          cases isOut pc' <;> rfl
        omega
    show (shared.threads.map distance).sum + ((s.pool.goOn t shared).workers.map _).sum +
      9 * shared.que.queue.length + _ < _
    rw [hthreads, remaining]
    simp only [events] at hhands ⊢
    omega
  · obtain rfl : pc = .out := by
      cases pc <;> simp_all [isOut]
    obtain ⟨-, ⟨timeWait, wait, bDeque, rfl, hm⟩ | ⟨message, priority, rfl, -⟩ | rfl⟩ :=
      act_out ht hact
    · simp only [Pool.mayAct, Bool.and_eq_true, decide_eq_true_eq] at hmay
      obtain ⟨⟨⟨hcall, rfl⟩, rfl⟩, rfl⟩ := hmay
      have hque : shared.que = s.pool.shared.que := by
        have hnext := next_of_act ht hact
        simp only [next] at hnext
        split_ifs at hnext
        cases hnext
        rfl
      have hself : shared.threads[t]? = some (.trying 0 true true) := Pool.returned_eq ht hm
      have hset := sum_map_set_add distance ht (.trying 0 true true)
      have hset' := sum_map_set_add Worker.distance hcall .receiving
      simp only [distance, Worker.distance] at hset hset'
      have hworkers : (s.pool.goOn t shared).workers = s.pool.workers.set t .receiving := by
        simp [Pool.goOn, hself, isOut]
      show (shared.threads.map distance).sum + ((s.pool.goOn t shared).workers.map _).sum +
        9 * shared.que.queue.length + _ < _
      rw [hm.threads, hworkers, hque, remaining]
      simp only [events, effect, List.flatMap_nil, List.foldl_nil]
      omega
    · exact absurd hinner id
    · cases hmay

/-- **One move** brings the pool nearer to its end. -/
lemma Manned.remaining_lt (hs : s.Manned) {d : Deed T} (hd : d.Inner)
    (h : s.step d = some (u, o)) : u.remaining < s.remaining := by
  cases d with
  | work i looping =>
    simp only [Crew.step] at h
    split at h
    · next task _ hi =>
      obtain ⟨rfl, -⟩ := Prod.mk.inj (Option.some.inj h)
      have hhold : hold s.hands (if looping then Event.done i task else .dropped i task) =
          s.hands.set i none := by
        cases looping <;> rfl
      have hset := countP_set_add Option.isSome hi none
      simp only [remaining, hhold]
      simp only [Option.isSome_some, Option.isSome_none, Bool.toNat_true, Bool.toNat_false] at hset
      omega
    · cases h
  | move m =>
    simp only [Crew.step] at h
    split_ifs at h
    obtain ⟨⟨pool, _⟩, hpool, heq⟩ := Option.map_eq_some_iff.mp h
    obtain ⟨rfl, -⟩ := Prod.mk.inj heq
    cases m with
    | act t a =>
      simp only [Pool.step] at hpool
      split_ifs at hpool with hmay
      split at hpool
      · next shared hact =>
        obtain ⟨rfl, -⟩ := Prod.mk.inj (Option.some.inj hpool)
        exact hs.remaining_act hd hmay hact
      · cases hpool
    | check i =>
      simp only [Pool.step] at hpool
      split at hpool
      · next hi =>
        obtain ⟨rfl, -⟩ := Prod.mk.inj (Option.some.inj hpool)
        have hset := sum_map_set_add Worker.distance hi (if s.pool.bStart then .call else .done)
        have hnext : Worker.distance (if s.pool.bStart then .call else .done) ≤ 6 := by
          split_ifs <;> simp [Worker.distance]
        have hcheck : Worker.distance .check = 7 := rfl
        simp only [remaining, events, List.foldl_nil]
        omega
      · cases hpool
    | _ => exact absurd hd id

/-! ### When nothing is left to do -/

section Stuck

variable {taskNum prioNum : ℤ} {a : PrioQueue (Option T)} (hs : s.Manned)
  (hopen : Open taskNum prioNum s.pool.shared a) (hstuck : ∀ d : Deed T, d.Inner → s.step d = none)

include hopen hstuck

/-- A move that a thread could make would be a move of the pool. -/
lemma act_eq_none {t : ℕ} {b : Act (Option T)} (hinner : (Deed.move (.act t b)).Inner)
    (hmay : s.pool.mayAct t b) : s.pool.shared.act t b = none := by
  by_contra hne
  obtain ⟨r, hr⟩ := Option.ne_none_iff_exists'.mp hne
  have hclean : b ≠ .clean := by
    rintro rfl
    cases hmay
  obtain ⟨shared, _, rfl, -⟩ := hopen.act hclean hr
  have h := hstuck _ hinner
  simp [Crew.step, ready, Pool.step, hmay, hr] at h

/-- Whoever has the mutex can go on, so nobody has it. -/
lemma mutex_eq_none : s.pool.shared.mutex = none := by
  by_contra hne
  obtain ⟨t, ht⟩ := Option.ne_none_iff_exists'.mp hne
  obtain ⟨pc, hpc⟩ : ∃ pc, s.pool.shared.threads[t]? = some pc :=
    ⟨_, List.getElem?_eq_getElem (hopen.mutex t ht)⟩
  have hinside := (hopen.counted.mutex t _ hpc).mpr ht
  have hno (b : Act (Option T)) (hinner : (Deed.move (.act t b)).Inner)
      (hmay : s.pool.mayAct t b) : s.pool.shared.act t b = none :=
    act_eq_none hopen hstuck hinner hmay
  cases pc with
  | out | pending | pended => cases hinside
  | sending message priority =>
    obtain ⟨_, _, _, hact, -⟩ := hopen.insert hpc
    cases (hno .insert trivial rfl).symm.trans hact
  | trying timeWait wait bDeque =>
    have hact := hno .tryPend trivial rfl
    unfold act at hact
    rw [hpc] at hact
    rcases htry : Semaphore.tryPend s.pool.shared.que.semphore with _ | semphore <;>
      simp [next, htry] at hact
  | refused | leaving =>
    have hact := hno .unlock trivial rfl
    unfold act at hact
    rw [hpc] at hact
    cases hact
  | permitted bDeque =>
    obtain ⟨_, _, _, hact, -⟩ := hopen.take hpc
    cases (hno .take trivial rfl).symm.trans hact
  | cleaning => exact hopen.cleaning (List.mem_of_getElem? hpc)

include hs

/-- A worker can go on, unless it waits for a message. -/
lemma worker_pending (hstart : s.pool.bStart) {i : ℕ} (hi : i < s.pool.stopper) :
    s.pool.shared.threads[i]? = some (.pending 0 true) := by
  have hmutex := mutex_eq_none hopen hstuck
  obtain ⟨pc, hpc⟩ : ∃ pc, s.pool.shared.threads[i]? = some pc :=
    ⟨_, List.getElem?_eq_getElem (hi.trans hs.threads)⟩
  have hinside := hopen.counted.mutex i _ hpc
  obtain ⟨hrecv, hworker⟩ := hs.receives i _ hi hpc
  rw [hpc]
  rw [hmutex] at hinside
  cases pc with
  | pending timeWait bDeque =>
    obtain ⟨rfl, rfl⟩ := hrecv
    rfl
  | pended ret bDeque =>
    have hact := act_eq_none hopen hstuck (t := i) (b := .lock) trivial rfl
    unfold act at hact
    rw [hpc] at hact
    simp [next, hmutex] at hact
  | out =>
    obtain ⟨w, hw⟩ : ∃ w, s.pool.workers[i]? = some w := ⟨_, List.getElem?_eq_getElem hi⟩
    cases w with
    | receiving => cases hworker.mpr hw
    | done => exact absurd (List.mem_of_getElem? hw) (hs.bStart hstart)
    | call =>
      have hmay : s.pool.mayAct i (.recvMessage 0 true true) := by
        simp [Pool.mayAct, hw]
      have hact := act_eq_none hopen hstuck (b := .recvMessage 0 true true) trivial hmay
      unfold act at hact
      rw [hpc] at hact
      simp [next, hmutex] at hact
    | check =>
      rcases hhand : s.hands[i]?.join with _ | task
      · have h := hstuck (.move (.check i)) trivial
        simp [Crew.step, ready, Pool.step, hw, hhand] at h
      · have hhand : s.hands[i]? = some (some task) := Option.join_eq_some_iff.mp hhand
        have h := hstuck (.work i true) trivial
        simp [Crew.step, hw, hhand] at h
  | _ => simp [Pc.inside] at hinside

/-- **Where no move is possible** all tasks have been dealt with. -/
lemma all_done (hstart : s.pool.bStart) (hthread : 0 < s.pool.workers.length) :
    s.queued = [] ∧ ∀ i, s.hand i = [] := by
  have hpending {i : ℕ} (hi : i < s.pool.stopper) := worker_pending hs hopen hstuck hstart hi
  have hcount : Semaphore.count s.pool.shared.que.semphore = 0 := by
    have hact := act_eq_none hopen hstuck (t := 0) (b := .pend) trivial rfl
    unfold act at hact
    rw [hpending hthread] at hact
    refine Semaphore.tryPend_eq_none.mp ?_
    rcases htry : Semaphore.tryPend s.pool.shared.que.semphore with _ | semphore
    · rfl
    · simp [next, htry] at hact
  have hholds := hs.countP_holds fun i pc hi hpc => by
    rw [← Option.some.inj ((hpending hi).symm.trans hpc)]
    rfl
  have hqueue : s.pool.shared.que.queue = [] := by
    have hbalance := hopen.counted.balance
    rw [hcount, hholds] at hbalance
    exact List.length_eq_zero_iff.mp hbalance.symm
  refine ⟨by simp [queued, TMsgQue.messages, hqueue], fun i => hand_eq_nil fun hbusy => ?_⟩
  have hi := hs.lt_of_busy hbusy
  exact hs.not_busy hi (hpending hi) rfl rfl hbusy

end Stuck

/-! ### Runs -/

lemma step_same {d : Deed T} (h : s.step d = some (u, o)) :
    u.pool.workers.length = s.pool.workers.length ∧
      (d.Inner → u.pool.bStart = s.pool.bStart) := by
  cases d with
  | work i looping =>
    simp only [Crew.step] at h
    split at h
    · obtain ⟨rfl, -⟩ := Prod.mk.inj (Option.some.inj h)
      exact ⟨rfl, fun _ => rfl⟩
    · cases h
  | move m =>
    simp only [Crew.step] at h
    split_ifs at h
    obtain ⟨⟨pool, _⟩, hpool, heq⟩ := Option.map_eq_some_iff.mp h
    obtain ⟨rfl, -⟩ := Prod.mk.inj heq
    cases m with
    | act t a =>
      simp only [Pool.step] at hpool
      split_ifs at hpool
      split at hpool
      · obtain ⟨rfl, -⟩ := Prod.mk.inj (Option.some.inj hpool)
        exact ⟨List.length_set, fun _ => rfl⟩
      · cases hpool
    | check i =>
      simp only [Pool.step] at hpool
      split at hpool
      · obtain ⟨rfl, -⟩ := Prod.mk.inj (Option.some.inj hpool)
        exact ⟨List.length_set, fun _ => rfl⟩
      · cases hpool
    | _ =>
      simp only [Pool.step] at hpool
      split_ifs at hpool
      obtain ⟨rfl, -⟩ := Prod.mk.inj (Option.some.inj hpool)
      exact ⟨rfl, fun hinner => absurd hinner id⟩

/-- Inner moves, from wherever the pool is -/
lemma run_inner (hs : s.Manned) {ds : List (Deed T)} (hinner : ∀ d ∈ ds, d.Inner)
    (hrun : run step s ds = some (u, o)) :
    u.remaining + ds.length ≤ s.remaining ∧ u.pool.bStart = s.pool.bStart := by
  refine (run_inv (C := fun _ d => d.Inner) (I := fun ds u _ => u.Manned ∧
    u.remaining + ds.length ≤ s.remaining ∧ u.pool.bStart = s.pool.bStart) ⟨hs, le_rfl, rfl⟩ ?_
    hrun (along_of_forall (fun d hd _ => hinner d hd) s)).2
  rintro ds u _ d v _ ⟨hu, hle, hstart⟩ hd hstep
  have hless := hu.remaining_lt hd hstep
  refine ⟨(hu.step hstep).1, ?_, ((step_same hstep).2 hd).trans hstart⟩
  rw [List.length_append, List.length_singleton]
  omega

/-- A worker lets a task go where `looping` says no. -/
lemma dropped_of_step {d : Deed T} (h : s.step d = some (u, o)) {i : ℕ} {task : T}
    (hdropped : .dropped i task ∈ o) : d = .work i false := by
  cases d with
  | work j looping =>
    simp only [Crew.step] at h
    split at h
    · obtain ⟨-, rfl⟩ := Prod.mk.inj (Option.some.inj h)
      cases looping with
      | true => cases List.mem_singleton.mp hdropped
      | false =>
        obtain ⟨rfl, -⟩ := Event.dropped.inj (List.mem_singleton.mp hdropped)
        rfl
    · cases h
  | move m =>
    simp only [Crew.step] at h
    split_ifs at h
    obtain ⟨_, -, heq⟩ := Option.map_eq_some_iff.mp h
    obtain ⟨-, rfl⟩ := Prod.mk.inj heq
    cases m with
    | act t a =>
      obtain ⟨x, -, hx⟩ := List.mem_flatMap.mp hdropped
      simp only [Event.ofCall] at hx
      split at hx <;> simp at hx
    | _ => cases hdropped

lemma dropped_of_run {ds : List (Deed T)} (hrun : run step s ds = some (u, o)) (i : ℕ) (task : T)
    (hdropped : .dropped i task ∈ o) : .work i false ∈ ds := by
  refine run_inv (C := fun _ _ => True) (I := fun ds _ o => .dropped i task ∈ o →
    .work i false ∈ ds) (fun h => by cases h) ?_ hrun (along_true _ _) hdropped
  rintro ds _ log d _ o hlog - hstep hmem
  rcases List.mem_append.mp hmem with hmem | hmem
  · exact List.mem_append_left _ (hlog hmem)
  · rw [dropped_of_step hstep hmem]
    exact List.mem_append_right _ (List.mem_singleton_self _)

/-- **All tasks get done**, those apart at which `looping` says no. From wherever a started pool
has come to, if nobody adds tasks and nobody stops it, its threads make no more than a number of
moves known beforehand, in whatever order; where none of them can move, no task waits and no
worker has one in its hands; and a task is let go only where `looping` has said no. -/
theorem all_tasks_get_done (threadNum others : ℕ) (taskNum prioNum : ℤ) (hthread : 1 ≤ threadNum)
    (ds : List (Deed T)) {log : List (Event T)}
    (hrun : run step (start threadNum others taskNum prioNum) ds = some (s, log))
    (hstart : s.pool.bStart) (ds' : List (Deed T)) (hinner : ∀ d ∈ ds', d.Inner)
    (hrun' : run step s ds' = some (u, o)) :
    ds'.length ≤ s.remaining ∧
      ((∀ d : Deed T, d.Inner → u.step d = none) → u.queued = [] ∧ ∀ i, u.hand i = []) ∧
      ∀ i task, .dropped i task ∈ o → .work i false ∈ ds' := by
  obtain ⟨hs, -, -⟩ := run_told hrun
  obtain ⟨hle, hsame⟩ := run_inner hs hinner hrun'
  have hall : run step (start threadNum others taskNum prioNum) (ds ++ ds') = some (u, log ++ o) :=
    run_append.mpr ⟨s, log, o, hrun, hrun', rfl⟩
  have hworkers : u.pool.workers.length = threadNum :=
    run_inv (C := fun _ _ => True) (I := fun _ u _ => u.pool.workers.length = threadNum)
      List.length_replicate
      (fun _ _ _ _ _ _ hlen _ hstep => (step_same hstep).1.trans hlen) hall (along_true _ _)
  obtain ⟨hu, ⟨a, calls, htold⟩, -⟩ := run_told hall
  exact ⟨by omega, fun hstuck => all_done hu htold.opened hstuck (hsame.trans hstart) (by omega),
    dropped_of_run hrun'⟩

/-- A task waits for the one worker, which takes it, does it, and then waits for another. -/
theorem waiting_task_gets_done :
    ∃ (s u : Crew ℕ ℕ) (log o : List (Event ℕ)), (1 : ℕ) ≤ 1 ∧
      run step (start 1 1 16 1) [.move (.addTask 2), .move (.act 2 (.sendMessage (some 5) 0)),
        .move (.act 2 .insert)] = some (s, log) ∧ s.pool.bStart ∧
      run step s [.move (.act 2 .unlock), .move (.check 0),
        .move (.act 0 (.recvMessage 0 true true)), .move (.act 0 .tryPend),
        .move (.act 0 .take), .move (.act 0 .unlock), .work 0 true, .move (.check 0),
        .move (.act 0 (.recvMessage 0 true true)), .move (.act 0 .tryPend),
        .move (.act 0 .unlock)] = some (u, o) ∧
      o = [.taken 0 5, .done 0 5] ∧ s.remaining = 24 ∧ 11 ≤ s.remaining ∧
      (∀ d : Deed ℕ, d.Inner → u.step d = none) ∧ u.queued = [] ∧ ∀ i, u.hand i = [] := by
  obtain ⟨hle, hstuck, -⟩ := all_tasks_get_done (σ := ℕ) 1 1 16 1 le_rfl
    [.move (.addTask 2), .move (.act 2 (.sendMessage (some 5) 0)), .move (.act 2 .insert)] rfl rfl
    [.move (.act 2 .unlock), .move (.check 0), .move (.act 0 (.recvMessage 0 true true)),
      .move (.act 0 .tryPend), .move (.act 0 .take), .move (.act 0 .unlock), .work 0 true,
      .move (.check 0), .move (.act 0 (.recvMessage 0 true true)), .move (.act 0 .tryPend),
      .move (.act 0 .unlock)] (by simp [Deed.Inner]) rfl
  refine ⟨_, _, _, _, le_rfl, rfl, rfl, rfl, rfl, rfl, hle, ?hend, hstuck ?hend⟩
  intro d _
  match d with
  | .work 0 _ | .work (i + 1) _ | .move (.check 0) | .move (.check (i + 1)) => rfl
  | .move (.act 0 a) | .move (.act 1 a) | .move (.act 2 a) | .move (.act (t + 3) a) =>
    cases a <;> rfl

end Step

end Crew

end DataEngine.ThreadPool
