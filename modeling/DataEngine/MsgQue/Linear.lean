import DataEngine.MsgQue.Concurrent

/-!
What the threads see of a message queue they share.

A call takes effect in one of its moves: `sendMessage` where it inserts its message or finds the
list full, `recvMessage` where it takes the front. In the order of these moves the calls are
calls of one thread alone, and so the queue of all is the queue of one. A `recvMessage` that
returns `false` changes nothing and is left out: it may do so while the last message waits for a
receiver that holds its permit.
-/

namespace DataEngine.MsgQue

open Lib.Machine Lib.PriorityList

variable {T σ : Type}

/-! ### Calls of one thread -/

/-- A call after calls that have all returned. -/
lemma PrioQueue.run_snoc {queueSize prioLevel : ℤ} {a a' a'' : PrioQueue T} {c : Call T}
    {r : Result T} {log : List (Call T × Result T)}
    (hrun : a.run queueSize prioLevel (log.map Prod.fst) = (log, a'))
    (hcall : a'.call queueSize prioLevel c = some (r, a'')) :
    a.run queueSize prioLevel ((log ++ [(c, r)]).map Prod.fst) = (log ++ [(c, r)], a'') := by
  induction log generalizing a with
  | nil =>
    obtain rfl : a = a' := congrArg Prod.snd hrun
    simp [PrioQueue.run, hcall]
  | cons x log ih =>
    obtain ⟨c', r'⟩ := x
    rw [List.map_cons, PrioQueue.run] at hrun
    rw [List.cons_append, List.map_cons, PrioQueue.run]
    rcases hcall' : a.call queueSize prioLevel c' with _ | ⟨r₁, a₁⟩
    · rw [hcall'] at hrun
      simp at hrun
    · simp only [hcall', Prod.mk.injEq, List.cons.injEq, true_and] at hrun ⊢
      obtain ⟨⟨rfl, hlog⟩, ha⟩ := hrun
      have hrest := ih (a := a₁) (Prod.ext hlog ha)
      rw [hrest]
      exact ⟨⟨rfl, rfl⟩, rfl⟩

lemma accepted_append (n : ℕ) (log log' : List (Call T × Result T)) :
    accepted n (log ++ log') = accepted n log ++ accepted (n + (accepted n log).length) log' := by
  induction n, log using accepted.induct with
  | case1 n => rfl
  | case2 n message priority log ih =>
    rw [List.cons_append, accepted, accepted, ih, List.cons_append, List.length_cons]
    congr 3
    omega
  | case3 n x log hx ih =>
    rw [List.cons_append, accepted, accepted, ih]
    all_goals exact hx

lemma delivered_append (log log' : List (Call T × Result T)) :
    delivered (log ++ log') = delivered log ++ delivered log' := by
  induction log using delivered.induct with
  | case1 => rfl
  | case2 _ _ message log ih => rw [List.cons_append, delivered, delivered, ih, List.cons_append]
  | case3 x log hx ih =>
    rw [List.cons_append, delivered, delivered, ih]
    all_goals exact hx

/-- The accepted messages are numbered as they come. -/
lemma accepted_inTurn (n : ℕ) (log : List (Call T × Result T)) :
    (accepted n log).Pairwise InTurn := by
  induction n, log using accepted.induct with
  | case1 n => exact .nil
  | case2 n message priority log ih =>
    rw [accepted]
    exact List.pairwise_cons.mpr ⟨fun e he _ => number_le_of_accepted he, ih⟩
  | case3 n x log hx ih =>
    rw [accepted]
    · exact ih
    · exact hx

/-! ### Moves in which calls take effect -/

namespace Shared

/-- The call of thread `t` that takes effect in the move, and what it returns. -/
def effect (s : Shared T σ) (t : ℕ) : Act T → List (Call T × Result T)
  | .insert =>
    match s.threads[t]? with
    | some (.sending message priority) =>
      [(.sendMessage message priority, .sent (decide ((s.que.queue.length : ℤ) < s.que.queSize)))]
    | _ => []
  | .take =>
    match s.threads[t]?, s.que.queue with
    | some (.permitted bDeque), n :: _ =>
      [(.recvMessage 0 true bDeque, .received (some n.message))]
    | _, _ => []
  | _ => []

variable [Semaphore σ]

/-- A move, with the call that takes effect in it. -/
def observe (s : Shared T σ) (m : ℕ × Act T) : Option (Shared T σ × List (Call T × Result T)) :=
  (s.step m).map fun r => (r.1, s.effect m.1 m.2)

/-- The queue holds these messages, and nobody cleans it. -/
structure Open (queueSize prioLevel : ℤ) (s : Shared T σ) (a : PrioQueue T) : Prop where
  counted : s.Counted
  mutex : ∀ t, s.mutex = some t → t < s.threads.length
  holds : Holds s.que a
  queSize : s.que.queSize = queueSize
  prioLevel : s.que.prioLevel = prioLevel
  cleaning : .cleaning ∉ s.threads

section Open

variable {queueSize prioLevel : ℤ} {s s' : Shared T σ} {a : PrioQueue T} {t : ℕ}

lemma open_start (n : ℕ) (queueSize prioLevel : ℤ) :
    Open queueSize prioLevel (start n queueSize prioLevel : Shared T σ) PrioQueue.empty where
  counted := counted_start n queueSize prioLevel
  mutex := nofun
  holds := (setParam_stores queueSize prioLevel).toHolds
  queSize := rfl
  prioLevel := rfl
  cleaning h := by cases List.eq_of_mem_replicate h

/-- Thread `t` goes on and touches the semaphore at most. -/
structure Quiet (s s' : Shared T σ) (t : ℕ) : Prop where
  queue : s'.que.queue = s.que.queue
  prioIter : s'.que.prioIter = s.que.prioIter
  next : s'.que.next = s.que.next
  queSize : s'.que.queSize = s.que.queSize
  prioLevel : s'.que.prioLevel = s.que.prioLevel
  threads : ∃ pc, s'.threads = s.threads.set t pc ∧ pc ≠ .cleaning

/-- The messages change where one is inserted, taken or dropped, and nowhere else. -/
lemma quiet_of_act {b : Act T} (h : s.act t b = some (.ok s')) (hinsert : b ≠ .insert)
    (htake : b ≠ .take) (hclean : b ≠ .clean) (hpop : b ≠ .popBack) : Quiet s s' t := by
  obtain ⟨pc, -, h⟩ := Option.bind_eq_some_iff.mp h
  cases b with
  | insert => exact absurd rfl hinsert
  | take => exact absurd rfl htake
  | clean => exact absurd rfl hclean
  | popBack => exact absurd rfl hpop
  | pend =>
    cases pc with
    | pending =>
      obtain ⟨semphore, -, h⟩ := Option.bind_eq_some_iff.mp h
      obtain rfl := Except.ok.inj (Option.some.inj h)
      exact ⟨rfl, rfl, rfl, rfl, rfl, _, rfl, fun h => by cases h⟩
    | _ => cases h
  | _ =>
    cases pc <;> try cases h
    all_goals
      first
        | exact ⟨rfl, rfl, rfl, rfl, rfl, _, rfl, fun h => by cases h⟩
        | simp only [next] at h
          repeat' split at h
          all_goals
            cases h
            try exact ⟨rfl, rfl, rfl, rfl, rfl, _, rfl, fun h => by cases h⟩

omit [Semaphore σ] in
lemma not_mem_set {pc : Pc T} (hs : .cleaning ∉ s.threads) (hpc : pc ≠ .cleaning) :
    .cleaning ∉ s.threads.set t pc := fun hmem =>
  (List.mem_or_eq_of_mem_set hmem).elim hs fun h => hpc h.symm

/-- The mutex passes to the thread that moves. -/
lemma Acted.held {pc pc' : Pc T} (h : Acted s s' t pc pc')
    (hs : ∀ t, s.mutex = some t → t < s.threads.length) (u : ℕ) (hu : s'.mutex = some u) :
    u < s'.threads.length := by
  rw [h.threads, List.length_set]
  rcases h.mutex with ⟨hm, -⟩ | ⟨-, hm, -⟩ | ⟨-, hm, -⟩
  · exact hs u (hm.symm.trans hu)
  · obtain rfl := Option.some.inj (hm.symm.trans hu)
    exact (List.getElem?_eq_some_iff.mp h.here).1
  · cases hm.symm.trans hu

lemma Open.quiet (ha : Open queueSize prioLevel s a) {b : Act T}
    (hact : s.act t b = some (.ok s')) (h : Quiet s s' t) : Open queueSize prioLevel s' a where
  counted :=
    let ⟨_, _, hacted⟩ := acted_of_act hact
    hacted.counted ha.counted
  mutex :=
    let ⟨_, _, hacted⟩ := acted_of_act hact
    hacted.held ha.mutex
  holds :=
    { queue := h.queue.trans ha.holds.queue
      prioIter := by rw [h.prioIter, h.prioLevel, ha.holds.prioIter]
      next := h.next.trans ha.holds.next }
  queSize := h.queSize.trans ha.queSize
  prioLevel := h.prioLevel.trans ha.prioLevel
  cleaning := by
    obtain ⟨pc, hthreads, hpc⟩ := h.threads
    rw [hthreads]
    exact not_mem_set ha.cleaning hpc

/-- **`sendMessage`** takes effect where it inserts its message, and that never faults. -/
lemma Open.insert (ha : Open queueSize prioLevel s a) {message : T} {priority : ℤ}
    (ht : s.threads[t]? = some (.sending message priority)) :
    ∃ s' a' r, s.act t .insert = some (.ok s') ∧ Open queueSize prioLevel s' a' ∧
      s.effect t .insert = [(.sendMessage message priority, r)] ∧
      a.call queueSize prioLevel (.sendMessage message priority) = some (r, a') := by
  obtain ⟨h0, hlevel⟩ := ha.counted.priority t message priority ht
  have hlength : s.que.queue.length = a.stored.length := by
    rw [ha.holds.queue, List.length_map]
  have hact : s.act t .insert = s.next t (.sending message priority) .insert := by
    unfold act
    rw [ht]
    rfl
  have heffect : s.effect t .insert = [(.sendMessage message priority,
      .sent (decide ((s.que.queue.length : ℤ) < s.que.queSize)))] := by
    unfold effect
    rw [ht]
  by_cases hfull : s.que.queSize ≤ s.que.queue.length
  · have hacted : s.act t .insert = some (.ok (s.goto t .leaving)) := by
      rw [hact, next, if_pos hfull]
    refine ⟨_, a, _, hacted,
      ha.quiet hacted ⟨rfl, rfl, rfl, rfl, rfl, _, rfl, fun h => by cases h⟩, heffect, ?_⟩
    rw [PrioQueue.call, if_neg (by rw [← hlength, ← ha.queSize]; omega),
      decide_eq_false (not_lt.mpr hfull)]
  · obtain ⟨p, rfl⟩ : ∃ p : ℕ, priority = p := ⟨priority.toNat, by omega⟩
    obtain ⟨que, hpush, hholds, hkeeps⟩ := push_holds ha.holds message hlevel
    set s' : Shared T σ :=
      ({ s with que := que }.setSem (Semaphore.post que.semphore)).goto t .leaving with hs'
    have hacted : s.act t .insert = some (.ok s') := by
      rw [hact, next, if_neg hfull, Int.toNat_natCast, hpush]
      rfl
    obtain ⟨_, _, hmove⟩ := acted_of_act hacted
    refine ⟨s', a.send message p, _, hacted, ⟨hmove.counted ha.counted, hmove.held ha.mutex,
      ⟨hholds.queue, hholds.prioIter, hholds.next⟩, hkeeps.queSize.trans ha.queSize,
      hkeeps.prioLevel.trans ha.prioLevel, not_mem_set ha.cleaning fun h => by cases h⟩,
      heffect, ?_⟩
    have hlt := not_le.mp hfull
    rw [PrioQueue.call, if_pos (by rw [← hlength, ← ha.queSize, ← ha.prioLevel]; exact
      ⟨h0, hlevel, hlt⟩), decide_eq_true hlt]

/-- **`recvMessage`** takes effect where it takes the front, and that never faults. -/
lemma Open.take (ha : Open queueSize prioLevel s a) {bDeque : Bool}
    (ht : s.threads[t]? = some (.permitted bDeque)) :
    ∃ s' a' r, s.act t .take = some (.ok s') ∧ Open queueSize prioLevel s' a' ∧
      s.effect t .take = [(.recvMessage 0 true bDeque, r)] ∧
      a.call queueSize prioLevel (.recvMessage 0 true bDeque) = some (r, a') := by
  have hact : s.act t .take = s.next t (.permitted bDeque) .take := by
    unfold act
    rw [ht]
    rfl
  obtain ⟨e, es, hstored⟩ : ∃ e es, a.stored = e :: es := by
    refine List.exists_cons_of_ne_nil fun hnil => ha.counted.queue_ne_nil ht ?_
    rw [ha.holds.queue, hnil]
    rfl
  have hqueue : s.que.queue = node e :: es.map node := by
    rw [ha.holds.queue, hstored, List.map_cons]
  have heffect : s.effect t .take = [(.recvMessage 0 true bDeque, .received (some e.item))] := by
    unfold effect
    rw [ht, hqueue]
    rfl
  have hcall : a.call queueSize prioLevel (.recvMessage 0 true bDeque) =
      some (.received (some e.item), if bDeque then a.recv else a) := by
    rw [PrioQueue.call, if_neg (by decide), hstored]
  have hfront : s.que.front = .ok e.item := by
    rw [TMsgQue.front, hqueue]
    rfl
  cases bDeque with
  | true =>
    obtain ⟨que, hpop, hholds, hkeeps⟩ := popFront_holds ha.holds hstored
    have hacted : s.act t .take = some (.ok ({ s with que := que }.goto t .leaving)) := by
      rw [hact, next, hfront]
      simp [bind, Except.bind, hpop]
    obtain ⟨_, _, hmove⟩ := acted_of_act hacted
    exact ⟨_, a.recv, _, hacted, ⟨hmove.counted ha.counted,
      hmove.held ha.mutex, hholds,
      hkeeps.queSize.trans ha.queSize, hkeeps.prioLevel.trans ha.prioLevel,
      not_mem_set ha.cleaning fun h => by cases h⟩, heffect, hcall⟩
  | false =>
    have hacted : s.act t .take =
        some (.ok ((s.setSem (Semaphore.post s.que.semphore)).goto t .leaving)) := by
      rw [hact, next, hfront]
      rfl
    exact ⟨_, a, _, hacted,
      ha.quiet hacted ⟨rfl, rfl, rfl, rfl, rfl, _, rfl, fun h => by cases h⟩, heffect, hcall⟩

/-- A call of one thread alone, or none, for every move. -/
lemma Open.act (ha : Open queueSize prioLevel s a) {b : Act T} (hb : b ≠ .clean)
    {r : Except Fault (Shared T σ)} (h : s.act t b = some r) :
    ∃ s' a', r = .ok s' ∧ Open queueSize prioLevel s' a' ∧
      (s.effect t b = [] ∧ a' = a ∨
        ∃ c res, s.effect t b = [(c, res)] ∧ a.call queueSize prioLevel c = some (res, a')) := by
  obtain ⟨pc, ht, hnext⟩ := Option.bind_eq_some_iff.mp h
  by_cases hinsert : b = .insert
  · subst hinsert
    cases pc with
    | sending message priority =>
      obtain ⟨s', a', res, hact, ha', heffect, hcall⟩ := ha.insert ht
      exact ⟨s', a', Option.some.inj (h.symm.trans hact), ha', .inr ⟨_, res, heffect, hcall⟩⟩
    | _ => cases hnext
  by_cases htake : b = .take
  · subst htake
    cases pc with
    | permitted bDeque =>
      obtain ⟨s', a', res, hact, ha', heffect, hcall⟩ := ha.take ht
      exact ⟨s', a', Option.some.inj (h.symm.trans hact), ha', .inr ⟨_, res, heffect, hcall⟩⟩
    | _ => cases hnext
  have hpop : b ≠ .popBack := by
    rintro rfl
    cases pc with
    | cleaning => exact ha.cleaning (List.mem_of_getElem? ht)
    | _ => cases hnext
  rcases r with f | s'
  · obtain ⟨message, priority, -, hsending, -⟩ := act_error ha.counted h
    obtain rfl := Option.some.inj (ht.symm.trans hsending)
    cases b <;> first | exact absurd rfl hinsert | cases hnext
  · refine ⟨s', a, rfl, ha.quiet h (quiet_of_act h hinsert htake hb hpop), .inl ⟨?_, rfl⟩⟩
    cases b <;> first | rfl | exact absurd rfl hinsert | exact absurd rfl htake

end Open

/-! ### Runs -/

section Runs

variable {queueSize prioLevel : ℤ} {s s' : Shared T σ} {a : PrioQueue T}

/-- The calls that have taken effect so far are those of one thread. -/
lemma run_open {n : ℕ} {ms : List (ℕ × Act T)} {log : List (Call T × Result T)}
    (hrun : run observe (start n queueSize prioLevel : Shared T σ) ms = some (s, log))
    (hclean : ∀ m ∈ ms, m.2 ≠ .clean) :
    ∃ a, Open queueSize prioLevel s a ∧
      PrioQueue.empty.run queueSize prioLevel (log.map Prod.fst) = (log, a) := by
  refine run_inv (C := fun _ m => m.2 ≠ .clean)
    (I := fun _ s log => ∃ a, Open queueSize prioLevel s a ∧
      PrioQueue.empty.run queueSize prioLevel (log.map Prod.fst) = (log, a))
    ⟨_, open_start n queueSize prioLevel, rfl⟩ ?_ hrun
    (along_of_forall (fun m hm _ => hclean m hm) _)
  rintro ms s log m s' o ⟨a, ha, hlog⟩ hm hstep
  obtain ⟨⟨u, _⟩, hmove, heq⟩ := Option.map_eq_some_iff.mp hstep
  obtain ⟨rfl, rfl⟩ := Prod.mk.inj heq
  obtain ⟨s', a', hr, ha', heffect⟩ := ha.act hm (step_eq_some hmove)
  obtain rfl := Except.ok.inj hr
  refine ⟨a', ha', ?_⟩
  rcases heffect with ⟨heffect, rfl⟩ | ⟨c, res, heffect, hcall⟩
  · rw [heffect, List.append_nil, hlog]
  · rw [heffect]
    exact PrioQueue.run_snoc hlog hcall

/-- **Calls of many threads are calls of one.** As long as nobody cleans the queue, the calls in
the order in which they take effect return what they return to one thread that makes them in
this order: what is stored and what has been received are the accepted messages, each once, and
among equals in the order in which they came. No move ever faults. -/
theorem calls_as_of_one_thread (n : ℕ) (queueSize prioLevel : ℤ) (ms : List (ℕ × Act T))
    (hclean : ∀ m ∈ ms, m.2 ≠ .clean) {log : List (Call T × Result T)}
    (hrun : run observe (start n queueSize prioLevel : Shared T σ) ms = some (s, log)) :
    (∃ a given, PrioQueue.empty.run queueSize prioLevel (log.map Prod.fst) = (log, a) ∧
      s.que.messages = a.stored.map Entry.item ∧ a.stored.Pairwise Before ∧
      given.map Entry.item = delivered log ∧ (given ++ a.stored).Perm (accepted 0 log) ∧
      (given ++ a.stored).Pairwise InTurn) ∧
    ∀ t b f, b ≠ .clean → s.act t b ≠ some (.error f) := by
  obtain ⟨a, ha, hlog⟩ := run_open hrun hclean
  obtain ⟨given, hpassed⟩ :=
    PrioQueue.empty.run_passed queueSize prioLevel (log.map Prod.fst)
  rw [hlog] at hpassed
  refine ⟨⟨a, given, hlog, ?_, a.ordered, hpassed.items, hpassed.perm, hpassed.inTurn⟩,
    fun t b f hb h => ?_⟩
  · rw [TMsgQue.messages, ha.holds.queue, List.map_map]
    rfl
  · obtain ⟨_, _, hr, -⟩ := ha.act hb h
    cases hr

/-- A receiver that waits is woken by one message and takes another, sent after it with a
higher priority. -/
theorem woken_by_another :
    (∀ m ∈ [(0, Act.recvMessage 0 true true), (0, .tryPend), (0, .unlock),
      (1, .sendMessage 7 0), (1, .insert), (0, .pend), (1, .unlock), (1, .sendMessage 8 1),
      (1, .insert), (1, .unlock), (0, .lock), (0, .take)], m.2 ≠ (.clean : Act ℕ)) ∧
    ∃ (s : Shared ℕ ℕ) (log : List (Call ℕ × Result ℕ)) (a : PrioQueue ℕ),
      run observe (start 2 4 2) [(0, .recvMessage 0 true true), (0, .tryPend), (0, .unlock),
        (1, .sendMessage 7 0), (1, .insert), (0, .pend), (1, .unlock), (1, .sendMessage 8 1),
        (1, .insert), (1, .unlock), (0, .lock), (0, .take)] = some (s, log) ∧
      delivered log = [8] ∧ PrioQueue.empty.run 4 2 (log.map Prod.fst) = (log, a) ∧
      a.stored.map Entry.item = [7] := by
  have hclean : ∀ m ∈ [(0, Act.recvMessage 0 true true), (0, .tryPend), (0, .unlock),
      (1, .sendMessage 7 0), (1, .insert), (0, .pend), (1, .unlock), (1, .sendMessage 8 1),
      (1, .insert), (1, .unlock), (0, .lock), (0, .take)], m.2 ≠ (.clean : Act ℕ) := by
    simp
  obtain ⟨⟨a, -, hlog, hstored, -⟩, -⟩ :=
    calls_as_of_one_thread (σ := ℕ) 2 4 2 _ hclean rfl
  exact ⟨hclean, _, _, a, rfl, rfl, hlog, hstored.symm⟩

end Runs

end Shared

end DataEngine.MsgQue
