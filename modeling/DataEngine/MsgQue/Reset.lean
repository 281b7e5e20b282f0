import DataEngine.MsgQue.MsgQue

/-!
Cleaning the message queue.

All messages are thrown away, but no iterator is touched. Those that pointed at the end still
do; one that pointed at a message is left with a node that is no longer there, and the next
message of its priority is inserted at it.
-/

namespace DataEngine.MsgQue

open Lib.PriorityList

variable {T σ : Type} [Semaphore σ] {q : TMsgQue T σ} {a : PrioQueue T}

/-- The loop ends with the messages, or before if the permits do. -/
def TMsgQue.clean (q : TMsgQue T σ) : TMsgQue T σ :=
  if _hempty : q.queue = [] then q
  else
    match Semaphore.tryPend q.semphore with
    | some s => clean { q with semphore := s, queue := q.queue.dropLast }
    | none => q
termination_by q.queue.length
decreasing_by
  have := List.length_pos_iff.mpr _hempty
  simp only [List.length_dropLast]
  omega

/-- With a permit for each message, all of them go. -/
lemma clean_eq {n : ℕ} (hlen : q.queue.length = n) (hcount : Semaphore.count q.semphore = n) :
    ∃ s : σ, q.clean = { q with semphore := s, queue := [] } ∧ Semaphore.count s = 0 := by
  induction n generalizing q with
  | zero =>
    obtain ⟨queue, prioIter, semphore, queSize, prioLevel, next⟩ := q
    obtain rfl := List.length_eq_zero_iff.mp hlen
    refine ⟨semphore, ?_, hcount⟩
    rw [TMsgQue.clean, dif_pos rfl]
  | succ n ih =>
    have hne : q.queue ≠ [] := by
      rintro hempty
      rw [hempty] at hlen
      simp at hlen
    rcases hs : Semaphore.tryPend q.semphore with _ | s
    · rw [Semaphore.tryPend_eq_none] at hs
      omega
    · have hleft := Semaphore.count_of_tryPend hs
      obtain ⟨s', hclean, hs'⟩ := ih (q := { q with semphore := s, queue := q.queue.dropLast })
        (by rw [List.length_dropLast, hlen]; rfl) (by show Semaphore.count s = n; omega)
      refine ⟨s', ?_, hs'⟩
      rw [TMsgQue.clean, dif_neg hne]
      simp only [hs, hclean]

/-! ### Queues that differ in the numbers of their messages -/

/-- The same messages in the same order, whenever they came -/
def SameMessages (a b : PrioQueue T) : Prop := List.Forall₂ Alike a.stored b.stored

section SameMessages

variable {b : PrioQueue T} (h : SameMessages a b)

include h

lemma SameMessages.send (message : T) (prio : ℤ) :
    SameMessages (a.send message prio) (b.send message prio) :=
  alike_place ⟨rfl, rfl⟩ h

/-- One call -/
lemma SameMessages.call (queueSize prioLevel : ℤ) (c : Call T) :
    a.call queueSize prioLevel c = none ∧ b.call queueSize prioLevel c = none ∨
      ∃ r a' b', a.call queueSize prioLevel c = some (r, a') ∧
        b.call queueSize prioLevel c = some (r, b') ∧ SameMessages a' b' := by
  cases c with
  | sendMessage message priority =>
    rw [PrioQueue.call, PrioQueue.call, ← List.Forall₂.length_eq h]
    split_ifs
    · exact .inr ⟨_, _, _, rfl, rfl, h.send message priority⟩
    · exact .inr ⟨_, _, _, rfl, rfl, h⟩
  | recvMessage timeWait wait bDeque =>
    rw [PrioQueue.call, PrioQueue.call]
    by_cases ht : timeWait < 0
    · rw [if_pos ht, if_pos ht]
      exact .inr ⟨_, _, _, rfl, rfl, h⟩
    rw [if_neg ht, if_neg ht]
    have hstored : List.Forall₂ Alike a.stored b.stored := h
    rcases ha : a.stored with _ | ⟨e, es⟩ <;> rcases hb : b.stored with _ | ⟨f, fs⟩ <;>
      rw [ha, hb] at hstored
    · by_cases hwait : (wait && timeWait = 0) = true
      · exact .inl ⟨if_pos hwait, if_pos hwait⟩
      · exact .inr ⟨_, _, _, if_neg hwait, if_neg hwait, h⟩
    · cases hstored
    · cases hstored
    · obtain ⟨hef, hrest⟩ := List.forall₂_cons.mp hstored
      refine .inr ⟨_, _, if bDeque then b.recv else b, rfl, by rw [hef.2], ?_⟩
      cases bDeque with
      | false => exact h
      | true =>
        show List.Forall₂ Alike a.stored.tail b.stored.tail
        rw [ha, hb]
        exact hrest

end SameMessages

/-- Such queues answer alike. -/
lemma SameMessages.run {b : PrioQueue T} (h : SameMessages a b) (queueSize prioLevel : ℤ)
    (calls : List (Call T)) :
    (a.run queueSize prioLevel calls).1 = (b.run queueSize prioLevel calls).1 := by
  induction calls generalizing a b with
  | nil => rfl
  | cons c calls ih =>
    rw [PrioQueue.run, PrioQueue.run]
    rcases h.call queueSize prioLevel c with ⟨ha, hb⟩ | ⟨r, a', b', ha, hb, h'⟩
    · rw [ha, hb]
    · rw [ha, hb]
      exact congrArg ((c, r) :: ·) (ih h')

/-! ### What is queued -/

/-- Only a message of a priority there is gets in, and only if there is room. -/
def Within (queueSize prioLevel : ℤ) (a : PrioQueue T) : Prop :=
  ∀ e ∈ a.stored, 0 ≤ e.prio ∧ e.prio < prioLevel ∧ 0 < queueSize

lemma Within.call {queueSize prioLevel : ℤ} (h : Within queueSize prioLevel a) {c : Call T}
    {r : Result T} {a' : PrioQueue T} (hcall : a.call queueSize prioLevel c = some (r, a')) :
    Within queueSize prioLevel a' := by
  cases c with
  | sendMessage message priority =>
    rw [PrioQueue.call] at hcall
    split_ifs at hcall with hp
    · obtain ⟨-, rfl⟩ := Prod.mk.inj (Option.some.inj hcall)
      intro e he
      rcases mem_place.mp he with rfl | he
      · exact ⟨hp.1, hp.2.1, (Int.natCast_nonneg _).trans_lt hp.2.2⟩
      · exact h e he
    · obtain ⟨-, rfl⟩ := Prod.mk.inj (Option.some.inj hcall)
      exact h
  | recvMessage timeWait wait bDeque =>
    rw [PrioQueue.call] at hcall
    by_cases ht : timeWait < 0
    · rw [if_pos ht] at hcall
      obtain ⟨-, rfl⟩ := Prod.mk.inj (Option.some.inj hcall)
      exact h
    rw [if_neg ht] at hcall
    rcases ha : a.stored with _ | ⟨e, es⟩ <;> simp only [ha] at hcall
    · split_ifs at hcall
      obtain ⟨-, rfl⟩ := Prod.mk.inj (Option.some.inj hcall)
      exact h
    · obtain ⟨-, rfl⟩ := Prod.mk.inj (Option.some.inj hcall)
      cases bDeque with
      | false => exact h
      | true => exact fun f hf => h f (List.mem_of_mem_tail hf)

lemma Within.run {queueSize prioLevel : ℤ} (h : Within queueSize prioLevel a)
    (calls : List (Call T)) : Within queueSize prioLevel (a.run queueSize prioLevel calls).2 := by
  induction calls generalizing a with
  | nil => exact h
  | cons c calls ih =>
    rw [PrioQueue.run]
    rcases hcall : a.call queueSize prioLevel c with _ | ⟨r, a'⟩
    · exact h
    · exact ih (h.call hcall)

/-- The messages queued after the calls -/
def queued (queueSize prioLevel : ℤ) (calls : List (Call T)) : List (Entry ℤ T) :=
  (PrioQueue.empty.run queueSize prioLevel calls).2.stored

/-! ### What cleaning leaves -/

/-- `TMsgQue(queueSize, priLevel)` -/
def TMsgQue.create (queueSize priLevel : ℤ) : TMsgQue T σ := init.setParam queueSize priLevel

/-- What the calls return, or the fault they end in -/
def TMsgQue.results (q : TMsgQue T σ) (calls : List (Call T)) :
    Except Fault (List (Call T × Result T)) :=
  Prod.fst <$> q.run calls

omit [Semaphore σ] in
/-- No iterator points at a node that is not in the list. -/
def TMsgQue.Sound (q : TMsgQue T σ) : Prop :=
  ∀ n, some n ∈ q.prioIter → n ∈ q.queue.map Node.addr

lemma Stores.results (h : Stores q a) (calls : List (Call T)) :
    q.results calls = .ok (a.run q.queSize q.prioLevel calls).1 := by
  obtain ⟨q', hrun, -, -⟩ := run_refines h calls
  rw [TMsgQue.results, hrun]
  rfl

/-- No messages, and the numbers go on. -/
def PrioQueue.cleared (a : PrioQueue T) : PrioQueue T :=
  { PrioQueue.empty with next := a.next, fresh := nofun }

section Clean

variable (h : Stores q a)

include h

lemma Stores.clean : ∃ s : σ, q.clean = { q with semphore := s, queue := [] } ∧
    Semaphore.count s = 0 :=
  clean_eq (by rw [h.queue, List.length_map]) h.count

/-- Nothing below the highest priority is queued: all iterators are at the end. -/
lemma Stores.clean_of_top (htop : ∀ e ∈ a.stored, e.prio = q.prioLevel - 1) :
    Stores q.clean a.cleared ∧ SameParam q q.clean := by
  obtain ⟨s, hclean, hs⟩ := h.clean
  rw [hclean]
  refine ⟨⟨⟨rfl, ?_, h.next⟩, hs⟩, rfl, rfl⟩
  show q.prioIter = _
  rw [h.prioIter]
  refine List.map_congr_left fun i hi => ?_
  have hlt := List.mem_range.mp hi
  have hnone : mark (i : ℤ) a.stored = none := mark_eq_none_iff.mpr fun e he => by
    have := htop e he
    omega
  rw [hnone]
  rfl

/-- The iterator of the highest priority is left at a node that has gone. -/
lemma Stores.clean_dangling {e : Entry ℤ T} (he : e ∈ a.stored) (hlo : 0 ≤ e.prio)
    (hlt : e.prio < q.prioLevel - 1) :
    ∃ n, q.clean.prioIter[(q.prioLevel - 1).toNat]? = some (some n) ∧ q.clean.queue = [] := by
  obtain ⟨s, hclean, -⟩ := h.clean
  obtain ⟨n, hn⟩ : ∃ n, mark (q.prioLevel - 1) a.stored = some n := by
    rw [← Option.ne_none_iff_exists']
    intro hnone
    exact absurd (mark_eq_none_iff.mp hnone e he) (not_le.mpr hlt)
  refine ⟨n, ?_, by rw [hclean]⟩
  rw [hclean]
  show q.prioIter[_]? = _
  rw [h.prioIter, List.getElem?_map, List.getElem?_range (by omega), ← hn, Option.map_some,
    Int.toNat_of_nonneg (by omega)]

end Clean

/-- The next message of that priority is inserted at it. -/
lemma sendMessage_dangling {n : ℕ} {priority : ℤ} (hlo : 0 ≤ priority)
    (hlt : priority < q.prioLevel) (hsize : 0 < q.queSize) (hqueue : q.queue = [])
    (hiter : q.prioIter[priority.toNat]? = some (some n)) (message : T) :
    q.sendMessage message priority = .error .undefined := by
  have hpush : q.push message priority.toNat = .error .undefined := by
    rw [TMsgQue.push, hiter]
    simp [insertAt, hqueue, bind, Except.bind]
  rw [TMsgQue.sendMessage, if_neg (by omega), if_neg (by simp [hqueue, hsize]), hpush]
  rfl

/-- **Cleaning resets a queue just if** every message queued has the highest priority: then it
answers as a new one, and only then, and only then does no iterator point at what is gone. -/
theorem clean_resets_iff (queueSize prioLevel : ℤ) (calls : List (Call T)) :
    ∃ (log : List (Call T × Result T)) (q : TMsgQue T σ),
      (TMsgQue.create queueSize prioLevel).run calls = .ok (log, q) ∧
      q.messages = (queued queueSize prioLevel calls).map Entry.item ∧
      ((∀ more, q.clean.results more =
          (TMsgQue.create queueSize prioLevel : TMsgQue T σ).results more) ↔
        ∀ e ∈ queued queueSize prioLevel calls, e.prio = prioLevel - 1) ∧
      (q.clean.Sound ↔ ∀ e ∈ queued queueSize prioLevel calls, e.prio = prioLevel - 1) := by
  have hnew : Stores (TMsgQue.create queueSize prioLevel : TMsgQue T σ) PrioQueue.empty :=
    setParam_stores queueSize prioLevel
  obtain ⟨q, hrun, h, hparam⟩ := run_refines hnew calls
  obtain ⟨hsize, hlevel⟩ : q.queSize = queueSize ∧ q.prioLevel = prioLevel :=
    ⟨hparam.queSize, hparam.prioLevel⟩
  have hwithin : Within queueSize prioLevel (PrioQueue.empty.run queueSize prioLevel calls).2 :=
    Within.run (a := PrioQueue.empty) (by simp [Within, PrioQueue.empty]) calls
  -- the iterator and the node it is left at, if some message is of lower priority
  have hleft : ∀ e ∈ queued queueSize prioLevel calls, e.prio ≠ prioLevel - 1 →
      ∃ n, q.clean.prioIter[(prioLevel - 1).toNat]? = some (some n) ∧ q.clean.queue = [] := by
    intro e he hne
    obtain ⟨hlo, hlt, -⟩ := hwithin e he
    rw [← hlevel] at hlt hne ⊢
    exact h.clean_dangling he hlo (by omega)
  refine ⟨_, q, hrun, ?_, ⟨fun hsame e he => ?_, fun htop more => ?_⟩, fun hsound e he => ?_,
    fun htop n hn => ?_⟩
  · rw [TMsgQue.messages, h.queue, List.map_map]
    rfl
  · by_contra hne
    obtain ⟨hlo, hlt, hroom⟩ := hwithin e he
    obtain ⟨n, hiter, hqueue⟩ := hleft e he hne
    obtain ⟨s, hclean, -⟩ := h.clean
    have hfault : q.clean.sendMessage e.item (prioLevel - 1) = .error .undefined := by
      refine sendMessage_dangling (by omega) ?_ ?_ hqueue hiter e.item
      · rw [hclean]
        show prioLevel - 1 < q.prioLevel
        omega
      · rw [hclean]
        show 0 < q.queSize
        omega
    have hsend := hsame [.sendMessage e.item (prioLevel - 1)]
    rw [hnew.results, TMsgQue.results, TMsgQue.run, TMsgQue.call, hfault] at hsend
    cases hsend
  · obtain ⟨hstores, hsame⟩ := h.clean_of_top (hlevel ▸ htop)
    rw [hstores.results, hnew.results, hsame.queSize, hsame.prioLevel, hsize, hlevel]
    exact congrArg _ (SameMessages.run (by exact .nil) queueSize prioLevel more)
  · by_contra hne
    obtain ⟨n, hiter, hqueue⟩ := hleft e he hne
    have hn := hsound n (List.mem_of_getElem? hiter)
    rw [hqueue] at hn
    simp at hn
  · obtain ⟨hstores, -⟩ := h.clean_of_top (hlevel ▸ htop)
    rw [hstores.prioIter] at hn
    simp [PrioQueue.cleared, PrioQueue.empty, mark] at hn

/-- A message of the lower of two priorities is queued. -/
def lowQueued : TMsgQue ℕ ℕ := ⟨[⟨0, 7⟩], [none, some 0], 1, 4, 2, 1⟩

/-- It is cleaned away, and a message of the higher priority sent. -/
theorem stale_iterator_used : ¬ ∀ (queueSize prioLevel : ℤ) (calls more : List (Call ℕ))
    (log : List (Call ℕ × Result ℕ)) (q : TMsgQue ℕ ℕ),
    (TMsgQue.create queueSize prioLevel).run calls = .ok (log, q) →
      q.clean.results more = (TMsgQue.create queueSize prioLevel : TMsgQue ℕ ℕ).results more ∧
        q.clean.Sound := by
  intro h
  have hsame := (h 4 2 [.sendMessage 7 0] [.sendMessage 8 1] _ lowQueued rfl).1
  obtain ⟨s, hclean, -⟩ := clean_eq (q := lowQueued) (n := 1) rfl rfl
  rw [hclean] at hsame
  cases hsame

end DataEngine.MsgQue
