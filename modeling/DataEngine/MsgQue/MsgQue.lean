import DataEngine.Base
import DataEngine.Lib.Effect
import DataEngine.Lib.PriorityList
import DataEngine.Semaphore

/-!
The message queue with priorities.

The messages stand in a linked list. For every priority the queue keeps an iterator, which
points at the first message of lower priority, or at the end; a message is inserted there. Both
operations repair the iterators in a loop that stops at the first one they need not touch.

A node is known by an address that no other node has had. The iterators of a queue that is only
sent to and received from point at nodes of its list, so an address of the heap that is used
again cannot be told from a new one.
-/

namespace DataEngine.MsgQue

open Lib.Effect Lib.PriorityList

/-! ### The queue -/

structure Node (T : Type) where
  addr : ℕ
  message : T

/-- The address of a node, or `none` for the end of the list. -/
abbrev QueIter : Type := Option ℕ

structure TMsgQue (T σ : Type) where
  queue : List (Node T)
  prioIter : List QueIter
  semphore : σ
  queSize : ℤ
  prioLevel : ℤ
  /-- The address of the next node. -/
  next : ℕ

variable {T σ : Type}

/-- `m_queue.begin()` -/
def begin (queue : List (Node T)) : QueIter := queue.head?.map Node.addr

/-- `m_queue.insert(iter, message)`: an iterator of no node of the list may not be used. -/
def insertAt (iter : QueIter) (node : Node T) (queue : List (Node T)) :
    Except Fault (List (Node T)) :=
  match iter with
  | none => .ok (queue ++ [node])
  | some a =>
    if a ∈ queue.map Node.addr then
      .ok (queue.takeWhile (fun n => n.addr ≠ a) ++ node :: queue.dropWhile (fun n => n.addr ≠ a))
    else .error .undefined

/-- The loops over the iterators: from the first one on, those that are `oldIter` become
`newIter`, up to one that is not. -/
def repair (oldIter newIter : QueIter) : List QueIter → List QueIter
  | [] => []
  | iter :: iters =>
    if iter = oldIter then newIter :: repair oldIter newIter iters else iter :: iters

namespace TMsgQue

/-- What `sendMessage` does to the list and the iterators. -/
def push (q : TMsgQue T σ) (message : T) (priority : ℕ) : Except Fault (TMsgQue T σ) :=
  match q.prioIter[priority]? with
  | none => .error .undefined
  | some oldIter => do
    let queue ← insertAt oldIter ⟨q.next, message⟩ q.queue
    .ok { q with
      queue := queue
      prioIter := q.prioIter.take (priority + 1) ++
        repair oldIter (some q.next) (q.prioIter.drop (priority + 1))
      next := q.next + 1 }

def front (q : TMsgQue T σ) : Except Fault T :=
  match q.queue with
  | [] => .error .undefined
  | node :: _ => .ok node.message

/-- The iterators at the first node are advanced, and it is popped. -/
def popFront (q : TMsgQue T σ) : Except Fault (TMsgQue T σ) :=
  match q.queue with
  | [] => .error .undefined
  | _ :: queue => .ok { q with
      queue := queue
      prioIter := (repair (begin q.queue) (begin queue) q.prioIter.reverse).reverse }

variable [Semaphore σ]

/-- A queue as its constructor leaves it. -/
def init : TMsgQue T σ := ⟨[], [], Semaphore.create, 0, 1, 0⟩

/-- A number of levels below zero, for which `new` raises, is left out. -/
def setParam (q : TMsgQue T σ) (queueSize priLevel : ℤ) : TMsgQue T σ :=
  { q with
    queSize := queueSize
    prioLevel := priLevel
    prioIter := List.replicate priLevel.toNat (begin q.queue) }

def sendMessage (q : TMsgQue T σ) (message : T) (priority : ℤ) :
    Except Fault (Bool × TMsgQue T σ) :=
  if priority < 0 ∨ q.prioLevel ≤ priority then .ok (false, q)
  else if q.queSize ≤ q.queue.length then .ok (false, q)
  else do
    let q ← q.push message priority.toNat
    .ok (true, { q with semphore := Semaphore.post q.semphore })

/-- `none` if the call waits for ever: nobody else sends. A call that returns `false` has no
message. -/
def recvMessage (q : TMsgQue T σ) (timeWait : ℤ) (wait bDeque : Bool) :
    Except Fault (Option (Option T × TMsgQue T σ)) :=
  if timeWait < 0 then .ok (some (none, q))
  else
    match Semaphore.tryPend q.semphore with
    | none => if wait && timeWait = 0 then .ok none else .ok (some (none, q))
    | some s => do
      let q := { q with semphore := s }
      let message ← q.front
      if bDeque then
        let q ← q.popFront
        .ok (some (some message, q))
      else .ok (some (some message, { q with semphore := Semaphore.post q.semphore }))

/-- The stored messages in the order of the list. -/
def messages (q : TMsgQue T σ) : List T := q.queue.map Node.message

end TMsgQue

/-! ### What the queue is for -/

/-- A list of numbered messages in order of priority, and the number of the next one. -/
structure PrioQueue (T : Type) where
  stored : List (Entry ℤ T)
  next : ℕ
  ordered : stored.Pairwise Before
  distinct : Distinct stored
  fresh : ∀ e ∈ stored, e.number < next

namespace PrioQueue

def empty : PrioQueue T := ⟨[], 0, .nil, List.nodup_nil, by simp⟩

def send (a : PrioQueue T) (message : T) (prio : ℤ) : PrioQueue T where
  stored := place ⟨a.next, prio, message⟩ a.stored
  next := a.next + 1
  ordered := pairwise_place a.ordered a.fresh
  distinct := distinct_place a.distinct a.fresh
  fresh := by
    intro e he
    rcases mem_place.mp he with rfl | he
    · exact Nat.lt_succ_self _
    · exact (a.fresh e he).trans (Nat.lt_succ_self _)

def recv (a : PrioQueue T) : PrioQueue T where
  stored := a.stored.tail
  next := a.next
  ordered := a.ordered.tail
  distinct := by
    unfold Distinct
    rw [List.map_tail]
    exact List.Nodup.tail a.distinct
  fresh := fun e he => a.fresh e (List.mem_of_mem_tail he)

end PrioQueue

def node (e : Entry ℤ T) : Node T := ⟨e.number, e.item⟩

/-- The list holds these messages in this order, and the iterator of each priority points at
the first of lower priority. -/
structure Holds (q : TMsgQue T σ) (a : PrioQueue T) : Prop where
  queue : q.queue = a.stored.map node
  prioIter : q.prioIter = (List.range q.prioLevel.toNat).map fun i : ℕ => mark (i : ℤ) a.stored
  next : q.next = a.next

/-- The semaphore counts the messages as well. -/
structure Stores [Semaphore σ] (q : TMsgQue T σ) (a : PrioQueue T) : Prop extends Holds q a where
  count : Semaphore.count q.semphore = a.stored.length

/-! ### The loops over the iterators -/

/-- The loop finds all it has to change, if past the first iterator that is not the old one
there is none. -/
lemma repair_map {old new : QueIter} {g g' : ℕ → QueIter} {ks : List ℕ}
    (hloop : ks.Pairwise fun k l => g k ≠ old → g l ≠ old)
    (hnew : ∀ k ∈ ks, g' k = if g k = old then new else g k) :
    repair old new (ks.map g) = ks.map g' := by
  induction ks with
  | nil => rfl
  | cons k ks ih =>
    obtain ⟨hk, hloop⟩ := List.pairwise_cons.mp hloop
    rw [List.map_cons, List.map_cons, repair, hnew k (by simp)]
    by_cases hold : g k = old
    · rw [if_pos hold, if_pos hold, ih hloop fun l hl => hnew l (by simp [hl])]
    · rw [if_neg hold, if_neg hold]
      congr 1
      refine List.map_congr_left fun l hl => ?_
      rw [hnew l (by simp [hl]), if_neg (hk l hl hold)]

/-- A message inserted at the iterator of its priority comes to its place. -/
lemma insertAt_mark {e : Entry ℤ T} {es : List (Entry ℤ T)} (hd : Distinct es) :
    insertAt (mark e.prio es) (node e) (es.map node) = .ok ((place e es).map node) := by
  induction es with
  | nil => rfl
  | cons x xs ih =>
    obtain ⟨hne, hd'⟩ := distinct_cons.mp hd
    have ih := ih hd'
    unfold mark place
    by_cases hlt : x.prio < e.prio
    · rw [if_pos hlt, if_pos hlt]
      simp [insertAt, node]
    · rw [if_neg hlt, if_neg hlt]
      rcases hm : mark e.prio xs with _ | a
      · rw [hm] at ih
        simp only [insertAt, Except.ok.injEq] at ih ⊢
        rw [List.map_cons, List.map_cons, List.cons_append, ih]
      · obtain ⟨y, hy, rfl, -⟩ := mem_of_mark hm
        have hxy : x.number ≠ y.number := (hne y hy).symm
        have hin : y.number ∈ (xs.map node).map Node.addr := by
          simp only [List.map_map, List.mem_map, Function.comp_apply]
          exact ⟨y, hy, rfl⟩
        rw [hm] at ih
        simp only [insertAt, if_pos hin, Except.ok.injEq] at ih
        have hin' : y.number ∈ ((x :: xs).map node).map Node.addr := by
          rw [List.map_cons, List.map_cons]
          exact List.mem_cons_of_mem _ hin
        simp only [insertAt, if_pos hin', Except.ok.injEq]
        rw [List.map_cons, List.map_cons, ← ih, List.takeWhile_cons_of_pos,
          List.dropWhile_cons_of_pos, List.cons_append]
        all_goals exact decide_eq_true hxy

lemma begin_map (es : List (Entry ℤ T)) : begin (es.map node) = es.head?.map Entry.number := by
  cases es <;> rfl

/-! ### The operations -/

variable {q : TMsgQue T σ} {a : PrioQueue T}

/-- What an operation on the list leaves alone. -/
structure Keeps (q q' : TMsgQue T σ) : Prop where
  semphore : q'.semphore = q.semphore
  queSize : q'.queSize = q.queSize
  prioLevel : q'.prioLevel = q.prioLevel

/-- The list part of `sendMessage` stores the message, and the iterators mark the new list. -/
lemma push_holds (h : Holds q a) (message : T) {p : ℕ} (hp : (p : ℤ) < q.prioLevel) :
    ∃ q', q.push message p = .ok q' ∧ Holds q' (a.send message p) ∧ Keeps q q' := by
  set e : Entry ℤ T := ⟨a.next, p, message⟩ with he
  set n := q.prioLevel.toNat with hn
  have hlt : p < n := by omega
  have hiter : q.prioIter[p]? = some (mark (p : ℤ) a.stored) := by
    rw [h.prioIter, List.getElem?_map, List.getElem?_range hlt]
    rfl
  have hinsert : insertAt (mark (p : ℤ) a.stored) ⟨q.next, message⟩ q.queue =
      .ok ((place e a.stored).map node) := by
    rw [h.next, h.queue]
    exact insertAt_mark (e := e) a.distinct
  -- the iterators of lower priorities stay
  have hlow : q.prioIter.take (p + 1) =
      ((List.range n).take (p + 1)).map fun i : ℕ => mark (i : ℤ) (place e a.stored) := by
    rw [h.prioIter, ← List.map_take]
    refine List.map_congr_left fun i hi => ?_
    rw [List.take_range, List.mem_range] at hi
    rw [mark_place_of_le (by show (i : ℤ) ≤ p; omega)]
  -- those of higher priorities that were the one used now point at the new node
  have hhigh : repair (mark (p : ℤ) a.stored) (some q.next) (q.prioIter.drop (p + 1)) =
      ((List.range n).drop (p + 1)).map fun i : ℕ => mark (i : ℤ) (place e a.stored) := by
    rw [h.prioIter, ← List.map_drop]
    have hmem (i : ℕ) (hi : i ∈ (List.range n).drop (p + 1)) : p < i := by
      obtain ⟨k, hk, rfl⟩ := List.mem_drop_iff_getElem.mp hi
      rw [List.getElem_range]
      omega
    refine repair_map ?_ fun i hi => ?_
    · refine (List.pairwise_lt_range.drop (i := p + 1)).imp_of_mem fun {k l} hk hl hkl hne hl' => ?_
      have := hmem k hk
      exact hne (mark_eq_of_le a.ordered a.distinct (by omega) (by omega) hl')
    · have hpi := hmem i hi
      rw [mark_place_of_lt a.distinct (by show (p : ℤ) < i; omega), h.next]
  refine ⟨{ q with
    queue := (place e a.stored).map node
    prioIter := (List.range n).map fun i : ℕ => mark (i : ℤ) (place e a.stored)
    next := q.next + 1 }, ?_, ⟨rfl, rfl, congrArg (· + 1) h.next⟩, rfl, rfl, rfl⟩
  unfold TMsgQue.push
  rw [hiter]
  simp only [hinsert, hlow, hhigh]
  rw [← List.map_append, List.take_append_drop]
  rfl

/-- The first message leaves, and the iterators mark the rest. -/
lemma popFront_holds (h : Holds q a) {e : Entry ℤ T} {es : List (Entry ℤ T)}
    (ha : a.stored = e :: es) : ∃ q', q.popFront = .ok q' ∧ Holds q' a.recv ∧ Keeps q q' := by
  have hord := a.ordered
  have hdist := a.distinct
  rw [ha] at hord hdist
  have hqueue : q.queue = node e :: es.map node := by
    rw [h.queue, ha, List.map_cons]
  set n := q.prioLevel.toNat with hn
  have hmarks : (repair (begin q.queue) (begin (es.map node)) q.prioIter.reverse).reverse =
      (List.range n).map fun i : ℕ => mark (i : ℤ) es := by
    have hfirst : begin q.queue = some e.number := by
      rw [hqueue]
      rfl
    have hloop : repair (some e.number) (es.head?.map Entry.number)
        ((List.range n).reverse.map fun i : ℕ => mark (i : ℤ) (e :: es)) =
        (List.range n).reverse.map fun i : ℕ => mark (i : ℤ) es := by
      refine repair_map (List.pairwise_reverse.mpr ?_) fun i _ => ?_
      · refine List.pairwise_lt_range.imp fun {k l} hkl hne hk => hne ?_
        have hlt := (mark_eq_first hdist).mp hk
        exact (mark_eq_first hdist).mpr (by omega)
      · by_cases hlt : e.prio < i
        · rw [if_pos ((mark_eq_first hdist).mpr hlt), mark_tail_of_lt hord hlt]
        · rw [if_neg fun hm => hlt ((mark_eq_first hdist).mp hm), mark_tail_of_le (not_lt.mp hlt)]
    rw [hfirst, begin_map, h.prioIter, ha, ← List.map_reverse, hloop, List.map_reverse,
      List.reverse_reverse]
  refine ⟨{ q with
    queue := es.map node
    prioIter := (List.range n).map fun i : ℕ => mark (i : ℤ) es }, ?_, ⟨?_, ?_, h.next⟩,
    rfl, rfl, rfl⟩
  · unfold TMsgQue.popFront
    rw [hqueue] at hmarks ⊢
    simp only [hmarks]
  · show es.map node = a.stored.tail.map node
    rw [ha]
    rfl
  · show (List.range n).map _ = (List.range n).map fun i : ℕ => mark (i : ℤ) a.stored.tail
    rw [ha]
    rfl

/-! ### Calls -/

section Calls

variable [Semaphore σ]

lemma setParam_stores (queueSize priLevel : ℤ) :
    Stores ((TMsgQue.init : TMsgQue T σ).setParam queueSize priLevel) PrioQueue.empty where
  queue := rfl
  prioIter := by
    show List.replicate priLevel.toNat none = _
    refine List.ext_getElem (by simp [TMsgQue.setParam]) fun i _ _ => ?_
    simp [PrioQueue.empty, mark]
  next := rfl
  count := Semaphore.count_create

/-- Whether a queue takes a message of a priority. -/
def Takes (q : TMsgQue T σ) (priority : ℤ) : Prop :=
  0 ≤ priority ∧ priority < q.prioLevel ∧ (q.queue.length : ℤ) < q.queSize

instance (q : TMsgQue T σ) (priority : ℤ) : Decidable (Takes q priority) :=
  inferInstanceAs (Decidable (_ ∧ _))

/-- The parameters of the queue. -/
structure SameParam (q q' : TMsgQue T σ) : Prop where
  queSize : q'.queSize = q.queSize
  prioLevel : q'.prioLevel = q.prioLevel

/-- **`sendMessage`** takes a message if there is room for it and its priority is one. -/
theorem sendMessage_stores (h : Stores q a) (message : T) (priority : ℤ) :
    ∃ q', q.sendMessage message priority = .ok (decide (Takes q priority), q') ∧
      Stores q' (if Takes q priority then a.send message priority else a) ∧ SameParam q q' := by
  by_cases hprio : priority < 0 ∨ q.prioLevel ≤ priority
  · have hnot : ¬ Takes q priority := by
      rintro ⟨h0, h1, -⟩
      omega
    refine ⟨q, ?_, ?_, rfl, rfl⟩
    · rw [TMsgQue.sendMessage, if_pos hprio, decide_eq_false hnot]
    · rwa [if_neg hnot]
  by_cases hsize : q.queSize ≤ q.queue.length
  · have hnot : ¬ Takes q priority := by
      rintro ⟨-, -, h2⟩
      omega
    refine ⟨q, ?_, ?_, rfl, rfl⟩
    · rw [TMsgQue.sendMessage, if_neg hprio, if_pos hsize, decide_eq_false hnot]
    · rwa [if_neg hnot]
  have htakes : Takes q priority := ⟨by omega, by omega, by omega⟩
  obtain ⟨p, rfl⟩ : ∃ p : ℕ, priority = p := ⟨priority.toNat, by omega⟩
  obtain ⟨q', hpush, hholds, hkeeps⟩ := push_holds h.toHolds message (p := p) (by omega)
  refine ⟨{ q' with semphore := Semaphore.post q'.semphore }, ?_, ?_, hkeeps.queSize,
    hkeeps.prioLevel⟩
  · rw [TMsgQue.sendMessage, if_neg hprio, if_neg hsize, decide_eq_true htakes, Int.toNat_natCast,
      hpush]
    rfl
  · rw [if_pos htakes]
    refine ⟨⟨hholds.queue, hholds.prioIter, hholds.next⟩, ?_⟩
    show Semaphore.count (Semaphore.post q'.semphore) = (place _ a.stored).length
    rw [Semaphore.count_post, hkeeps.semphore, h.count, length_place]

/-- **`recvMessage`** yields the first message. -/
theorem recvMessage_first (h : Stores q a) {timeWait : ℤ} (ht : 0 ≤ timeWait) (wait bDeque : Bool)
    {e : Entry ℤ T} {es : List (Entry ℤ T)} (ha : a.stored = e :: es) :
    ∃ q', q.recvMessage timeWait wait bDeque = .ok (some (some e.item, q')) ∧
      Stores q' (if bDeque then a.recv else a) ∧ SameParam q q' := by
  have hcount := h.count
  rw [ha, List.length_cons] at hcount
  rcases hs : Semaphore.tryPend q.semphore with _ | s
  · rw [Semaphore.tryPend_eq_none] at hs
    omega
  have hleft := Semaphore.count_of_tryPend hs
  set r : TMsgQue T σ := { q with semphore := s } with hr
  have hholds : Holds r a := ⟨h.queue, h.prioIter, h.next⟩
  have hfront : r.front = .ok e.item := by
    rw [TMsgQue.front, hholds.queue, ha]
    rfl
  unfold TMsgQue.recvMessage
  rw [if_neg (by omega), hs]
  cases bDeque with
  | true =>
    obtain ⟨q', hpop, hholds', hkeeps⟩ := popFront_holds hholds ha
    refine ⟨q', ?_, ⟨hholds', ?_⟩, hkeeps.queSize, hkeeps.prioLevel⟩
    · simp only [← hr, hfront]
      simp [bind, Except.bind, hpop]
    · rw [hkeeps.semphore]
      show Semaphore.count s = a.stored.tail.length
      rw [ha, List.tail_cons]
      omega
  | false =>
    refine ⟨{ r with semphore := Semaphore.post s }, ?_,
      ⟨⟨hholds.queue, hholds.prioIter, hholds.next⟩, ?_⟩, rfl, rfl⟩
    · simp only [← hr, hfront]
      rfl
    · show Semaphore.count (Semaphore.post s) = a.stored.length
      rw [Semaphore.count_post, ← hleft, h.count]

/-- With nothing stored a call waits for ever, or returns `false`. -/
theorem recvMessage_empty (h : Stores q a) {timeWait : ℤ} (ht : 0 ≤ timeWait) (wait bDeque : Bool)
    (ha : a.stored = []) : q.recvMessage timeWait wait bDeque =
      .ok (if wait && timeWait = 0 then none else some (none, q)) := by
  have hcount := h.count
  rw [ha, List.length_nil] at hcount
  have hs := Semaphore.tryPend_eq_none.mpr hcount
  unfold TMsgQue.recvMessage
  rw [if_neg (by omega), hs]
  simp only
  split_ifs <;> rfl

end Calls

/-! ### Runs of calls -/

inductive Call (T : Type) where
  | sendMessage (message : T) (priority : ℤ)
  | recvMessage (timeWait : ℤ) (wait bDeque : Bool)

/-- What a call returned, with the message if it is one that receives. -/
inductive Result (T : Type) where
  | sent (accepted : Bool)
  | received (message : Option T)

/-- The accepted messages, numbered from `n` on as they came. -/
def accepted (n : ℕ) : List (Call T × Result T) → List (Entry ℤ T)
  | [] => []
  | (.sendMessage message priority, .sent true) :: log =>
    ⟨n, priority, message⟩ :: accepted (n + 1) log
  | _ :: log => accepted n log

/-- The messages taken out of the queue. -/
def delivered : List (Call T × Result T) → List T
  | [] => []
  | (.recvMessage _ _ true, .received (some message)) :: log => message :: delivered log
  | _ :: log => delivered log

section Runs

variable [Semaphore σ]

/-- `none` if the call waits for ever. -/
def TMsgQue.call (q : TMsgQue T σ) : Call T → Except Fault (Option (Result T × TMsgQue T σ))
  | .sendMessage message priority => do
    let (ok, q) ← q.sendMessage message priority
    .ok (some (.sent ok, q))
  | .recvMessage timeWait wait bDeque => do
    match ← q.recvMessage timeWait wait bDeque with
    | none => .ok none
    | some (message, q) => .ok (some (.received message, q))

/-- The calls one after the other, up to one that waits for ever. -/
def TMsgQue.run (q : TMsgQue T σ) :
    List (Call T) → Except Fault (List (Call T × Result T) × TMsgQue T σ)
  | [] => .ok ([], q)
  | c :: cs => do
    match ← q.call c with
    | none => .ok ([], q)
    | some (r, q) =>
      let (log, q) ← q.run cs
      .ok ((c, r) :: log, q)

/-- What a call yields, of a queue with these parameters that holds the messages, and what it
leaves; `none` if it waits for ever. -/
def PrioQueue.call (queueSize prioLevel : ℤ) (a : PrioQueue T) :
    Call T → Option (Result T × PrioQueue T)
  | .sendMessage message priority =>
    if 0 ≤ priority ∧ priority < prioLevel ∧ (a.stored.length : ℤ) < queueSize then
      some (.sent true, a.send message priority)
    else some (.sent false, a)
  | .recvMessage timeWait wait bDeque =>
    if timeWait < 0 then some (.received none, a)
    else
      match a.stored with
      | [] => if wait && timeWait = 0 then none else some (.received none, a)
      | e :: _ => some (.received (some e.item), if bDeque then a.recv else a)

/-- The calls one after the other -/
def PrioQueue.run (queueSize prioLevel : ℤ) (a : PrioQueue T) :
    List (Call T) → List (Call T × Result T) × PrioQueue T
  | [] => ([], a)
  | c :: cs =>
    match a.call queueSize prioLevel c with
    | none => ([], a)
    | some (r, a') => ((c, r) :: (a'.run queueSize prioLevel cs).1,
        (a'.run queueSize prioLevel cs).2)

/-- A call yields what it should. -/
lemma call_refines (h : Stores q a) (c : Call T) :
    a.call q.queSize q.prioLevel c = none ∧ q.call c = .ok none ∨
      ∃ r a' q', a.call q.queSize q.prioLevel c = some (r, a') ∧ q.call c = .ok (some (r, q')) ∧
        Stores q' a' ∧ SameParam q q' := by
  cases c with
  | sendMessage message priority =>
    obtain ⟨q', hsend, hstores, hparam⟩ := sendMessage_stores h message priority
    have htakes : Takes q priority ↔
        0 ≤ priority ∧ priority < q.prioLevel ∧ (a.stored.length : ℤ) < q.queSize := by
      rw [Takes, h.queue, List.length_map]
    refine .inr ⟨.sent (decide (Takes q priority)), _, q', ?_, ?_, hstores, hparam⟩
    · rw [PrioQueue.call]
      by_cases ht : Takes q priority
      · rw [if_pos (htakes.mp ht), if_pos ht, decide_eq_true ht]
      · rw [if_neg (mt htakes.mpr ht), if_neg ht, decide_eq_false ht]
    · rw [TMsgQue.call, hsend]
      rfl
  | recvMessage timeWait wait bDeque =>
    rw [PrioQueue.call, TMsgQue.call]
    by_cases ht : timeWait < 0
    · rw [if_pos ht, TMsgQue.recvMessage, if_pos ht]
      exact .inr ⟨_, _, q, rfl, rfl, h, rfl, rfl⟩
    rw [if_neg ht]
    rcases ha : a.stored with _ | ⟨e, es⟩
    · rw [recvMessage_empty h (not_lt.mp ht) wait bDeque ha]
      by_cases hwait : (wait && timeWait = 0) = true
      · refine .inl ⟨if_pos hwait, ?_⟩
        rw [if_pos hwait]
        rfl
      · refine .inr ⟨_, _, q, if_neg hwait, ?_, h, rfl, rfl⟩
        rw [if_neg hwait]
        rfl
    · obtain ⟨q', hrecv, hstores, hparam⟩ := recvMessage_first h (not_lt.mp ht) wait bDeque ha
      rw [hrecv]
      exact .inr ⟨_, _, q', rfl, rfl, hstores, hparam⟩

/-- So do the calls of a run, which leaves a queue whatever is called. -/
lemma run_refines (h : Stores q a) (calls : List (Call T)) :
    ∃ q', q.run calls = .ok ((a.run q.queSize q.prioLevel calls).1, q') ∧
      Stores q' (a.run q.queSize q.prioLevel calls).2 ∧ SameParam q q' := by
  induction calls generalizing q a with
  | nil => exact ⟨q, rfl, h, rfl, rfl⟩
  | cons c calls ih =>
    rw [PrioQueue.run, TMsgQue.run]
    rcases call_refines h c with ⟨hcall, hcall'⟩ | ⟨r, a', q₁, hcall, hcall', h₁, hparam⟩
    · rw [hcall, hcall']
      exact ⟨q, rfl, h, rfl, rfl⟩
    · obtain ⟨q', hrun, h', hparam'⟩ := ih h₁
      rw [hparam.queSize, hparam.prioLevel] at hrun h'
      rw [hcall, hcall']
      refine ⟨q', ?_, h', hparam'.queSize.trans hparam.queSize,
        hparam'.prioLevel.trans hparam.prioLevel⟩
      simp [bind, Except.bind, hrun]

lemma number_le_of_accepted {n : ℕ} {log : List (Call T × Result T)} {e : Entry ℤ T}
    (he : e ∈ accepted n log) : n ≤ e.number := by
  induction n, log using accepted.induct with
  | case1 n => simp [accepted] at he
  | case2 n message priority log ih =>
    rw [accepted, List.mem_cons] at he
    rcases he with rfl | he
    · exact le_rfl
    · exact (Nat.le_succ n).trans (ih he)
  | case3 n x log hx ih =>
    rw [accepted] at he
    · exact ih he
    · exact hx

/-- What the calls of a run do to the messages: `given` have left, in this order. -/
structure Passed (a a' : PrioQueue T) (log : List (Call T × Result T)) (given : List (Entry ℤ T)) :
    Prop where
  perm : (given ++ a'.stored).Perm (a.stored ++ accepted a.next log)
  items : given.map Entry.item = delivered log
  inTurn : (given ++ a'.stored).Pairwise InTurn

lemma Passed.refl (a : PrioQueue T) : Passed a a [] [] where
  perm := by simp [accepted]
  items := rfl
  inTurn := a.ordered.imp Before.inTurn

/-- A call that leaves the stored messages alone. -/
lemma Passed.skip {a' : PrioQueue T} {log : List (Call T × Result T)} {given : List (Entry ℤ T)}
    (h : Passed a a' log given) {x : Call T × Result T}
    (ha : accepted a.next (x :: log) = accepted a.next log)
    (hd : delivered (x :: log) = delivered log) : Passed a a' (x :: log) given where
  perm := by rw [ha]; exact h.perm
  items := by rw [hd]; exact h.items
  inTurn := h.inTurn

/-- An accepted message first. -/
lemma Passed.send {a' : PrioQueue T} {log : List (Call T × Result T)} {given : List (Entry ℤ T)}
    {message : T} {priority : ℤ} (h : Passed (a.send message priority) a' log given) :
    Passed a a' ((.sendMessage message priority, .sent true) :: log) given where
  perm := by
    refine h.perm.trans ?_
    refine (place_perm.append_right _).trans ?_
    exact List.perm_middle.symm
  items := h.items
  inTurn := h.inTurn

/-- A message taken out first. -/
lemma Passed.recv {a' : PrioQueue T} {log : List (Call T × Result T)} {given : List (Entry ℤ T)}
    {e : Entry ℤ T} {es : List (Entry ℤ T)} (ha : a.stored = e :: es) {timeWait : ℤ} {wait : Bool}
    (h : Passed a.recv a' log given) :
    Passed a a' ((.recvMessage timeWait wait true, .received (some e.item)) :: log)
      (e :: given) := by
  have hperm : (given ++ a'.stored).Perm (es ++ accepted a.next log) := by
    have hrest : a.recv.stored = es := by
      show a.stored.tail = es
      rw [ha, List.tail_cons]
    rw [← hrest]
    exact h.perm
  refine ⟨?_, by rw [List.map_cons, h.items]; rfl,
    List.pairwise_cons.mpr ⟨fun y hy => ?_, h.inTurn⟩⟩
  · rw [ha]
    exact hperm.cons e
  · rcases List.mem_append.mp (hperm.mem_iff.mp hy) with hy | hy
    · have hord := a.ordered
      rw [ha] at hord
      exact ((List.pairwise_cons.mp hord).1 y hy).inTurn
    · intro _
      exact (a.fresh e (by simp [ha])).trans_le (number_le_of_accepted hy)

/-- A call that returns, first: what passes from there on passes after it. -/
lemma Passed.call {a' a'' : PrioQueue T} {queueSize prioLevel : ℤ} {c : Call T} {r : Result T}
    (hcall : a.call queueSize prioLevel c = some (r, a')) {log : List (Call T × Result T)}
    {given : List (Entry ℤ T)} (h : Passed a' a'' log given) :
    ∃ given', Passed a a'' ((c, r) :: log) given' := by
  cases c with
  | sendMessage message priority =>
    simp only [PrioQueue.call] at hcall
    split_ifs at hcall
    · obtain ⟨rfl, rfl⟩ := Prod.mk.inj (Option.some.inj hcall)
      exact ⟨_, h.send⟩
    · obtain ⟨rfl, rfl⟩ := Prod.mk.inj (Option.some.inj hcall)
      exact ⟨_, h.skip rfl rfl⟩
  | recvMessage timeWait wait bDeque =>
    rw [PrioQueue.call] at hcall
    by_cases ht : timeWait < 0
    · rw [if_pos ht] at hcall
      obtain ⟨rfl, rfl⟩ := Prod.mk.inj (Option.some.inj hcall)
      exact ⟨_, h.skip rfl (by cases bDeque <;> rfl)⟩
    rw [if_neg ht] at hcall
    rcases ha : a.stored with _ | ⟨e, es⟩ <;> simp only [ha] at hcall
    · split_ifs at hcall
      obtain ⟨rfl, rfl⟩ := Prod.mk.inj (Option.some.inj hcall)
      exact ⟨_, h.skip rfl (by cases bDeque <;> rfl)⟩
    · obtain ⟨rfl, rfl⟩ := Prod.mk.inj (Option.some.inj hcall)
      cases bDeque with
      | true => exact ⟨_, Passed.recv ha h⟩
      | false => exact ⟨_, h.skip rfl rfl⟩

/-- The calls of a run pass messages as they should. -/
lemma PrioQueue.run_passed (a : PrioQueue T) (queueSize prioLevel : ℤ) (calls : List (Call T)) :
    ∃ given, Passed a (a.run queueSize prioLevel calls).2 (a.run queueSize prioLevel calls).1
      given := by
  induction calls generalizing a with
  | nil => exact ⟨[], Passed.refl a⟩
  | cons c calls ih =>
    rw [PrioQueue.run]
    rcases hcall : a.call queueSize prioLevel c with _ | ⟨r, a'⟩
    · exact ⟨[], Passed.refl a⟩
    · obtain ⟨given, h⟩ := ih a'
      exact h.call hcall

/-- A run leaves a queue, whatever is called. -/
lemma run_passed (h : Stores q a) (calls : List (Call T)) :
    ∃ log q' a' given, q.run calls = .ok (log, q') ∧ Stores q' a' ∧ SameParam q q' ∧
      Passed a a' log given := by
  obtain ⟨q', hrun, h', hparam⟩ := run_refines h calls
  obtain ⟨given, hp⟩ := a.run_passed q.queSize q.prioLevel calls
  exact ⟨_, q', _, given, hrun, h', hparam, hp⟩

/-- **The queue is one of priorities, first come first served among equals.** After any calls
its messages stand in order; those that left and those still stored are the accepted ones,
each once, and among equals they leave in the order they came. Of the next call: a message is
accepted if its priority is one and there is room, and the one received is the first. -/
theorem messages_in_order (queueSize prioLevel : ℤ) (_hlevel : 1 ≤ prioLevel)
    (calls : List (Call T)) :
    ∃ (log : List (Call T × Result T)) (q : TMsgQue T σ) (given stored : List (Entry ℤ T)),
      ((TMsgQue.init : TMsgQue T σ).setParam queueSize prioLevel).run calls = .ok (log, q) ∧
      q.messages = stored.map Entry.item ∧ stored.Pairwise Before ∧
      given.map Entry.item = delivered log ∧ (given ++ stored).Perm (accepted 0 log) ∧
      (given ++ stored).Pairwise InTurn ∧
      (∀ message priority, ∃ q', q.sendMessage message priority =
        .ok (decide (0 ≤ priority ∧ priority < prioLevel ∧ (q.messages.length : ℤ) < queueSize),
          q')) ∧
      ∀ timeWait wait bDeque message q',
        q.recvMessage timeWait wait bDeque = .ok (some (some message, q')) →
          q.messages = message :: q.messages.tail ∧
            q'.messages = if bDeque then q.messages.tail else q.messages := by
  obtain ⟨log, q, a, given, hrun, h, hparam, hp⟩ :=
    run_passed (setParam_stores (T := T) (σ := σ) queueSize prioLevel) calls
  have hmessages {q : TMsgQue T σ} {a : PrioQueue T} (h : Stores q a) :
      q.messages = a.stored.map Entry.item := by
    rw [TMsgQue.messages, h.queue, List.map_map]
    rfl
  refine ⟨log, q, given, a.stored, hrun, hmessages h, a.ordered, hp.items, hp.perm, hp.inTurn,
    fun message priority => ?_, fun timeWait wait bDeque message q' hrecv => ?_⟩
  · obtain ⟨q', hsend, -⟩ := sendMessage_stores h message priority
    have htakes : Takes q priority ↔
        0 ≤ priority ∧ priority < prioLevel ∧ (q.messages.length : ℤ) < queueSize := by
      rw [Takes, hparam.prioLevel, hparam.queSize, TMsgQue.messages, List.length_map]
      rfl
    exact ⟨q', by rw [hsend, decide_eq_decide.mpr htakes]⟩
  · have ht : 0 ≤ timeWait := by
      by_contra ht
      rw [TMsgQue.recvMessage, if_pos (not_le.mp ht)] at hrecv
      simp at hrecv
    rcases ha : a.stored with _ | ⟨e, es⟩
    · rw [recvMessage_empty h ht wait bDeque ha] at hrecv
      split_ifs at hrecv <;> simp at hrecv
    · obtain ⟨q₁, hrecv₁, h₁, -⟩ := recvMessage_first h ht wait bDeque ha
      obtain ⟨rfl, rfl⟩ : e.item = message ∧ q₁ = q' := by simpa [hrecv₁] using hrecv
      rw [hmessages h, hmessages h₁, ha]
      refine ⟨rfl, ?_⟩
      cases bDeque with
      | true => simp [PrioQueue.recv, ha]
      | false => simp [ha]

/-- The second of two messages overtakes the first if its priority is higher. -/
theorem urgent_overtakes : (1 : ℤ) ≤ 2 ∧ ∃ given stored : List (Entry ℤ ℕ),
    given.map Entry.item = [20] ∧ stored.map Entry.item = [10] ∧
      (given ++ stored).Perm [⟨0, 0, 10⟩, ⟨1, 1, 20⟩] := by
  refine ⟨by decide, ?_⟩
  obtain ⟨log, q, given, stored, hrun, hmessages, -, hgiven, hperm, -⟩ :=
    messages_in_order (T := ℕ) (σ := ℕ) 3 2 (by decide)
      [.sendMessage 10 0, .sendMessage 20 1, .recvMessage 0 true true]
  obtain ⟨rfl, rfl⟩ := Prod.mk.inj (Except.ok.inj hrun)
  exact ⟨given, stored, hgiven, hmessages.symm, hperm⟩

end Runs

end DataEngine.MsgQue
