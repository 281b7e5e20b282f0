import DataEngine.Data.PointMap
import DataEngine.Lib.Trace

/-!
Reads and writes of single points from any number of threads.

An access by index is one step. An access by condition looks up the row in one step, in which
it looks for the device in the store, and accesses the row in a later one; other threads may
run in between. Calls that have ended are recorded in a history, newest last.
-/

namespace DataEngine.DataStorage

open Json ConfigParse Lib.Effect Lib.Memory Lib.Trace

variable {R : Type}

/-! ### The initial store -/

/-- All values are the initial one. -/
def Zeroed (s : Store R) : Prop := ∀ p x, cells s p = some x → x = .int32 0

lemma zeroed_empty : Zeroed (∅ : Store R) := by
  intro p x h
  simp [cells, slot, PointVec.empty, PointVec.get?] at h

lemma zeroed_setSlot {s : Store R} (h : Zeroed s) {num : ℕ} {v : PointVec R}
    (hv : zeros num = .ok v) (n : String) (t : DataType) : Zeroed (setSlot s n t v) := by
  intro p x hx
  unfold zeros at hv
  split_ifs at hv with hnum
  obtain rfl := Except.ok.inj hv
  simp only [cells, slot_setSlot] at hx
  split_ifs at hx
  · simp only [PointVec.get?] at hx
    split_ifs at hx
    exact List.eq_of_mem_replicate (List.mem_of_getElem? hx)
  · exact h p x hx

lemma initData_zeroed {devName : String} {cfgPoint : Value R} {s s' : Store R} (h : Zeroed s)
    (hs : initData devName cfgPoint s = .ok s') : Zeroed s' := by
  unfold initData at hs
  obtain ⟨cfgParam, -, hs⟩ := bind_eq_ok.mp hs
  obtain ⟨members, -, hs⟩ := bind_eq_ok.mp hs
  refine foldlM_inv (fun s iter t hz ht => ?_) h hs
  obtain ⟨cfgData, -, ht⟩ := bind_eq_ok.mp ht
  obtain ⟨v, hv, ht⟩ := bind_eq_ok.mp ht
  obtain rfl := Except.ok.inj ht
  exact zeroed_setSlot hz hv _ _

variable [Double R]

lemma init_zeroed {cfg : Config R} {s : Store R} (h : init cfg = .ok s) : Zeroed s :=
  init_inv zeroed_empty (fun _ _ _ hz ht => initData_zeroed hz ht) h

/-! ### Rows -/

/-- A row that can be read, and whose member `key` differs from the target. -/
def Passes (key : String) (target row : Value R) : Prop :=
  row.isObj ∧ (row.get key).eq target = false

/-- The smallest row whose member equals the target, unless a row before it cannot be read. -/
inductive Selects (key : String) (target : Value R) (rows : List (Value R)) :
    Except Fault (Option ℕ) → Prop where
  | row (i : ℕ) (row : Value R) (at_i : rows[i]? = some row) (fits : row.isObj)
      (equal : (row.get key).eq target) (before : ∀ r ∈ rows.take i, Passes key target r) :
      Selects key target rows (.ok (some i))
  | none (all : ∀ r ∈ rows, Passes key target r) : Selects key target rows (.ok none)
  | unread (i : ℕ) (row : Value R) (at_i : rows[i]? = some row) (unfit : ¬ row.isObj)
      (before : ∀ r ∈ rows.take i, Passes key target r) :
      Selects key target rows (.error .logicError)

/-- How the search is answered: with the row, or with `-1`. -/
def indexOf (r : Except Fault (Option ℕ)) (k : ℕ) : Except Fault ℤ :=
  match r with
  | .ok (some i) => .ok (k + i : ℕ)
  | .ok none => .ok (-1)
  | .error e => .error e

lemma rowLoop_selects (key : String) (target : Value R) (rows : List (Value R)) (k : ℕ) :
    ∃ r, Selects key target rows r ∧ rowLoop key target rows k = indexOf r k := by
  induction rows generalizing k with
  | nil => exact ⟨.ok none, .none (by simp), rfl⟩
  | cons row rows ih =>
    unfold rowLoop Value.member
    by_cases hobj : row.isObj
    swap
    · exact ⟨_, .unread 0 row rfl hobj (by simp), by simp [hobj, indexOf, bind, Except.bind]⟩
    simp only [hobj, if_true, bind, Except.bind]
    by_cases heq : (row.get key).eq target
    · exact ⟨_, .row 0 row rfl hobj heq (by simp), by simp [heq, indexOf]⟩
    have hrow : Passes key target row := ⟨hobj, by simpa using heq⟩
    obtain ⟨r, hr, hloop⟩ := ih (k + 1)
    rw [if_neg heq, hloop]
    cases hr with
    | row i row' at_i fits equal before =>
      refine ⟨_, .row (i + 1) row' at_i fits equal ?_, by simp [indexOf]; omega⟩
      simpa using ⟨hrow, before⟩
    | none all => exact ⟨_, .none (by simpa using ⟨hrow, all⟩), rfl⟩
    | unread i row' at_i unfit before =>
      exact ⟨_, .unread (i + 1) row' at_i unfit (by simpa using ⟨hrow, before⟩), rfl⟩

variable (env : Env R)

/-- The row a condition selects among the devices of `s`: none without the device, without a
section for the type, or if the template gives the parameter no type. -/
inductive Resolves (s : Store R) (name : String) (type : DataType)
    (condition : String × ValueWrap R) : Except Fault (Option ℕ) → Prop where
  | noDevice (h : name ∉ s) : Resolves s name type condition (.ok none)
  | noSection (h : typeName type = none) : Resolves s name type condition (.ok none)
  | unread (strType : String) (e : Fault) (device : name ∈ s) (sec : typeName type = some strType)
      (h : condRows env name strType condition = .error e) :
      Resolves s name type condition (.error e)
  | untyped (strType : String) (device : name ∈ s) (sec : typeName type = some strType)
      (h : condRows env name strType condition = .ok none) :
      Resolves s name type condition (.ok none)
  | rows (strType : String) (target : Value R) (rows : List (Value R))
      (r : Except Fault (Option ℕ)) (device : name ∈ s) (sec : typeName type = some strType)
      (h : condRows env name strType condition = .ok (some (target, rows)))
      (selects : Selects condition.1 target rows r) : Resolves s name type condition r

lemma getIndex_resolves {s t : Store R} (h : ∀ n, n ∈ t ↔ n ∈ s) (name : String) (type : DataType)
    (condition : String × ValueWrap R) :
    ∃ r, Resolves env s name type condition r ∧
      exec (getIndex env name type condition) t = (indexOf r 0, t) := by
  unfold getIndex
  cases hsec : typeName type with
  | none => exact ⟨_, .noSection hsec, rfl⟩
  | some strType =>
    simp only
    rw [exec_get_bind]
    by_cases hn : name ∈ t
    swap
    · exact ⟨_, .noDevice (mt (h name).mpr hn), by rw [if_pos hn]; rfl⟩
    have hdevice := (h name).mp hn
    rw [if_neg (not_not.mpr hn), exec_of_bind]
    rcases hc : condRows env name strType condition with e | _ | ⟨target, rows⟩
    · exact ⟨_, .unread strType e hdevice hsec hc, rfl⟩
    · exact ⟨_, .untyped strType hdevice hsec hc, rfl⟩
    · obtain ⟨r, hr, hloop⟩ := rowLoop_selects condition.1 target rows 0
      exact ⟨r, .rows strType target rows r hdevice hsec hc hr, by simp only [hloop]; rfl⟩

/-! ### Calls -/

/-- Where a call finds its point. -/
inductive Place (R : Type) where
  | index (pointId : ℤ)
  | condition (condition : String × ValueWrap R)

/-- A call of `updateValue` if it brings data, of `getValue` otherwise. -/
structure Call (R : Type) where
  name : String
  type : DataType
  place : Place R
  data : Option (ValueWrap R)

/-- How a call ends: it raises, it returns `false`, or it returns `true` with the value it has
written or read. -/
inductive Answer (R : Type) where
  | raised (e : Fault)
  | failed
  | done (value : ValueWrap R)

/-- A call that has ended, and the index it accessed. -/
structure Event (R : Type) where
  call : Call R
  index : Option ℤ
  answer : Answer R

/-- What a call has written, and where. -/
def Event.write (e : Event R) : Option (Point × ValueWrap R) :=
  match e with
  | ⟨⟨name, type, _, some data⟩, some i, .done _⟩ => some ((name, type, i), data)
  | _ => none

def writes (history : List (Event R)) : List (Point × ValueWrap R) :=
  history.filterMap Event.write

structure Machine (R : Type) where
  store : Store R
  /-- the access by index a thread has still to make -/
  pending : ℕ → Option (Call R × ℤ)
  history : List (Event R)

inductive Move (R : Type) where
  | start (thread : ℕ) (call : Call R)
  | access (thread : ℕ)

def record (m : Machine R) (s : Store R) (e : Event R) : Machine R :=
  { m with store := s, history := m.history ++ [e] }

def writeAnswer (x : ValueWrap R) : Except Fault Bool → Answer R
  | .ok true => .done x
  | .ok false => .failed
  | .error e => .raised e

def readAnswer : Except Fault (Option (ValueWrap R)) → Answer R
  | .ok (some x) => .done x
  | .ok none => .failed
  | .error e => .raised e

/-- The access by index of a call. -/
def perform (m : Machine R) (c : Call R) (i : ℤ) : Machine R :=
  match c.data with
  | some x =>
    let r := exec (updateValue c.name c.type i x) m.store
    record m r.2 ⟨c, some i, writeAnswer x r.1⟩
  | none =>
    let r := exec (getValue c.name c.type i) m.store
    record m r.2 ⟨c, some i, readAnswer r.1⟩

/-- A thread starts no call while it is in one. -/
def step (m : Machine R) (move : Move R) : Machine R :=
  match move with
  | .start thread c =>
    if (m.pending thread).isSome then m
    else
      match c.place with
      | .index i => perform m c i
      | .condition cond =>
        match exec (getIndex env c.name c.type cond) m.store with
        | (.error e, s) => record m s ⟨c, none, .raised e⟩
        | (.ok i, s) =>
          if i < 0 then record m s ⟨c, none, .failed⟩
          else { m with store := s, pending := Function.update m.pending thread (some (c, i)) }
  | .access thread =>
    match m.pending thread with
    | none => m
    | some (c, i) => perform { m with pending := Function.update m.pending thread none } c i

def run (s : Store R) (moves : List (Move R)) : Machine R :=
  moves.foldl (step env) ⟨s, fun _ => none, []⟩

@[simp] lemma run_nil (s : Store R) : run env s [] = ⟨s, fun _ => none, []⟩ := rfl

lemma run_snoc (s : Store R) (moves : List (Move R)) (move : Move R) :
    run env s (moves ++ [move]) = step env (run env s moves) move := by
  simp [run, List.foldl_append]

/-- A call that nothing interrupts. -/
def Call.exec (c : Call R) (s : Store R) : Answer R × Store R :=
  match c.place, c.data with
  | .index i, some x => (Lib.Effect.exec (updateValue c.name c.type i x) s).map (writeAnswer x) id
  | .index i, none => (Lib.Effect.exec (getValue c.name c.type i) s).map readAnswer id
  | .condition cond, some x =>
    (Lib.Effect.exec (updateValueIf env c.name c.type cond x) s).map (writeAnswer x) id
  | .condition cond, none =>
    (Lib.Effect.exec (getValueIf env c.name c.type cond) s).map readAnswer id

/-- **Steps of a call**: the steps of a thread, with none of other threads between, do what
the function it calls does. -/
theorem step_start_access (m : Machine R) {thread : ℕ} (idle : m.pending thread = none)
    (c : Call R) :
    ∃ i, step env (step env m (.start thread c)) (.access thread) =
      record m (c.exec env m.store).2 ⟨c, i, (c.exec env m.store).1⟩ := by
  obtain ⟨name, type, place, data⟩ := c
  have hidle (m' : Machine R) (h : m'.pending = m.pending) :
      step env m' (.access thread) = m' := by
    simp [step, h, idle]
  cases place with
  | index i =>
    refine ⟨some i, ?_⟩
    have hstart : step env m (.start thread ⟨name, type, .index i, data⟩) =
        perform m ⟨name, type, .index i, data⟩ i := by
      simp [step, idle]
    rw [hstart, hidle _ (by cases data <;> rfl)]
    cases data <;> rfl
  | condition cond =>
    rcases he : exec (getIndex env name type cond) m.store with ⟨e | i, s⟩
    · refine ⟨none, ?_⟩
      have hstart : step env m (.start thread ⟨name, type, .condition cond, data⟩) =
          record m s ⟨⟨name, type, .condition cond, data⟩, none, .raised e⟩ := by
        simp [step, idle, he]
      rw [hstart, hidle (record m s _) rfl]
      cases data <;>
        simp [Call.exec, updateValueIf, getValueIf, exec_bind_error he, writeAnswer, readAnswer]
    by_cases hi : i < 0
    · refine ⟨none, ?_⟩
      have hstart : step env m (.start thread ⟨name, type, .condition cond, data⟩) =
          record m s ⟨⟨name, type, .condition cond, data⟩, none, .failed⟩ := by
        simp [step, idle, he, hi]
      rw [hstart, hidle (record m s _) rfl]
      cases data <;>
        simp [Call.exec, updateValueIf, getValueIf, exec_bind_ok he, hi, writeAnswer, readAnswer]
    · refine ⟨some i, ?_⟩
      have hback : Function.update (Function.update m.pending thread
          (some (⟨name, type, .condition cond, data⟩, i))) thread none = m.pending := by
        rw [Function.update_idem, ← idle, Function.update_eq_self]
      cases data <;>
        simp [step, idle, he, hi, hback, perform, record, Call.exec, updateValueIf, getValueIf,
          exec_bind_ok he]

/-! ### What a run does -/

/-- The points of a store, with the initial value. -/
def initial (s : Store R) : Cells Point (ValueWrap R) := fun p =>
  if p.1 ∈ s ∧ 0 ≤ p.2.2 ∧ p.2.2 < (slot s p.1 p.2.1).size then some (.int32 0) else none

/-- The answer of an access by index after a history: the newest write, or the initial value. -/
def accessed (s : Store R) (history : List (Event R)) (c : Call R) (i : ℤ) : Answer R :=
  match after (initial s) (writes history) (c.name, c.type, i) with
  | none => .failed
  | some v => .done (c.data.getD v)

/-- How a call is answered after a history. -/
inductive Answered (s : Store R) (history : List (Event R)) : Event R → Prop where
  | index (c : Call R) (i : ℤ) (place : c.place = .index i) :
      Answered s history ⟨c, some i, accessed s history c i⟩
  | row (c : Call R) (cond : String × ValueWrap R) (i : ℕ) (place : c.place = .condition cond)
      (h : Resolves env s c.name c.type cond (.ok (some i))) :
      Answered s history ⟨c, some i, accessed s history c i⟩
  | noRow (c : Call R) (cond : String × ValueWrap R) (place : c.place = .condition cond)
      (h : Resolves env s c.name c.type cond (.ok none)) :
      Answered s history ⟨c, none, .failed⟩
  | unread (c : Call R) (cond : String × ValueWrap R) (e : Fault)
      (place : c.place = .condition cond)
      (h : Resolves env s c.name c.type cond (.error e)) :
      Answered s history ⟨c, none, .raised e⟩

/-- A machine that refines the map. -/
structure Refines (s : Store R) (m : Machine R) : Prop where
  shaped : Shaped s m.store
  cells : cells m.store = after (initial s) (writes m.history)
  answered : Each (Answered env s) m.history
  /-- an access still to be made is one to the row the condition has selected -/
  pending : ∀ thread c i, m.pending thread = some (c, i) → ∃ (cond : String × ValueWrap R) (j : ℕ),
    c.place = .condition cond ∧ Resolves env s c.name c.type cond (.ok (some j)) ∧ i = j

variable {env} {s : Store R} {m : Machine R}

omit [Double R] in
lemma cells_of_zeroed (h : Zeroed s) : cells s = initial s := by
  funext ⟨n, t, i⟩
  have hiff := isSome_cells s n t i
  unfold initial
  split_ifs with hin
  · obtain ⟨x, hx⟩ := Option.isSome_iff_exists.mp (hiff.mpr hin)
    rw [hx, h _ x hx]
  · simpa using mt hiff.mp hin

omit [Double R] in
lemma writes_snoc (history : List (Event R)) (e : Event R) :
    writes (history ++ [e]) = writes history ++ e.write.toList := by
  unfold writes
  rw [List.filterMap_append]
  cases h : e.write <;> simp [h]

lemma Refines.record {t : Store R} {e : Event R} (h : Refines env s m)
    (shaped : Shaped m.store t)
    (hcells : DataStorage.cells t = after (initial s) (writes (m.history ++ [e])))
    (answered : Answered env s m.history e) : Refines env s (record m t e) :=
  ⟨h.shaped.trans shaped, hcells, each_snoc.mpr ⟨h.answered, answered⟩, h.pending⟩

/-- The access of a call is answered as the map answers it. -/
lemma perform_refines (h : Refines env s m) {c : Call R} {i : ℤ}
    (answered : Answered env s m.history ⟨c, some i, accessed s m.history c i⟩) :
    Refines env s (perform m c i) := by
  obtain ⟨name, type, place, data⟩ := c
  unfold perform
  cases data with
  | none =>
    obtain ⟨t, hsame, he⟩ := getValue_spec m.store name type i
    simp only [he]
    have hanswer : readAnswer (.ok (cells m.store (name, type, i))) =
        accessed s m.history ⟨name, type, place, none⟩ i := by
      unfold accessed readAnswer
      rw [h.cells]
      cases after (initial s) (writes m.history) (name, type, i) <;> rfl
    rw [hanswer]
    refine h.record hsame.shaped ?_ answered
    rw [hsame.cells, h.cells, writes_snoc]
    simp [Event.write]
  | some x =>
    obtain ⟨t, hshaped, hcells, he⟩ := updateValue_spec m.store name type i x
    simp only [he]
    have hanswer : writeAnswer x (.ok (cells m.store (name, type, i)).isSome) =
        accessed s m.history ⟨name, type, place, some x⟩ i := by
      unfold accessed writeAnswer
      rw [h.cells]
      cases after (initial s) (writes m.history) (name, type, i) <;> rfl
    rw [hanswer]
    refine h.record hshaped ?_ answered
    rw [hcells, h.cells, writes_snoc]
    -- a write where there is no point is not recorded, and changes nothing
    cases hv : after (initial s) (writes m.history) (name, type, i) with
    | none => simp [write, hv, accessed, Event.write]
    | some v => simp [write_after, hv, accessed, Event.write]

lemma step_refines (h : Refines env s m) (move : Move R) : Refines env s (step env m move) := by
  cases move with
  | start thread c =>
    unfold step
    simp only
    split_ifs
    · exact h
    cases hplace : c.place with
    | index i => exact perform_refines h (.index c i hplace)
    | condition cond =>
      obtain ⟨r, hr, he⟩ := getIndex_resolves env h.shaped.mem c.name c.type cond
      simp only [he]
      have hquiet (a : Answer R) : DataStorage.cells m.store =
          after (initial s) (writes (m.history ++ [⟨c, none, a⟩])) := by
        rw [h.cells, writes_snoc]
        obtain ⟨name, type, place, data⟩ := c
        cases data <;> simp [Event.write]
      rcases r with e | _ | j
      · exact h.record (.refl _) (hquiet _) (.unread c cond e hplace hr)
      · exact h.record (.refl _) (hquiet _) (.noRow c cond hplace hr)
      · have hj : ¬ ((0 + j : ℕ) : ℤ) < 0 := by omega
        simp only [indexOf, if_neg hj]
        refine ⟨h.shaped, h.cells, h.answered, fun thread' c' i' hp => ?_⟩
        simp only [Function.update_apply] at hp
        split_ifs at hp
        · obtain ⟨rfl, rfl⟩ := Prod.mk.inj (Option.some.inj hp)
          exact ⟨cond, j, hplace, hr, by simp⟩
        · exact h.pending thread' c' i' hp
  | access thread =>
    unfold step
    simp only
    cases hp : m.pending thread with
    | none => exact h
    | some ci =>
      obtain ⟨c, i⟩ := ci
      obtain ⟨cond, j, hplace, hr, rfl⟩ := h.pending thread c i hp
      have h' : Refines env s { m with pending := Function.update m.pending thread none } := by
        refine ⟨h.shaped, h.cells, h.answered, fun thread' c' i' hp' => ?_⟩
        simp only [Function.update_apply] at hp'
        split_ifs at hp'
        exact h.pending thread' c' i' hp'
      exact perform_refines h' (.row c cond j hplace hr)

lemma run_refines (h : Zeroed s) (moves : List (Move R)) : Refines env s (run env s moves) := by
  induction moves using List.reverseRecOn with
  | nil => exact ⟨.refl s, by simp [writes, cells_of_zeroed h], by simp, by simp⟩
  | append_singleton moves move ih =>
    rw [run_snoc]
    exact step_refines ih move

omit [Double R] in
lemma perform_history (m : Machine R) (c : Call R) (i : ℤ) :
    ∃ e, (perform m c i).history = m.history ++ [e] ∧ e.call = c := by
  unfold perform
  cases c.data <;> exact ⟨_, rfl, rfl⟩

variable (env) in
/-- What a thread does at the start of a call, and after it. -/
structure Proceeds (m : Machine R) : Prop where
  start (thread : ℕ) (c : Call R) : m.pending thread = none →
    (∃ e, (step env m (.start thread c)).history = m.history ++ [e] ∧ e.call = c) ∨
      (step env m (.start thread c)).history = m.history ∧
        ∃ i, (step env m (.start thread c)).pending thread = some (c, i)
  busy (thread : ℕ) (c : Call R) : m.pending thread ≠ none → step env m (.start thread c) = m
  access (thread : ℕ) (c : Call R) (i : ℤ) : m.pending thread = some (c, i) →
    ∃ e, (step env m (.access thread)).history = m.history ++ [e] ∧ e.call = c
  idle (thread : ℕ) : m.pending thread = none → step env m (.access thread) = m

variable (env) in
lemma proceeds (m : Machine R) : Proceeds env m := by
  refine ⟨fun thread c hp => ?_, fun thread c hp => ?_, fun thread c i hp => ?_,
    fun thread hp => ?_⟩
  · unfold step
    simp only [hp, Option.isSome_none, Bool.false_eq_true, if_false]
    cases hplace : c.place with
    | index i => exact .inl (perform_history m c i)
    | condition cond =>
      rcases he : exec (getIndex env c.name c.type cond) m.store with ⟨e | i, t⟩
      · simp only [he]
        exact .inl ⟨_, rfl, rfl⟩
      · simp only [he]
        split_ifs
        · exact .inl ⟨_, rfl, rfl⟩
        · exact .inr ⟨rfl, i, by simp⟩
  · simp [step, Option.isSome_iff_ne_none.mpr hp]
  · unfold step
    simp only [hp]
    exact perform_history _ c i
  · simp [step, hp]

variable (env) in
lemma step_history (m : Machine R) (move : Move R) :
    (step env m move).history = m.history ∨
      ∃ e, (step env m move).history = m.history ++ [e] := by
  have h := proceeds env m
  cases move with
  | start thread c =>
    by_cases hp : m.pending thread = none
    · obtain ⟨e, he, -⟩ | ⟨he, -⟩ := h.start thread c hp
      · exact .inr ⟨e, he⟩
      · exact .inl he
    · exact .inl (by rw [h.busy thread c hp])
  | access thread =>
    cases hp : m.pending thread with
    | none => exact .inl (by rw [h.idle thread hp])
    | some ci =>
      obtain ⟨e, he, -⟩ := h.access thread ci.1 ci.2 hp
      exact .inr ⟨e, he⟩

/-- **Single points**: in every run of reads and writes from the store `init` leaves, every
call ends in a step of its thread and is answered as the map of the points answers it, where a
condition stands for the row it selects; no call changes the numbers of points, or the value
of a point it has not written. -/
theorem refines_map (env : Env R) (s : Store R) (hinit : init env.cfg = .ok s)
    (moves : List (Move R)) :
    Proceeds env (run env s moves) ∧
    Each (Answered env s) (run env s moves).history ∧
    Shaped s (run env s moves).store ∧
    cells (run env s moves).store = after (initial s) (writes (run env s moves).history) ∧
    ∀ move p, cells (step env (run env s moves) move).store p ≠ cells (run env s moves).store p →
      ∃ e x, (step env (run env s moves) move).history = (run env s moves).history ++ [e] ∧
        e.write = some (p, x) := by
  have h : Refines env s (run env s moves) := run_refines (init_zeroed hinit) moves
  refine ⟨proceeds env _, h.answered, h.shaped, h.cells, fun move p hne => ?_⟩
  rw [(step_refines h move).cells, h.cells] at hne
  rcases step_history env (run env s moves) move with hh | ⟨e, hh⟩
  · rw [hh] at hne
    exact absurd rfl hne
  · rw [hh, writes_snoc] at hne
    cases hw : e.write with
    | none => simp [hw] at hne
    | some w =>
      obtain ⟨q, x⟩ := w
      refine ⟨e, x, hh, ?_⟩
      by_contra hq
      have hqp : q ≠ p := fun he => hq (by rw [hw, he])
      simp [hw, after, latest_snoc, hqp] at hne

/-- A task with one device `D`, whose signal points are `rows`. -/
def oneDevice (rows : List (Value ℚ)) : Env ℚ where
  lib := ownType
  unset _ := 0
  cfg :=
    let task : Value ℚ := .object [("bTrans", .bool false),
      ("content", .array [.object [("name", .string "D")]])]
    let table : Value ℚ := .object [("param", .object [("signal", .array rows)])]
    { empty with
      mapTaskCfg := (∅ : Map _ _).insert "task" ((∅ : Map _ _).insert .attribute task)
      mapDeviceCfg := (∅ : Map _ _).insert "D" ((∅ : Map _ _).insert .pointTable table)
      mapDeviceNameCfg := (∅ : Map _ _).insert "D" "D" }

/-- A write to the point `D` has. -/
theorem refines_map_write :
    ∃ s, init (oneDevice [.null]).cfg = .ok s ∧
      cells (run (oneDevice [.null]) s
        [.start 0 ⟨"D", .signal, .index 0, some (.int32 7)⟩]).store =
      after (initial s) [(("D", .signal, 0), .int32 7)] := by
  have h : ∃ s, init (oneDevice [.null]).cfg = .ok s ∧
      writes (run (oneDevice [.null]) s
        [.start 0 ⟨"D", .signal, .index 0, some (.int32 7)⟩]).history =
      [(("D", .signal, 0), .int32 7)] := ⟨_, rfl, by decide⟩
  obtain ⟨s, hs, hw⟩ := h
  refine ⟨s, hs, ?_⟩
  rw [← hw]
  exact (refines_map _ s hs _).2.2.2.1

/-- No row of the section has the value of a condition, whatever else the rows are. -/
def NoRow (env : Env R) (c : Call R) (cond : String × ValueWrap R) : Prop :=
  ∀ strType target rows, typeName c.type = some strType →
    condRows env c.name strType cond = .ok (some (target, rows)) →
    ∀ r ∈ rows, (r.get cond.1).eq target = false

/-- A row that is a number has no members: the call raises where it should return `false`. -/
theorem number_row_raises :
    ¬ ∀ (s : Store ℚ) (c : Call ℚ) (cond : String × ValueWrap ℚ),
      init (oneDevice [.int 1]).cfg = .ok s → c.place = .condition cond →
      NoRow (oneDevice [.int 1]) c cond →
      ∀ e ∈ (run (oneDevice [.int 1]) s [.start 0 c]).history, e.answer = .failed := by
  intro h
  have hrun : ∃ s, init (oneDevice [.int 1]).cfg = .ok s ∧
      ∃ e ∈ (run (oneDevice [.int 1]) s
        [.start 0 ⟨"D", .signal, .condition ("address", .int32 0), none⟩]).history,
      e.answer = .raised .logicError := ⟨_, rfl, _, List.mem_singleton.mpr rfl, rfl⟩
  obtain ⟨s, hs, e, he, hanswer⟩ := hrun
  have hfailed := h s _ ("address", .int32 0) hs rfl ?_ e he
  · rw [hanswer] at hfailed
    simp at hfailed
  · intro strType target rows hsec hrows r hr
    obtain rfl : "signal" = strType := by simpa [typeName] using hsec
    have hcond : condRows (oneDevice [.int 1]) "D" "signal" ("address", .int32 0) =
        .ok (some (.int 0, [.int 1])) := rfl
    obtain ⟨rfl, rfl⟩ : Value.int 0 = target ∧ [Value.int 1] = rows := by
      simpa using hcond.symm.trans hrows
    obtain rfl : r = .int 1 := by simpa using hr
    rfl

end DataEngine.DataStorage
