import DataEngine.Function.Signal

/-!
The emissions of a signal.

An emission copies the slots under the lock and calls the copies one after another without it.
A callback may attach, detach or emit in its turn, and other threads may do so meanwhile; a
callback that raises ends the emission it has been called in. The emissions are numbered as they
begin, and each thread has a stack of those it is in.
-/

namespace DataEngine.Signal

open Lib.Machine

variable {T μ ω φ τ : Type}

/-- An emission: its copy of the slots, and how many of them it has called. -/
structure Emission (μ ω φ τ : Type) where
  tmp : Slots μ ω φ τ
  iter : ℕ

structure Emitters (T μ ω φ τ : Type) where
  signal : TSignal T μ ω φ τ
  /-- those that have begun, by their numbers -/
  emissions : List (Emission μ ω φ τ)
  /-- the emissions a thread is in, the innermost first -/
  stack : T → List ℕ

/-- What is seen of a run. -/
inductive Ev (μ ω φ τ : Type) where
  | inserted (proc : TFunction μ ω φ τ)
  | erased (proc : TFunction μ ω φ τ)
  | emitted (id : ℕ) (slots : Slots μ ω φ τ)
  | called (id : ℕ) (proc : TFunction μ ω φ τ)
  | ended (id : ℕ)
  | raised (id : ℕ)

/-- A move is one of the accesses to the slots, or a part of an emission. -/
inductive EmitMove (T μ ω φ τ : Type) where
  | access (m : Move T μ ω φ τ)
  /-- `operator()` as far as the copy -/
  | emit (t : T)
  /-- one pass of its loop -/
  | call (t : T)
  | finish (t : T)
  /-- the callback raises -/
  | raise (t : T)

/-- The callbacks that an emission has called. -/
def callsOf (id : ℕ) (log : List (Ev μ ω φ τ)) : Slots μ ω φ τ :=
  log.filterMap fun
    | .called id' proc => if id' = id then some proc else none
    | _ => none

@[simp] lemma callsOf_append (id : ℕ) (log log' : List (Ev μ ω φ τ)) :
    callsOf id (log ++ log') = callsOf id log ++ callsOf id log' :=
  List.filterMap_append

/-- Neither the beginning of an emission nor a call. -/
def Ev.Quiet : Ev μ ω φ τ → Prop
  | .emitted .. | .called .. => False
  | _ => True

lemma callsOf_quiet {evs : List (Ev μ ω φ τ)} (h : ∀ e ∈ evs, e.Quiet) (id : ℕ) :
    callsOf id evs = [] := by
  refine List.filterMap_eq_nil_iff.mpr fun e he => ?_
  have hquiet := h e he
  cases e <;> first | rfl | exact hquiet.elim

variable [DecidableEq T] [DecidableEq μ] [DecidableEq ω] [DecidableEq φ] [DecidableEq τ]

/-- What is held after an event, where `held` was before. -/
def hold (held : Multiset (MemberFunc μ ω ⊕ Func φ τ)) :
    Ev μ ω φ τ → Multiset (MemberFunc μ ω ⊕ Func φ τ)
  | .inserted proc => proc.key ::ₘ held
  | .erased proc => held.erase proc.key
  | _ => held

/-- What has been put in and not taken out since. -/
def attached (log : List (Ev μ ω φ τ)) : Multiset (MemberFunc μ ω ⊕ Func φ τ) :=
  log.foldl hold 0

omit [DecidableEq T] in
lemma attached_append (log log' : List (Ev μ ω φ τ)) :
    attached (log ++ log') = log'.foldl hold (attached log) :=
  List.foldl_append

/-! ### The slots -/

namespace Slots

omit [DecidableEq μ] [DecidableEq ω] [DecidableEq φ] [DecidableEq τ] in
lemma Filled.map_copy {slots : Slots μ ω φ τ} (h : slots.Filled) :
    slots.map TFunction.copy = slots := by
  calc slots.map TFunction.copy = slots.map id :=
        List.map_congr_left fun slot hslot => (h slot hslot).2
    _ = slots := List.map_id slots

/-- The callbacks in use. -/
def keys (slots : Slots μ ω φ τ) : Multiset (MemberFunc μ ω ⊕ Func φ τ) :=
  (slots.map TFunction.key : List _)

omit [DecidableEq μ] [DecidableEq ω] [DecidableEq φ] [DecidableEq τ] in
lemma keys_cons (slot : TFunction μ ω φ τ) (slots : Slots μ ω φ τ) :
    keys (slot :: slots) = slot.key ::ₘ keys slots := rfl

omit [DecidableEq μ] [DecidableEq ω] [DecidableEq φ] [DecidableEq τ] in
lemma keys_insert {slots : Slots μ ω φ τ} (hfilled : slots.Filled) (numberMax : ℕ)
    (pos : SlotPosition) (specPos : UInt32) {proc : TFunction μ ω φ τ} (hproc : proc.isSet) :
    (slots.insert numberMax proc pos specPos).1.Filled ∧
      (slots.insert numberMax proc pos specPos).1.keys =
        if slots.length < (slots.insert numberMax proc pos specPos).1.length then
          proc.key ::ₘ slots.keys
        else slots.keys := by
  by_cases hadmits : slots.Admits numberMax pos specPos
  · have hperm := insert_perm hadmits proc
    have hlength := hperm.length_eq
    rw [List.length_cons] at hlength
    refine ⟨fun slot hslot => ?_, ?_⟩
    · rcases List.mem_cons.mp (hperm.mem_iff.mp hslot) with rfl | hslot
      · exact ⟨by simpa using hproc, by simp⟩
      · exact hfilled slot hslot
    · rw [if_pos (by omega), keys, Multiset.coe_eq_coe.mpr (hperm.map _), List.map_cons,
        TFunction.key_copy]
      rfl
  · rw [insert_of_not_admits hadmits, if_neg (lt_irrefl _)]
    exact ⟨hfilled, rfl⟩

lemma keys_detach {slots : Slots μ ω φ τ} (hfilled : slots.Filled) {proc : TFunction μ ω φ τ}
    (hproc : proc.isSet) : (slots.detach proc).1.keys =
      if slots.isAttached proc then slots.keys.erase proc.key else slots.keys := by
  unfold detach
  split_ifs with hattached
  swap
  · rfl
  clear hattached
  induction slots with
  | nil => rfl
  | cons slot slots ih =>
    have hrest : Filled slots := fun p hp => hfilled p (List.mem_cons_of_mem _ hp)
    have hiff := hfilled.eq_iff hproc List.mem_cons_self
    by_cases heq : proc.key = slot.key
    · rw [List.eraseP_cons_of_pos (hiff.mpr heq), keys_cons, heq, Multiset.erase_cons_head]
    · rw [List.eraseP_cons_of_neg (mt hiff.mp heq), keys_cons, keys_cons, ih hrest,
        Multiset.erase_cons_tail _ (Ne.symm heq)]

end Slots

namespace Emitters

def init (maxNum : ℤ) : Emitters T μ ω φ τ := ⟨.init maxNum, [], fun _ => []⟩

/-- What an access changes. -/
def changes (s : TSignal T μ ω φ τ) : Move T μ ω φ τ → List (Ev μ ω φ τ)
  | .attach .. => []
  | .insert t =>
    match s.phase t with
    | .outside => []
    | .inserting proc pos specPos =>
      if s.slots.length < (s.slots.insert s.numberMax proc pos specPos).1.length then
        [.inserted proc]
      else []
  | .detach _ proc => if proc.isSet && s.slots.isAttached proc then [.erased proc] else []

/-- The thread is not between the two steps of `attach`. -/
def Free (s : Emitters T μ ω φ τ) (t : T) : Prop := s.signal.phase t = .outside

instance (s : Emitters T μ ω φ τ) (t : T) : Decidable (s.Free t) :=
  match h : s.signal.phase t with
  | .outside => .isTrue h
  | .inserting .. => .isFalse fun h' => nomatch h.symm.trans h'

def step (s : Emitters T μ ω φ τ) :
    EmitMove T μ ω φ τ → Option (Emitters T μ ω φ τ × List (Ev μ ω φ τ))
  | .access m => do
    let (signal, _) ← s.signal.step m
    some ({ s with signal := signal }, changes s.signal m)
  | .emit t =>
    let id := s.emissions.length
    let tmp := s.signal.slots.map TFunction.copy
    let begun := s.emissions ++ [⟨tmp, 0⟩]
    if ¬ s.Free t then none
    else if s.signal.slots = [] then
      some ({ s with emissions := begun }, [.emitted id tmp, .ended id])
    else
      some ({ s with emissions := begun, stack := Function.update s.stack t (id :: s.stack t) },
        [.emitted id tmp])
  | .call t => do
    let id ← (s.stack t).head?
    let e ← s.emissions[id]?
    let proc ← e.tmp[e.iter]?
    if ¬ s.Free t then none
    else
      some ({ s with emissions := s.emissions.set id { e with iter := e.iter + 1 } },
        [.called id proc.copy])
  | .finish t => do
    let id ← (s.stack t).head?
    let e ← s.emissions[id]?
    if ¬ s.Free t ∨ e.iter < e.tmp.length then none
    else some ({ s with stack := Function.update s.stack t (s.stack t).tail }, [.ended id])
  | .raise t => do
    let id ← (s.stack t).head?
    let e ← s.emissions[id]?
    if ¬ s.Free t ∨ e.iter = 0 then none
    else some ({ s with stack := Function.update s.stack t (s.stack t).tail }, [.raised id])

/-! ### Accesses -/

variable {maxNum : ℤ}

/-- An access keeps the slots filled, and they hold what its changes make of them. -/
lemma access_keys {s u : TSignal T μ ω φ τ} {m : Move T μ ω φ τ} {o : List (T × ℤ)}
    (hs : TSignal.Kept maxNum s) (h : s.step m = some (u, o)) :
    TSignal.Kept maxNum u ∧ u.slots.keys = (changes s m).foldl hold s.slots.keys := by
  cases m with
  | attach t proc pos specPos =>
    simp only [TSignal.step] at h
    split at h
    · split_ifs at h with hset
      · obtain ⟨rfl, -⟩ := Prod.mk.inj (Option.some.inj h)
        exact ⟨hs, rfl⟩
      · obtain ⟨rfl, -⟩ := Prod.mk.inj (Option.some.inj h)
        exact ⟨hs, rfl⟩
      · obtain ⟨rfl, -⟩ := Prod.mk.inj (Option.some.inj h)
        refine ⟨⟨hs.filled, hs.room, TSignal.isSet_update hs ?_⟩, rfl⟩
        rintro _ _ _ ⟨⟩
        simpa using hset
    · cases h
  | insert t =>
    rcases hphase : s.phase t with _ | ⟨proc, pos, specPos⟩
    · simp [TSignal.step, hphase] at h
    · simp only [TSignal.step, hphase, Option.some.injEq, Prod.mk.injEq] at h
      obtain ⟨rfl, -⟩ := h
      obtain ⟨hfilled, hkeys⟩ := Slots.keys_insert hs.filled s.numberMax pos specPos
        (hs.isSet t proc pos specPos hphase)
      refine ⟨⟨hfilled, hs.room, TSignal.isSet_update hs (by simp)⟩, ?_⟩
      rw [hkeys, changes, hphase]
      dsimp only
      split_ifs <;> rfl
  | detach t proc =>
    simp only [TSignal.step] at h
    split at h
    · split_ifs at h with hset
      · obtain ⟨rfl, -⟩ := Prod.mk.inj (Option.some.inj h)
        refine ⟨hs, ?_⟩
        have hfalse : proc.isSet = false := by simpa using hset
        rw [changes, hfalse]
        rfl
      · obtain ⟨rfl, -⟩ := Prod.mk.inj (Option.some.inj h)
        have hsub := s.slots.detach_sublist proc
        have htrue : proc.isSet = true := by simpa using hset
        refine ⟨⟨fun slot hslot => hs.filled slot (hsub.subset hslot), hs.room, hs.isSet⟩, ?_⟩
        rw [changes, htrue, Bool.true_and]
        show (s.slots.detach proc).1.keys = _
        rw [Slots.keys_detach hs.filled htrue]
        split_ifs <;> rfl
    · cases h

/-! ### Emissions -/

/-- How far an emission has come is told by the log. -/
structure Told (log : List (Ev μ ω φ τ)) (id : ℕ) (e : Emission μ ω φ τ) : Prop where
  filled : e.tmp.Filled
  le : e.iter ≤ e.tmp.length
  calls : callsOf id log = e.tmp.take e.iter
  ended : .ended id ∈ log → e.iter = e.tmp.length

/-- At its beginning, an emission has copied what is attached and called nothing. -/
def Begun (log : List (Ev μ ω φ τ)) (id : ℕ) (slots : Slots μ ω φ τ) : Prop :=
  ∃ pre post, log = pre ++ .emitted id slots :: post ∧ slots.keys = attached pre ∧
    callsOf id pre = []

structure Follows (maxNum : ℤ) (s : Emitters T μ ω φ τ) (log : List (Ev μ ω φ τ)) : Prop where
  kept : TSignal.Kept maxNum s.signal
  keys : s.signal.slots.keys = attached log
  told : ∀ id e, s.emissions[id]? = some e → Told log id e ∧ .emitted id e.tmp ∈ log
  unborn : ∀ id, s.emissions.length ≤ id → callsOf id log = [] ∧ .ended id ∉ log
  begun : ∀ id slots, .emitted id slots ∈ log →
    Begun log id slots ∧ ∃ e, s.emissions[id]? = some e ∧ e.tmp = slots

omit [DecidableEq T] in
lemma Begun.append {log : List (Ev μ ω φ τ)} {id : ℕ} {slots : Slots μ ω φ τ}
    (h : Begun log id slots) (evs : List (Ev μ ω φ τ)) : Begun (log ++ evs) id slots := by
  obtain ⟨pre, post, rfl, hkeys, hcalls⟩ := h
  exact ⟨pre, post ++ evs, by simp, hkeys, hcalls⟩

variable {s u : Emitters T μ ω φ τ} {log evs : List (Ev μ ω φ τ)}

omit [DecidableEq T] in
/-- A move that begins no emission and calls nothing. -/
lemma Follows.quiet (h : Follows maxNum s log) (hkept : TSignal.Kept maxNum u.signal)
    (hkeys : u.signal.slots.keys = evs.foldl hold s.signal.slots.keys)
    (hemissions : u.emissions = s.emissions) (hquiet : ∀ e ∈ evs, e.Quiet)
    (hended : ∀ id, .ended id ∈ evs →
      ∃ e, s.emissions[id]? = some e ∧ e.iter = e.tmp.length) :
    Follows maxNum u (log ++ evs) where
  kept := hkept
  keys := by rw [attached_append, ← h.keys, hkeys]
  told id e he := by
    rw [hemissions] at he
    obtain ⟨htold, hmem⟩ := h.told id e he
    refine ⟨⟨htold.filled, htold.le, ?_, fun hin => ?_⟩, List.mem_append_left _ hmem⟩
    · rw [callsOf_append, callsOf_quiet hquiet, List.append_nil, htold.calls]
    · rcases List.mem_append.mp hin with hin | hin
      · exact htold.ended hin
      · obtain ⟨e', he', hiter⟩ := hended id hin
        obtain rfl := Option.some.inj (he.symm.trans he')
        exact hiter
  unborn id hid := by
    rw [hemissions] at hid
    obtain ⟨hcalls, hnot⟩ := h.unborn id hid
    refine ⟨by rw [callsOf_append, callsOf_quiet hquiet, hcalls, List.append_nil], fun hin => ?_⟩
    rcases List.mem_append.mp hin with hin | hin
    · exact hnot hin
    · obtain ⟨e', he', -⟩ := hended id hin
      have hlt := (List.getElem?_eq_some_iff.mp he').1
      omega
  begun id slots hin := by
    rcases List.mem_append.mp hin with hin | hin
    · obtain ⟨hbegun, he⟩ := h.begun id slots hin
      exact ⟨hbegun.append evs, hemissions ▸ he⟩
    · exact (hquiet _ hin).elim

omit [DecidableEq T] in
/-- The beginning of an emission; of one without slots, the end as well. -/
lemma Follows.emit (h : Follows maxNum s log) {evs : List (Ev μ ω φ τ)}
    (hrest : evs = [] ∨ s.signal.slots = [] ∧ evs = [.ended s.emissions.length])
    (hsignal : u.signal = s.signal)
    (hemissions : u.emissions = s.emissions ++ [⟨s.signal.slots, 0⟩]) :
    Follows maxNum u (log ++ .emitted s.emissions.length s.signal.slots :: evs) := by
  have hquiet : ∀ e ∈ evs, e.Quiet := by
    rcases hrest with rfl | ⟨-, rfl⟩ <;> simp [Ev.Quiet]
  have hcalls (id : ℕ) : callsOf id (log ++ .emitted s.emissions.length s.signal.slots :: evs) =
      callsOf id log := by
    have hnil := callsOf_quiet hquiet id
    unfold callsOf at hnil ⊢
    rw [List.filterMap_append, List.filterMap_cons, hnil, List.append_nil]
  have hended {id : ℕ}
      (hin : .ended id ∈ log ++ .emitted s.emissions.length s.signal.slots :: evs) :
      .ended id ∈ log ∨ s.signal.slots = [] ∧ id = s.emissions.length := by
    rcases List.mem_append.mp hin with hin | hin
    · exact .inl hin
    · rcases hrest with rfl | ⟨hempty, rfl⟩
      · simp at hin
      · exact .inr ⟨hempty, by simpa using hin⟩
  refine ⟨hsignal ▸ h.kept, ?_, fun id e he => ?_, fun id hid => ?_, fun id slots hin => ?_⟩
  · rw [hsignal, attached_append, h.keys]
    rcases hrest with rfl | ⟨-, rfl⟩ <;> rfl
  · rw [hemissions, List.getElem?_append] at he
    split_ifs at he with hlt
    · obtain ⟨htold, hmem⟩ := h.told id e he
      refine ⟨⟨htold.filled, htold.le, (hcalls id).trans htold.calls, fun hin => ?_⟩,
        List.mem_append_left _ hmem⟩
      rcases hended hin with hin | ⟨-, rfl⟩
      · exact htold.ended hin
      · omega
    · obtain ⟨hid, rfl⟩ :
          id = s.emissions.length ∧ (⟨s.signal.slots, 0⟩ : Emission μ ω φ τ) = e := by
        have hzero := (List.getElem?_eq_some_iff.mp he).1
        rw [List.length_singleton] at hzero
        have hid : id = s.emissions.length := by omega
        rw [hid, Nat.sub_self] at he
        exact ⟨hid, by simpa using he⟩
      subst hid
      obtain ⟨hnone, hnot⟩ := h.unborn s.emissions.length le_rfl
      refine ⟨⟨h.kept.filled, Nat.zero_le _, (hcalls _).trans hnone, fun hin => ?_⟩, by simp⟩
      rcases hended hin with hin | ⟨hempty, -⟩
      · exact absurd hin hnot
      · simp [hempty]
  · rw [hemissions, List.length_append, List.length_singleton] at hid
    obtain ⟨hnone, hnot⟩ := h.unborn id (by omega)
    refine ⟨(hcalls id).trans hnone, fun hin => ?_⟩
    rcases hended hin with hin | ⟨-, rfl⟩
    · exact hnot hin
    · omega
  · rw [hemissions]
    rcases List.mem_append.mp hin with hin | hin
    · obtain ⟨hbegun, e, he, htmp⟩ := h.begun id slots hin
      exact ⟨hbegun.append _, e, List.getElem?_append_left
        (List.getElem?_eq_some_iff.mp he).1 ▸ he, htmp⟩
    · rcases List.mem_cons.mp hin with heq | hin
      · obtain ⟨rfl, rfl⟩ := Ev.emitted.inj heq
        refine ⟨⟨log, evs, rfl, h.keys, (h.unborn _ le_rfl).1⟩, ⟨s.signal.slots, 0⟩, ?_, rfl⟩
        rw [List.getElem?_append_right le_rfl, Nat.sub_self]
        rfl
      · exact (hquiet _ hin).elim

omit [DecidableEq T] in
/-- A pass of the loop. -/
lemma Follows.call (h : Follows maxNum s log) {id : ℕ} {e : Emission μ ω φ τ}
    (he : s.emissions[id]? = some e) {proc : TFunction μ ω φ τ} (hproc : e.tmp[e.iter]? = some proc)
    (hsignal : u.signal = s.signal)
    (hemissions : u.emissions = s.emissions.set id { e with iter := e.iter + 1 }) :
    Follows maxNum u (log ++ [.called id proc.copy]) := by
  obtain ⟨htold, hmem⟩ := h.told id e he
  obtain ⟨hlt, hget⟩ := List.getElem?_eq_some_iff.mp hproc
  have hid := (List.getElem?_eq_some_iff.mp he).1
  have hcopy : proc.copy = proc := (htold.filled proc (hget ▸ List.getElem_mem hlt)).2
  have hcalls (id' : ℕ) : callsOf id' (log ++ [.called id proc.copy]) =
      callsOf id' log ++ if id = id' then [proc] else [] := by
    rw [callsOf_append, hcopy]
    congr 1
    unfold callsOf
    split_ifs with heq <;> simp [heq]
  have hended {id' : ℕ} (hin : .ended id' ∈ log ++ [.called id proc.copy]) : .ended id' ∈ log := by
    simpa using hin
  refine ⟨hsignal ▸ h.kept, ?_, fun id' e' he' => ?_, fun id' hid' => ?_, fun id' slots hin => ?_⟩
  · rw [hsignal, attached_append, h.keys]
    rfl
  · rw [hemissions, List.getElem?_set] at he'
    split_ifs at he' with heq
    · subst heq
      obtain rfl := Option.some.inj he'
      refine ⟨⟨htold.filled, hlt, ?_, fun hin => ?_⟩, List.mem_append_left _ hmem⟩
      · rw [hcalls, if_pos rfl, htold.calls, List.take_add_one, hproc]
        rfl
      · exact absurd (htold.ended (hended hin)) (by omega)
    · obtain ⟨htold', hmem'⟩ := h.told id' e' he'
      refine ⟨⟨htold'.filled, htold'.le, ?_, fun hin => htold'.ended (hended hin)⟩,
        List.mem_append_left _ hmem'⟩
      rw [hcalls, if_neg heq, List.append_nil, htold'.calls]
  · rw [hemissions, List.length_set] at hid'
    obtain ⟨hnone, hnot⟩ := h.unborn id' hid'
    refine ⟨?_, fun hin => hnot (hended hin)⟩
    rw [hcalls, if_neg (by omega), List.append_nil, hnone]
  · have hin : .emitted id' slots ∈ log := by simpa using hin
    obtain ⟨hbegun, e', he', htmp⟩ := h.begun id' slots hin
    refine ⟨hbegun.append _, ?_⟩
    rw [hemissions]
    by_cases heq : id = id'
    · subst heq
      obtain rfl := Option.some.inj (he.symm.trans he')
      exact ⟨_, List.getElem?_set_self hid, htmp⟩
    · exact ⟨e', (List.getElem?_set_ne heq).trans he', htmp⟩

omit [DecidableEq T] in
lemma changes_quiet (s : TSignal T μ ω φ τ) (m : Move T μ ω φ τ) :
    ∀ e ∈ changes s m, e.Quiet ∧ ∀ id, e ≠ .ended id := by
  intro e he
  cases m with
  | attach t proc pos specPos => cases he
  | insert t =>
    simp only [changes] at he
    split at he
    · cases he
    · split_ifs at he
      · obtain rfl := List.mem_singleton.mp he
        exact ⟨trivial, fun id h => by cases h⟩
      · cases he
  | detach t proc =>
    simp only [changes] at he
    split_ifs at he
    · obtain rfl := List.mem_singleton.mp he
      exact ⟨trivial, fun id h => by cases h⟩
    · cases he

lemma follows_step {m : EmitMove T μ ω φ τ} {evs : List (Ev μ ω φ τ)}
    (h : Follows maxNum s log) (hstep : step s m = some (u, evs)) :
    Follows maxNum u (log ++ evs) := by
  cases m with
  | access m =>
    simp only [step, Option.bind_eq_bind, Option.bind_eq_some_iff] at hstep
    obtain ⟨⟨signal, o⟩, hsignal, hout⟩ := hstep
    obtain ⟨rfl, rfl⟩ := Prod.mk.inj (Option.some.inj hout)
    obtain ⟨hkept, hkeys⟩ := access_keys h.kept hsignal
    refine h.quiet hkept hkeys rfl (fun e he => (changes_quiet _ _ e he).1) fun id hin => ?_
    exact absurd rfl ((changes_quiet _ _ _ hin).2 id)
  | emit t =>
    simp only [step, h.kept.filled.map_copy] at hstep
    split_ifs at hstep with hfree hempty
    · obtain ⟨rfl, rfl⟩ := Prod.mk.inj (Option.some.inj hstep)
      exact h.emit (.inr ⟨hempty, rfl⟩) rfl rfl
    · obtain ⟨rfl, rfl⟩ := Prod.mk.inj (Option.some.inj hstep)
      exact h.emit (.inl rfl) rfl rfl
  | call t =>
    simp only [step, Option.bind_eq_bind, Option.bind_eq_some_iff] at hstep
    obtain ⟨id, -, e, he, proc, hproc, hout⟩ := hstep
    split_ifs at hout
    obtain ⟨rfl, rfl⟩ := Prod.mk.inj (Option.some.inj hout)
    exact h.call he hproc rfl rfl
  | finish t =>
    simp only [step, Option.bind_eq_bind, Option.bind_eq_some_iff] at hstep
    obtain ⟨id, -, e, he, hout⟩ := hstep
    split_ifs at hout with hmore
    obtain ⟨rfl, rfl⟩ := Prod.mk.inj (Option.some.inj hout)
    refine h.quiet h.kept rfl rfl (by simp [Ev.Quiet]) fun id' hin => ?_
    obtain rfl : id' = id := by simpa using hin
    have hle := (h.told id' e he).1.le
    exact ⟨e, he, by omega⟩
  | raise t =>
    simp only [step, Option.bind_eq_bind, Option.bind_eq_some_iff] at hstep
    obtain ⟨id, -, e, -, hout⟩ := hstep
    split_ifs at hout
    obtain ⟨rfl, rfl⟩ := Prod.mk.inj (Option.some.inj hout)
    exact h.quiet h.kept rfl rfl (by simp [Ev.Quiet]) (by simp)

omit [DecidableEq T] in
lemma follows_init (h : 0 ≤ maxNum) : Follows maxNum (init maxNum : Emitters T μ ω φ τ) [] where
  kept := TSignal.kept_init h
  keys := rfl
  told id e he := by simp [init] at he
  unborn id hid := ⟨rfl, List.not_mem_nil⟩
  begun id slots hin := absurd hin List.not_mem_nil

lemma follows_run (hmax : 0 ≤ maxNum) {ms : List (EmitMove T μ ω φ τ)}
    (hrun : run step (init maxNum) ms = some (s, log)) : Follows maxNum s log :=
  run_inv (I := fun _ s log => Follows maxNum s log) (follows_init hmax)
    (fun _ _ _ _ _ _ h _ hstep => follows_step h hstep) hrun (along_true _ ms)

/-! ### Callbacks that are called twice -/

/-- No thread puts in a callback that another has put in since it looked. -/
def Fresh (s : Emitters T μ ω φ τ) : EmitMove T μ ω φ τ → Prop
  | .access m => s.signal.Fresh m
  | _ => True

lemma sound_step {m : EmitMove T μ ω φ τ} {evs : List (Ev μ ω φ τ)}
    (hkept : TSignal.Kept maxNum s.signal) (hsound : TSignal.Sound maxNum s.signal)
    (hfresh : s.Fresh m) (hstep : step s m = some (u, evs)) :
    TSignal.Kept maxNum u.signal ∧ TSignal.Sound maxNum u.signal ∧
      ∀ id slots, .emitted id slots ∈ evs → slots.keys.Nodup := by
  have hstay {u : Emitters T μ ω φ τ} {evs : List (Ev μ ω φ τ)} (hu : u.signal = s.signal)
      (hevs : ∀ id slots, .emitted id slots ∈ evs → slots = s.signal.slots) :
      TSignal.Kept maxNum u.signal ∧ TSignal.Sound maxNum u.signal ∧
        ∀ id slots, .emitted id slots ∈ evs → slots.keys.Nodup := by
    refine ⟨hu ▸ hkept, hu ▸ hsound, fun id slots hin => ?_⟩
    rw [hevs id slots hin]
    exact Multiset.coe_nodup.mpr (hkept.filled.distinct_iff.mp hsound.1)
  cases m with
  | access m =>
    simp only [step, Option.bind_eq_bind, Option.bind_eq_some_iff] at hstep
    obtain ⟨⟨signal, o⟩, hsignal, hout⟩ := hstep
    obtain ⟨rfl, rfl⟩ := Prod.mk.inj (Option.some.inj hout)
    obtain ⟨hkept', hiff⟩ := TSignal.step_sound hkept hsound hsignal
    refine ⟨hkept', hiff.mpr hfresh, fun id slots hin => ?_⟩
    exact ((changes_quiet _ _ _ hin).1).elim
  | emit t =>
    simp only [step, hkept.filled.map_copy] at hstep
    split_ifs at hstep with hfree hempty
    · obtain ⟨rfl, rfl⟩ := Prod.mk.inj (Option.some.inj hstep)
      exact hstay rfl (by simp)
    · obtain ⟨rfl, rfl⟩ := Prod.mk.inj (Option.some.inj hstep)
      exact hstay rfl (by simp)
  | call t =>
    simp only [step, Option.bind_eq_bind, Option.bind_eq_some_iff] at hstep
    obtain ⟨id, -, e, -, proc, -, hout⟩ := hstep
    split_ifs at hout
    obtain ⟨rfl, rfl⟩ := Prod.mk.inj (Option.some.inj hout)
    exact hstay rfl (by simp)
  | finish t | raise t =>
    simp only [step, Option.bind_eq_bind, Option.bind_eq_some_iff] at hstep
    obtain ⟨id, -, e, -, hout⟩ := hstep
    split_ifs at hout
    obtain ⟨rfl, rfl⟩ := Prod.mk.inj (Option.some.inj hout)
    exact hstay rfl (by simp)

lemma nodup_run (hmax : 0 ≤ maxNum) {ms : List (EmitMove T μ ω φ τ)}
    (hrun : run step (init maxNum) ms = some (s, log))
    (hfresh : Along step Fresh (init maxNum) ms) {id : ℕ} {slots : Slots μ ω φ τ}
    (hin : .emitted id slots ∈ log) : slots.keys.Nodup := by
  have hinv := run_inv (C := Fresh) (I := fun _ (s : Emitters T μ ω φ τ) log =>
    TSignal.Kept maxNum s.signal ∧ TSignal.Sound maxNum s.signal ∧
      ∀ id slots, .emitted id slots ∈ log → slots.keys.Nodup)
    ⟨TSignal.kept_init hmax, TSignal.sound_init hmax, by simp⟩ ?_ hrun hfresh
  · exact hinv.2.2 id slots hin
  · rintro ms s log m u evs ⟨hkept, hsound, hnodup⟩ hm hstep
    obtain ⟨hkept', hsound', hnodup'⟩ := sound_step hkept hsound hm hstep
    refine ⟨hkept', hsound', fun id slots hin => ?_⟩
    rcases List.mem_append.mp hin with hin | hin
    · exact hnodup id slots hin
    · exact hnodup' id slots hin

/-- **Emissions**: whatever threads and callbacks attach, detach and emit meanwhile, an emission
calls the callbacks that were attached when it began, in the order of their slots, all of them
unless one raises; each of them is set, and once if nobody attaches a callback that another has
attached since it looked. -/
theorem emission_calls (hmax : 0 ≤ maxNum) {ms : List (EmitMove T μ ω φ τ)}
    (hrun : run step (init maxNum) ms = some (s, log)) :
    (∀ id slots, .emitted id slots ∈ log →
      Begun log id slots ∧ (∀ slot ∈ slots, slot.isSet) ∧ callsOf id log <+: slots ∧
      (.ended id ∈ log → callsOf id log = slots) ∧
      (Along step Fresh (init maxNum) ms → (callsOf id log).keys.Nodup)) ∧
    ∀ id proc, .called id proc ∈ log → ∃ slots, .emitted id slots ∈ log := by
  have hfollows := follows_run hmax hrun
  refine ⟨fun id slots hin => ?_, fun id proc hin => ?_⟩
  · obtain ⟨hbegun, e, he, rfl⟩ := hfollows.begun id slots hin
    obtain ⟨htold, -⟩ := hfollows.told id e he
    have hfront : callsOf id log <+: e.tmp := htold.calls ▸ List.take_prefix _ _
    refine ⟨hbegun, fun slot hslot => (htold.filled slot hslot).1, hfront, fun hended => ?_,
      fun hfresh => ?_⟩
    · rw [htold.calls, htold.ended hended, List.take_length]
    · have hnodup := Multiset.coe_nodup.mp (nodup_run hmax hrun hfresh hin)
      exact Multiset.coe_nodup.mpr (hnodup.sublist (hfront.sublist.map _))
  · have hcall : proc ∈ callsOf id log := List.mem_filterMap.mpr ⟨_, hin, if_pos rfl⟩
    have hlt : id < s.emissions.length := by
      by_contra hge
      rw [(hfollows.unborn id (by omega)).1] at hcall
      cases hcall
    exact ⟨_, (hfollows.told id _ (List.getElem?_eq_getElem hlt)).2⟩

/-- A function that is detached while an emission goes on is called by it all the same. -/
def detachedMeanwhile : List (EmitMove ℕ ℕ ℕ ℕ ℕ) :=
  let f : TFunction ℕ ℕ ℕ ℕ := ⟨⟨none, none⟩, .pointer 0, false⟩
  let g : TFunction ℕ ℕ ℕ ℕ := ⟨⟨none, none⟩, .pointer 1, false⟩
  [.access (.attach 0 f .posBack 0), .access (.insert 0), .access (.attach 0 g .posBack 0),
    .access (.insert 0), .emit 0, .call 0, .access (.detach 1 g), .call 0, .finish 0]

theorem detached_called : ∃ s log, run step (init 16) detachedMeanwhile = some (s, log) ∧
    s.signal.slots.map TFunction.func = [.pointer 0] ∧
    (callsOf 0 log).map TFunction.func = [.pointer 0, .pointer 1] := by
  obtain ⟨s, log, slots, hrun, hslots, hin, hended, hfunc⟩ :
      ∃ s log slots, run step (init 16) detachedMeanwhile = some (s, log) ∧
        s.signal.slots.map TFunction.func = [.pointer 0] ∧ .emitted 0 slots ∈ log ∧
        .ended 0 ∈ log ∧ slots.map TFunction.func = [.pointer 0, .pointer 1] :=
    ⟨_, _, _, rfl, rfl, .tail _ (.tail _ (.head _)),
      .tail _ (.tail _ (.tail _ (.tail _ (.tail _ (.tail _ (.head _)))))), rfl⟩
  have hcalls := ((emission_calls (by norm_num) hrun).1 0 slots hin).2.2.2.1 hended
  exact ⟨s, log, hrun, hslots, hcalls.symm ▸ hfunc⟩

end Emitters

end DataEngine.Signal
