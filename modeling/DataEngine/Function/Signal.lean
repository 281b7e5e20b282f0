import DataEngine.Base
import DataEngine.Lib.Machine

/-!
The slots of a signal.

A callback is attached in two steps under the same lock: one looks whether it is there, the
other puts it in. What another thread attaches between the two is not looked at again, so that a
callback may come to be there twice.
-/

namespace DataEngine.Signal

open Lib.Machine

/-! ### Callbacks -/

variable {μ ω φ τ : Type}

/-- A `std::function`: none, a pointer to a function, or an object of some other type. What the
object holds is not looked at. -/
inductive Func (φ τ : Type) where
  | empty
  | pointer (f : φ)
  | object (type : τ)
  deriving DecidableEq

namespace Func

/-- `target<R(*)(P...)>()` -/
def target : Func φ τ → Option φ
  | .pointer f => some f
  | _ => none

/-- `target_type()`; that of a pointer is the same for all. -/
def targetType : Func φ τ → Option (Unit ⊕ τ)
  | .empty => none
  | .pointer _ => some (.inl ())
  | .object type => some (.inr type)

end Func

/-- A member function and the object it is called for, each of which may be null. -/
structure MemberFunc (μ ω : Type) where
  proc : Option μ
  obj : Option ω
  deriving DecidableEq

structure TFunction (μ ω φ τ : Type) where
  memFunc : MemberFunc μ ω
  func : Func φ τ
  bMemFunc : Bool

namespace TFunction

def null : TFunction μ ω φ τ := ⟨⟨none, none⟩, .empty, false⟩

/-- `operator bool` -/
def isSet (p : TFunction μ ω φ τ) : Bool :=
  if p.bMemFunc then p.memFunc.proc.isSome && p.memFunc.obj.isSome
  else
    match p.func with
    | .empty => false
    | _ => true

/-- `operator=`: of the two callbacks a variable may hold, only the one in use is copied. -/
def assign (p ef : TFunction μ ω φ τ) : TFunction μ ω φ τ :=
  if ef.bMemFunc then { p with memFunc := ef.memFunc, bMemFunc := true }
  else { p with func := ef.func, bMemFunc := false }

/-- The copy constructor -/
def copy (ef : TFunction μ ω φ τ) : TFunction μ ω φ τ := null.assign ef

/-- The callback in use -/
def key (p : TFunction μ ω φ τ) : MemberFunc μ ω ⊕ Func φ τ :=
  if p.bMemFunc then .inl p.memFunc else .inr p.func

@[simp] lemma isSet_copy (p : TFunction μ ω φ τ) : p.copy.isSet = p.isSet := by
  rcases p with ⟨m, f, _ | _⟩ <;> rfl

@[simp] lemma key_copy (p : TFunction μ ω φ τ) : p.copy.key = p.key := by
  rcases p with ⟨m, f, _ | _⟩ <;> rfl

@[simp] lemma copy_copy (p : TFunction μ ω φ τ) : p.copy.copy = p.copy := by
  rcases p with ⟨m, f, _ | _⟩ <;> rfl

variable [DecidableEq μ] [DecidableEq ω] [DecidableEq φ] [DecidableEq τ]

/-- `operator==` -/
def eq (p ef : TFunction μ ω φ τ) : Bool :=
  if p.bMemFunc then p.memFunc = ef.memFunc
  else
    match p.func.target, ef.func.target with
    | none, none => p.func.targetType = ef.func.targetType
    | some a1, some a2 => a1 = a2
    | _, _ => false

/-- A callback that is set equals the copy of another just if the two in use are the same:
of what else a variable holds the copy is free. -/
lemma eq_copy_iff {p q : TFunction μ ω φ τ} (hp : p.isSet) (hq : q.isSet) :
    p.eq q.copy ↔ p.key = q.key := by
  obtain ⟨⟨proc, obj⟩, f, _ | _⟩ := p <;> obtain ⟨⟨proc', obj'⟩, f', _ | _⟩ := q
  · cases f <;> cases f' <;>
      simp_all [isSet, eq, copy, assign, null, key, Func.target, Func.targetType]
  · cases f <;> simp_all [isSet, eq, copy, assign, null, key, Func.target, Func.targetType]
  · cases proc <;> simp_all [isSet, eq, copy, assign, null, key]
  · simp [eq, copy, assign, null, key]

end TFunction

/-! ### Slots -/

/-- The position of a slot; a value of the enumeration may have no name. -/
inductive SlotPosition where
  | posAny
  | posBack
  | posFront
  | other
  deriving DecidableEq

def codeNoFound : ℤ := -1
def codeExist : ℤ := -2
def codeFull : ℤ := -3
def codeEmpty : ℤ := -4

/-- `m_lstSlots` -/
abbrev Slots (μ ω φ τ : Type) : Type := List (TFunction μ ω φ τ)

namespace Slots

/-- The number of slots, returned as an `int`. -/
def code (slots : Slots μ ω φ τ) : ℤ := Int.bmod slots.length (2 ^ 32)

/-- The loop of `posAny`: the slot comes before the one whose number, counted from `i + 1` on,
is `specPos`. -/
def insertBefore (slot : TFunction μ ω φ τ) (specPos : ℕ) : ℕ → Slots μ ω φ τ → Slots μ ω φ τ
  | _, [] => []
  | i, iter :: rest =>
    if specPos = i + 1 then slot :: iter :: rest
    else iter :: insertBefore slot specPos (i + 1) rest

/-- What `attach` does when it has found that the callback is not there. -/
def insert (slots : Slots μ ω φ τ) (numberMax : ℕ) (proc : TFunction μ ω φ τ) (pos : SlotPosition)
    (specPos : UInt32) : Slots μ ω φ τ × ℤ :=
  if numberMax ≤ slots.length then (slots, codeFull)
  else
    let slot := TFunction.null.assign proc
    let pushBack := slots ++ [slot.copy]
    let pushFront := slot.copy :: slots
    match pos with
    | .posBack => (pushBack, code pushBack)
    | .posFront => (pushFront, code pushFront)
    | .posAny =>
      if numberMax ≤ specPos.toNat then (slots, codeNoFound)
      else if specPos = 0 then (slots, codeNoFound)
      else if slots.length < specPos.toNat then (pushBack, code pushBack)
      else
        let inserted := insertBefore slot.copy specPos.toNat 0 slots
        (inserted, code inserted)
    | .other => (slots, code slots)

/-- There is room, and the position is one to insert at. -/
def Admits (slots : Slots μ ω φ τ) (numberMax : ℕ) (pos : SlotPosition) (specPos : UInt32) : Prop :=
  slots.length < numberMax ∧
    match pos with
    | .posBack | .posFront => True
    | .posAny => 0 < specPos.toNat ∧ specPos.toNat < numberMax
    | .other => False

lemma insertBefore_perm (slot : TFunction μ ω φ τ) (specPos : ℕ) {i : ℕ} {slots : Slots μ ω φ τ}
    (hlo : i < specPos) (hhi : specPos ≤ i + slots.length) :
    (insertBefore slot specPos i slots).Perm (slot :: slots) := by
  induction slots generalizing i with
  | nil =>
    simp only [List.length_nil] at hhi
    omega
  | cons iter rest ih =>
    unfold insertBefore
    split_ifs with hhere
    · exact .refl _
    · simp only [List.length_cons] at hhi
      exact ((ih (by omega) (by omega)).cons iter).trans (.swap slot iter rest)

/-- Wherever it is inserted, there is one slot more, the callback's. -/
lemma insert_perm {slots : Slots μ ω φ τ} {numberMax : ℕ} {pos : SlotPosition} {specPos : UInt32}
    (h : slots.Admits numberMax pos specPos) (proc : TFunction μ ω φ τ) :
    (slots.insert numberMax proc pos specPos).1.Perm (proc.copy :: slots) := by
  obtain ⟨hroom, hpos⟩ := h
  have hslot : (TFunction.null.assign proc).copy = proc.copy := proc.copy_copy
  unfold insert
  rw [if_neg (not_le.mpr hroom)]
  simp only [hslot]
  cases pos with
  | posBack => exact List.perm_append_singleton _ _
  | posFront => exact .refl _
  | other => exact hpos.elim
  | posAny =>
    have hzero : specPos ≠ 0 := by
      rintro rfl
      exact absurd hpos.1 (by simp)
    simp only [if_neg (not_le.mpr hpos.2), if_neg hzero]
    split_ifs with hbehind
    · exact List.perm_append_singleton _ _
    · exact insertBefore_perm _ _ hpos.1 (by omega)

lemma insert_of_not_admits {slots : Slots μ ω φ τ} {numberMax : ℕ} {pos : SlotPosition}
    {specPos : UInt32} (h : ¬ slots.Admits numberMax pos specPos) (proc : TFunction μ ω φ τ) :
    (slots.insert numberMax proc pos specPos).1 = slots := by
  by_cases hroom : numberMax ≤ slots.length
  · unfold insert
    rw [if_pos hroom]
  · unfold insert
    rw [if_neg hroom]
    simp only [Admits, not_le.mp hroom, true_and] at h
    cases pos with
    | posBack | posFront => exact absurd trivial h
    | other => rfl
    | posAny =>
      by_cases hmax : numberMax ≤ specPos.toNat
      · simp only [if_pos hmax]
      · have hzero : specPos = 0 := by
          by_contra hzero
          refine h ⟨Nat.pos_of_ne_zero fun h0 => hzero ?_, not_le.mp hmax⟩
          exact UInt32.toNat_inj.mp h0
        simp only [if_neg hmax, if_pos hzero]

lemma length_insert_le {slots : Slots μ ω φ τ} {numberMax : ℕ} (pos : SlotPosition)
    (specPos : UInt32) (proc : TFunction μ ω φ τ) {maxNum : ℤ} (hmax : (numberMax : ℤ) ≤ maxNum)
    (hlen : (slots.length : ℤ) ≤ maxNum) :
    ((slots.insert numberMax proc pos specPos).1.length : ℤ) ≤ maxNum := by
  by_cases h : slots.Admits numberMax pos specPos
  · have hlength := (insert_perm h proc).length_eq
    have := h.1
    rw [List.length_cons] at hlength
    omega
  · rwa [insert_of_not_admits h]

variable [DecidableEq μ] [DecidableEq ω] [DecidableEq φ] [DecidableEq τ]

def isAttached (slots : Slots μ ω φ τ) (proc : TFunction μ ω φ τ) : Bool :=
  slots.any fun slot => proc.eq slot

def detach (slots : Slots μ ω φ τ) (proc : TFunction μ ω φ τ) : Slots μ ω φ τ × ℤ :=
  if slots.isAttached proc then
    let erased := slots.eraseP fun slot => proc.eq slot
    (erased, code erased)
  else (slots, codeNoFound)

/-- No two of them are equal, either way they are compared. -/
def Distinct (slots : Slots μ ω φ τ) : Prop :=
  slots.Pairwise fun p q => p.eq q = false ∧ q.eq p = false

/-- Each slot holds a copy of a callback that is set. -/
def Filled (slots : Slots μ ω φ τ) : Prop := ∀ slot ∈ slots, slot.isSet ∧ slot.copy = slot

section Filled

variable {slots : Slots μ ω φ τ} (h : slots.Filled)

include h

lemma Filled.eq_iff {p q : TFunction μ ω φ τ} (hp : p.isSet) (hq : q ∈ slots) :
    p.eq q ↔ p.key = q.key := by
  obtain ⟨hset, hcopy⟩ := h q hq
  rw [← hcopy, TFunction.eq_copy_iff hp hset, TFunction.key_copy]

lemma Filled.isAttached_iff {proc : TFunction μ ω φ τ} (hproc : proc.isSet) :
    slots.isAttached proc ↔ proc.key ∈ slots.map TFunction.key := by
  simp only [isAttached, List.any_eq_true, List.mem_map]
  exact exists_congr fun slot => and_congr_right fun hslot =>
    (h.eq_iff hproc hslot).trans eq_comm

lemma Filled.distinct_iff : slots.Distinct ↔ (slots.map TFunction.key).Nodup := by
  rw [List.nodup_iff_pairwise_ne, List.pairwise_map, Distinct]
  refine List.Pairwise.iff_of_mem fun {p q} hp hq => ?_
  have hpq := h.eq_iff (h p hp).1 hq
  have hqp := h.eq_iff (h q hq).1 hp
  rw [Bool.eq_false_iff, Bool.eq_false_iff, Ne, Ne, hpq, hqp, eq_comm (a := q.key), and_self]

end Filled

/-- Inserting keeps the slots filled, and distinct just if the callback was not among them. -/
lemma distinct_insert_iff {slots : Slots μ ω φ τ} (numberMax : ℕ) (pos : SlotPosition)
    (specPos : UInt32) {proc : TFunction μ ω φ τ} (hfilled : slots.Filled)
    (hdistinct : slots.Distinct) (hproc : proc.isSet) :
    (slots.insert numberMax proc pos specPos).1.Filled ∧
      ((slots.insert numberMax proc pos specPos).1.Distinct ↔
        (slots.Admits numberMax pos specPos → slots.isAttached proc = false)) := by
  by_cases hadmits : slots.Admits numberMax pos specPos
  · have hperm := insert_perm hadmits proc
    have hfilled' : (slots.insert numberMax proc pos specPos).1.Filled := fun slot hslot => by
      rcases List.mem_cons.mp (hperm.mem_iff.mp hslot) with rfl | hslot
      · exact ⟨by simpa using hproc, by simp⟩
      · exact hfilled slot hslot
    refine ⟨hfilled', ?_⟩
    have hnodup := hfilled.distinct_iff.mp hdistinct
    rw [hfilled'.distinct_iff, (hperm.map _).nodup_iff, List.map_cons, List.nodup_cons,
      TFunction.key_copy, ← hfilled.isAttached_iff hproc]
    simp [hnodup, hadmits]
  · rw [insert_of_not_admits hadmits]
    exact ⟨hfilled, by simp [hdistinct, hadmits]⟩

lemma detach_sublist (slots : Slots μ ω φ τ) (proc : TFunction μ ω φ τ) :
    (slots.detach proc).1.Sublist slots := by
  unfold detach
  split_ifs
  · exact List.eraseP_sublist
  · exact .refl _

end Slots

/-! ### Threads -/

variable {T : Type} [DecidableEq T] [DecidableEq μ] [DecidableEq ω] [DecidableEq φ] [DecidableEq τ]

/-- Where a thread is: in no call, or in `attach`, having found that the callback is not there. -/
inductive Phase (μ ω φ τ : Type) where
  | outside
  | inserting (proc : TFunction μ ω φ τ) (pos : SlotPosition) (specPos : UInt32)

structure TSignal (T μ ω φ τ : Type) where
  numberMax : ℕ
  slots : Slots μ ω φ τ
  phase : T → Phase μ ω φ τ

/-- What a thread does up to the next time it lets go of the lock. -/
inductive Move (T μ ω φ τ : Type) where
  /-- `attach` as far as `isAttached` -/
  | attach (t : T) (proc : TFunction μ ω φ τ) (pos : SlotPosition) (specPos : UInt32)
  /-- the rest of `attach` -/
  | insert (t : T)
  | detach (t : T) (proc : TFunction μ ω φ τ)

namespace TSignal

/-- The maximum is an `int`, which is kept as a size. -/
def init (maxNum : ℤ) : TSignal T μ ω φ τ := ⟨(maxNum % 2 ^ 64).toNat, [], fun _ => .outside⟩

/-- A move puts out what its thread returns from a call. -/
def step (s : TSignal T μ ω φ τ) :
    Move T μ ω φ τ → Option (TSignal T μ ω φ τ × List (T × ℤ))
  | .attach t proc pos specPos =>
    match s.phase t with
    | .outside =>
      if !proc.isSet then some (s, [(t, codeEmpty)])
      else if s.slots.isAttached proc then some (s, [(t, codeExist)])
      else some ({ s with phase := Function.update s.phase t (.inserting proc pos specPos) }, [])
    | .inserting .. => none
  | .insert t =>
    match s.phase t with
    | .outside => none
    | .inserting proc pos specPos =>
      let inserted := s.slots.insert s.numberMax proc pos specPos
      some ({ s with slots := inserted.1, phase := Function.update s.phase t .outside },
        [(t, inserted.2)])
  | .detach t proc =>
    match s.phase t with
    | .outside =>
      if !proc.isSet then some (s, [(t, codeEmpty)])
      else
        let detached := s.slots.detach proc
        some ({ s with slots := detached.1 }, [(t, detached.2)])
    | .inserting .. => none

/-- What a signal is for: its slots are pairwise different and no more than its maximum. -/
def Sound (maxNum : ℤ) (s : TSignal T μ ω φ τ) : Prop :=
  s.slots.Distinct ∧ (s.slots.length : ℤ) ≤ maxNum

/-- A callback that goes into a slot is still not there. -/
def Fresh (s : TSignal T μ ω φ τ) : Move T μ ω φ τ → Prop
  | .insert t => ∀ proc pos specPos, s.phase t = .inserting proc pos specPos →
      s.slots.Admits s.numberMax pos specPos → s.slots.isAttached proc = false
  | _ => True

/-- The slots are filled, as many as there may be, and whatever is to be inserted is set. -/
structure Kept (maxNum : ℤ) (s : TSignal T μ ω φ τ) : Prop where
  filled : s.slots.Filled
  room : (s.numberMax : ℤ) ≤ maxNum
  isSet : ∀ t proc pos specPos, s.phase t = .inserting proc pos specPos → proc.isSet

variable {maxNum : ℤ}

omit [DecidableEq T] [DecidableEq μ] [DecidableEq ω] [DecidableEq φ] [DecidableEq τ] in
lemma kept_init (h : 0 ≤ maxNum) : Kept maxNum (init maxNum : TSignal T μ ω φ τ) where
  filled := by simp [init, Slots.Filled]
  room := by
    simp only [init]
    omega
  isSet := by simp [init]

omit [DecidableEq T] in
lemma sound_init (h : 0 ≤ maxNum) : Sound maxNum (init maxNum : TSignal T μ ω φ τ) :=
  ⟨.nil, h⟩

omit [DecidableEq μ] [DecidableEq ω] [DecidableEq φ] [DecidableEq τ] in
/-- A thread that is to insert inserts a callback that is set. -/
lemma isSet_update {s : TSignal T μ ω φ τ} {t : T} {next : Phase μ ω φ τ} (hs : Kept maxNum s)
    (hnext : ∀ proc pos specPos, next = .inserting proc pos specPos → proc.isSet) (t' : T)
    (proc : TFunction μ ω φ τ) (pos : SlotPosition) (specPos : UInt32)
    (h : Function.update s.phase t next t' = .inserting proc pos specPos) : proc.isSet := by
  rw [Function.update_apply] at h
  split_ifs at h
  · exact hnext proc pos specPos h
  · exact hs.isSet t' proc pos specPos h

/-- One move: what is put in a slot makes the difference. -/
lemma step_sound {s u : TSignal T μ ω φ τ} {m : Move T μ ω φ τ} {o : List (T × ℤ)}
    (hs : Kept maxNum s) (hsound : Sound maxNum s) (h : step s m = some (u, o)) :
    Kept maxNum u ∧ (Sound maxNum u ↔ Fresh s m) := by
  cases m with
  | attach t proc pos specPos =>
    simp only [step] at h
    split at h
    · split_ifs at h with hset
      · obtain ⟨rfl, -⟩ := Prod.mk.inj (Option.some.inj h)
        exact ⟨hs, iff_of_true hsound trivial⟩
      · obtain ⟨rfl, -⟩ := Prod.mk.inj (Option.some.inj h)
        exact ⟨hs, iff_of_true hsound trivial⟩
      · obtain ⟨rfl, -⟩ := Prod.mk.inj (Option.some.inj h)
        refine ⟨⟨hs.filled, hs.room, isSet_update hs ?_⟩, iff_of_true hsound trivial⟩
        rintro _ _ _ ⟨⟩
        simpa using hset
    · cases h
  | insert t =>
    rcases hphase : s.phase t with _ | ⟨proc, pos, specPos⟩
    · simp [step, hphase] at h
    · simp only [step, hphase, Option.some.injEq, Prod.mk.injEq] at h
      obtain ⟨rfl, -⟩ := h
      obtain ⟨hfilled, hiff⟩ := Slots.distinct_insert_iff s.numberMax pos specPos hs.filled
        hsound.1 (hs.isSet t proc pos specPos hphase)
      refine ⟨⟨hfilled, hs.room, isSet_update hs (by simp)⟩, ?_⟩
      have hlen := Slots.length_insert_le pos specPos proc hs.room hsound.2
      simp [Sound, Fresh, hphase, hiff, hlen]
  | detach t proc =>
    simp only [step] at h
    split at h
    · split_ifs at h
      · obtain ⟨rfl, -⟩ := Prod.mk.inj (Option.some.inj h)
        exact ⟨hs, iff_of_true hsound trivial⟩
      · obtain ⟨rfl, -⟩ := Prod.mk.inj (Option.some.inj h)
        have hsub := s.slots.detach_sublist proc
        refine ⟨⟨fun slot hslot => hs.filled slot (hsub.subset hslot), hs.room, hs.isSet⟩,
          iff_of_true ⟨hsound.1.sublist hsub, ?_⟩ trivial⟩
        exact (Int.ofNat_le.mpr hsub.length_le).trans hsound.2
    · cases h

/-- **A signal holds no callback twice, nor more than its maximum, just if** its maximum is not
negative and between the two steps of `attach` nobody else attaches the callback. -/
theorem sound_iff (maxNum : ℤ) (ms : List (Move T μ ω φ τ)) :
    Always step (Sound maxNum) (init maxNum) ms ↔
      0 ≤ maxNum ∧ Along step Fresh (init maxNum) ms := by
  by_cases hmax : 0 ≤ maxNum
  · rw [and_iff_right hmax]
    refine always_iff_along (I := Kept maxNum) (fun s m t o => step_sound) ?_ (kept_init hmax)
      (sound_init hmax) ms
    intro s m hs hsound h
    cases m with
    | attach | detach => trivial
    | insert t =>
      intro proc pos specPos hphase
      simp [step, hphase] at h
  · refine iff_of_false (fun h => hmax ?_) fun h => hmax h.1
    exact (h [] ms _ _ rfl rfl).2

/-- Two threads attach the same function, each before the other has inserted it. -/
def race : List (Move ℕ ℕ ℕ ℕ ℕ) :=
  let f : TFunction ℕ ℕ ℕ ℕ := ⟨⟨none, none⟩, .pointer 0, false⟩
  [.attach 0 f .posBack 0, .attach 1 f .posBack 0, .insert 0, .insert 1]

theorem attached_twice : ¬ ∀ (maxNum : ℤ) (ms : List (Move ℕ ℕ ℕ ℕ ℕ)), 0 ≤ maxNum →
    Always step (Sound maxNum) (init maxNum) ms := by
  intro h
  have hsound := h 16 race (by norm_num) race [] _ _ (by simp) rfl
  have hdistinct := List.pairwise_cons.mp hsound.1
  exact absurd (hdistinct.1 _ List.mem_cons_self).1 (by decide)

end TSignal

end DataEngine.Signal
