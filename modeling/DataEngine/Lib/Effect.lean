import Mathlib

/-!
Programs over a state that may stop with a fault.

A run keeps the state it reached whether it answers or stops, so what a program has already
done before a fault is still seen. Three kinds of facts are carried through sequencing: a
relation between the state before and the state after, graded by a cost that adds up along
the run, the agreement of two runs from related states, and what holds of the fault or of the
state a run ends with.
-/

namespace Lib.Effect

variable {ε σ α β : Type}

/-- A program on states `σ` that answers, or stops with a fault. -/
abbrev Prog (ε σ α : Type) : Type := ExceptT ε (StateM σ) α

/-- The answer or the fault of a program started in `s`, and the state it stops in. -/
def exec (m : Prog ε σ α) (s : σ) : Except ε α × σ := StateT.run (ExceptT.run m) s

/-- A computation that does not touch the state. -/
def Prog.of (x : Except ε α) : Prog ε σ α := ExceptT.mk (pure x)

@[simp] lemma exec_pure (a : α) (s : σ) : exec (pure a : Prog ε σ α) s = (.ok a, s) := rfl
@[simp] lemma exec_throw (e : ε) (s : σ) : exec (throw e : Prog ε σ α) s = (.error e, s) := rfl
@[simp] lemma exec_get (s : σ) : exec (get : Prog ε σ σ) s = (.ok s, s) := rfl
@[simp] lemma exec_set (t s : σ) : exec (set t : Prog ε σ PUnit) s = (.ok ⟨⟩, t) := rfl
@[simp] lemma exec_modify (g : σ → σ) (s : σ) :
    exec (modify g : Prog ε σ PUnit) s = (.ok ⟨⟩, g s) := rfl
@[simp] lemma exec_of (x : Except ε α) (s : σ) : exec (Prog.of x : Prog ε σ α) s = (x, s) := rfl

lemma exec_bind (m : Prog ε σ α) (f : α → Prog ε σ β) (s : σ) :
    exec (m >>= f) s =
      match exec m s with
      | (.ok a, t) => exec (f a) t
      | (.error e, t) => (.error e, t) := by
  show StateT.run (ExceptT.run (m >>= f)) s = _
  simp only [ExceptT.run_bind, StateT.run_bind, exec]
  rcases h : StateT.run (ExceptT.run m) s with ⟨r, t⟩
  cases r <;> simp [bind, pure, StateT.run, StateT.pure]

lemma exec_bind_ok {m : Prog ε σ α} {f : α → Prog ε σ β} {s t : σ} {a : α}
    (h : exec m s = (.ok a, t)) : exec (m >>= f) s = exec (f a) t := by
  rw [exec_bind, h]

lemma exec_bind_error {m : Prog ε σ α} {f : α → Prog ε σ β} {s t : σ} {e : ε}
    (h : exec m s = (.error e, t)) : exec (m >>= f) s = (.error e, t) := by
  rw [exec_bind, h]

lemma exec_bind_eq_ok {m : Prog ε σ α} {f : α → Prog ε σ β} {s t : σ} {b : β} :
    exec (m >>= f) s = (.ok b, t) ↔
      ∃ a u, exec m s = (.ok a, u) ∧ exec (f a) u = (.ok b, t) := by
  rcases h : exec m s with ⟨e | a, u⟩
  · simp [exec_bind_error h]
  · simp [exec_bind_ok h]

@[simp] lemma exec_get_bind (f : σ → Prog ε σ β) (s : σ) :
    exec (get >>= f : Prog ε σ β) s = exec (f s) s := exec_bind_ok rfl

@[simp] lemma exec_modify_bind (g : σ → σ) (f : PUnit → Prog ε σ β) (s : σ) :
    exec (modify g >>= f : Prog ε σ β) s = exec (f ⟨⟩) (g s) := exec_bind_ok rfl

lemma exec_of_bind (x : Except ε α) (f : α → Prog ε σ β) (s : σ) :
    exec (Prog.of x >>= f) s =
      match x with
      | .ok a => exec (f a) s
      | .error e => (.error e, s) := by
  rw [exec_bind, exec_of]
  cases x <;> rfl

lemma exec_of_bind_eq_ok {x : Except ε α} {f : α → Prog ε σ β} {s t : σ} {b : β} :
    exec (Prog.of x >>= f) s = (.ok b, t) ↔ ∃ a, x = .ok a ∧ exec (f a) s = (.ok b, t) := by
  rw [exec_of_bind]
  cases x <;> simp

lemma Prog.of_ok (a : α) : (Prog.of (.ok a) : Prog ε σ α) = pure a := rfl

lemma Prog.of_bind (x : Except ε α) (f : α → Except ε β) :
    (Prog.of (x >>= f) : Prog ε σ β) = Prog.of x >>= fun a => Prog.of (f a) := by
  cases x <;> rfl

lemma Prog.of_map (g : α → β) (x : Except ε α) :
    (Prog.of (g <$> x) : Prog ε σ β) = g <$> Prog.of x := by
  cases x <;> rfl

lemma Prog.of_foldlM (f : β → α → Except ε β) (xs : List α) (b : β) :
    (Prog.of (xs.foldlM f b) : Prog ε σ β) = xs.foldlM (fun b x => Prog.of (f b x)) b := by
  induction xs generalizing b with
  | nil => rfl
  | cons x xs ih =>
    rw [List.foldlM_cons, List.foldlM_cons, Prog.of_bind]
    exact congrArg _ (funext fun c => ih c)

lemma bind_eq_ok {x : Except ε α} {f : α → Except ε β} {b : β} :
    (x >>= f) = .ok b ↔ ∃ a, x = .ok a ∧ f a = .ok b := by
  cases x <;> simp [bind, Except.bind]

lemma bind_eq_error {x : Except ε α} {f : α → Except ε β} {e : ε} :
    (x >>= f) = .error e ↔ x = .error e ∨ ∃ a, x = .ok a ∧ f a = .error e := by
  cases x <;> simp [bind, Except.bind]

/-- What every pass of a fold preserves holds of its result. -/
lemma foldlM_inv {P : β → Prop} {f : β → α → Except ε β}
    (hf : ∀ b x b', P b → f b x = .ok b' → P b') {xs : List α} {b b' : β} (hb : P b)
    (h : xs.foldlM f b = .ok b') : P b' := by
  induction xs generalizing b with
  | nil =>
    obtain rfl : b = b' := by simpa [pure, Except.pure] using h
    exact hb
  | cons x xs ih =>
    rw [List.foldlM_cons] at h
    obtain ⟨c, hc, hrest⟩ := bind_eq_ok.mp h
    exact ih (hf b x c hb hc) hrest

/-- A counted loop ends with its last pass. -/
lemma foldlM_range_succ (f : β → ℕ → Except ε β) (b : β) (n : ℕ) :
    (List.range (n + 1)).foldlM f b = (List.range n).foldlM f b >>= fun c => f c n := by
  simp [List.range_succ, List.foldlM_append]

/-- A list is gone through up to the first element that fails. -/
lemma mapM_eq_error {f : α → Except ε β} {xs : List α} {e : ε} :
    xs.mapM f = .error e ↔ ∃ pre x post, xs = pre ++ x :: post ∧
      (∀ y ∈ pre, ∃ b, f y = .ok b) ∧ f x = .error e := by
  induction xs with
  | nil => simp [pure, Except.pure]
  | cons x xs ih =>
    rw [List.mapM_cons]
    rcases hx : f x with d | b
    · constructor
      · intro h
        obtain rfl : d = e := by simpa [bind, Except.bind] using h
        exact ⟨[], x, xs, rfl, by simp, hx⟩
      · rintro ⟨_ | ⟨y, pre⟩, z, post, hxs, hpre, hz⟩
        · obtain ⟨rfl, -⟩ := List.cons.inj hxs
          obtain rfl := Except.error.inj (hx.symm.trans hz)
          rfl
        · obtain ⟨rfl, -⟩ := List.cons.inj hxs
          obtain ⟨b, hb⟩ := hpre x (by simp)
          simp [hx] at hb
    · have hcons : (do let c ← Except.ok b; let cs ← xs.mapM f; pure (c :: cs)) = .error e ↔
          xs.mapM f = .error e := by
        rcases xs.mapM f with d | bs <;> simp [bind, Except.bind, pure, Except.pure]
      rw [hcons, ih]
      constructor
      · rintro ⟨pre, z, post, rfl, hpre, hz⟩
        exact ⟨x :: pre, z, post, rfl, by simpa [hx] using hpre, hz⟩
      · rintro ⟨_ | ⟨y, pre⟩, z, post, hxs, hpre, hz⟩
        · obtain ⟨rfl, -⟩ := List.cons.inj hxs
          simp [hx] at hz
        · obtain ⟨rfl, rfl⟩ := List.cons.inj hxs
          exact ⟨pre, z, post, rfl, fun y hy => hpre y (by simp [hy]), hz⟩

lemma mapM_congr {f g : α → Except ε β} {xs : List α} (h : ∀ x ∈ xs, f x = g x) :
    xs.mapM f = xs.mapM g := by
  induction xs with
  | nil => rfl
  | cons x xs ih =>
    rw [List.mapM_cons, List.mapM_cons, h x (by simp), ih fun y hy => h y (by simp [hy])]

lemma mapM_eq_ok {f : α → Except ε β} {xs : List α} {ys : List β} :
    xs.mapM f = .ok ys ↔ List.Forall₂ (fun x y => f x = .ok y) xs ys := by
  induction xs generalizing ys with
  | nil =>
    rw [List.forall₂_nil_left_iff]
    simp [pure, Except.pure, eq_comm]
  | cons x xs ih =>
    rw [List.mapM_cons, bind_eq_ok, List.forall₂_cons_left_iff]
    constructor
    · rintro ⟨b, hb, h⟩
      obtain ⟨bs, hbs, h⟩ := bind_eq_ok.mp h
      obtain rfl := Except.ok.inj h
      exact ⟨b, bs, hb, ih.mp hbs, rfl⟩
    · rintro ⟨b, bs, hb, hbs, rfl⟩
      exact ⟨b, hb, bind_eq_ok.mpr ⟨bs, ih.mpr hbs, rfl⟩⟩

lemma exists_mapM_eq_ok {f : α → Except ε β} {xs : List α} :
    (∃ ys, xs.mapM f = .ok ys) ↔ ∀ x ∈ xs, ∃ y, f x = .ok y := by
  induction xs with
  | nil => simp [pure, Except.pure]
  | cons x xs ih =>
    rw [List.forall_mem_cons, ← ih]
    simp only [mapM_eq_ok, List.forall₂_cons_left_iff]
    constructor
    · rintro ⟨_, y, ys, hy, hys, rfl⟩
      exact ⟨⟨y, hy⟩, ys, hys⟩
    · rintro ⟨⟨y, hy⟩, ys, hys⟩
      exact ⟨_, y, ys, hy, hys, rfl⟩

lemma mem_of_mapM {f : α → Except ε β} {xs : List α} {ys : List β} (h : xs.mapM f = .ok ys)
    {y : β} : y ∈ ys ↔ ∃ x ∈ xs, f x = .ok y := by
  rw [mapM_eq_ok] at h
  induction h with
  | nil => simp
  | cons hx _ ih =>
    rw [List.mem_cons, ih]
    simp only [List.mem_cons, or_and_right, exists_or, exists_eq_left, hx, Except.ok.injEq]
    exact or_congr_left eq_comm

/-- A list in another order: if all that fails fails alike, so does the list, and otherwise the
answers are the same in another order. -/
lemma mapM_perm {f : α → Except ε β} {e : ε} (he : ∀ x e', f x = .error e' → e' = e)
    {xs ys : List α} (h : xs.Perm ys) :
    xs.mapM f = .error e ∧ ys.mapM f = .error e ∨
      ∃ bs cs, xs.mapM f = .ok bs ∧ ys.mapM f = .ok cs ∧ bs.Perm cs := by
  induction h with
  | nil => exact .inr ⟨[], [], rfl, rfl, .nil⟩
  | @cons x xs ys _ ih =>
    rw [List.mapM_cons, List.mapM_cons]
    rcases hx : f x with e' | b
    · obtain rfl := he x e' hx
      exact .inl ⟨rfl, rfl⟩
    · obtain ⟨hxs, hys⟩ | ⟨bs, cs, hxs, hys, hperm⟩ := ih
      · rw [hxs, hys]
        exact .inl ⟨rfl, rfl⟩
      · rw [hxs, hys]
        exact .inr ⟨b :: bs, b :: cs, rfl, rfl, hperm.cons b⟩
  | swap x y xs =>
    simp only [List.mapM_cons]
    rcases hx : f x with e' | b <;> rcases hy : f y with e'' | c
    · obtain rfl := he x e' hx
      obtain rfl := he y e'' hy
      exact .inl ⟨rfl, rfl⟩
    · obtain rfl := he x e' hx
      exact .inl ⟨rfl, rfl⟩
    · obtain rfl := he y e'' hy
      exact .inl ⟨rfl, rfl⟩
    · rcases hxs : xs.mapM f with e' | bs
      · obtain ⟨_, z, _, _, _, hz⟩ := mapM_eq_error.mp hxs
        obtain rfl := he z e' hz
        exact .inl ⟨rfl, rfl⟩
      · exact .inr ⟨c :: b :: bs, b :: c :: bs, rfl, rfl, .swap b c bs⟩
  | trans _ _ ih ih' =>
    obtain ⟨hxs, hys⟩ | ⟨bs, cs, hxs, hys, hperm⟩ := ih
    · obtain ⟨-, hzs⟩ | ⟨_, _, hys', -, -⟩ := ih'
      · exact .inl ⟨hxs, hzs⟩
      · cases hys.symm.trans hys'
    · obtain ⟨hys', -⟩ | ⟨cs', ds, hys', hzs, hperm'⟩ := ih'
      · cases hys.symm.trans hys'
      · obtain rfl := Except.ok.inj (hys.symm.trans hys')
        exact .inr ⟨bs, ds, hxs, hzs, hperm.trans hperm'⟩

/-- A fold whose passes fail by their elements alone is a fold over what these yield. -/
lemma foldlM_map_eq {γ : Type} (f : α → Except ε γ) (g : β → γ → β) (xs : List α) (b : β) :
    xs.foldlM (fun b x => g b <$> f x) b = (fun cs => cs.foldl g b) <$> xs.mapM f := by
  induction xs generalizing b with
  | nil => rfl
  | cons x xs ih =>
    rw [List.foldlM_cons, List.mapM_cons]
    rcases f x with e | c
    · rfl
    · simp only [bind, Except.bind, Functor.map, Except.map] at ih ⊢
      rw [ih]
      rcases xs.mapM f with e | cs <;> rfl

/-! ### Costed moves -/

/-- Relations between states indexed by a cost: standing still is free, and the cost of a
path is the sum of the costs of its parts. -/
class Graded (R : ℕ → σ → σ → Prop) : Prop where
  refl (s : σ) : R 0 s s
  trans {a b : ℕ} {s t u : σ} : R a s t → R b t u → R (a + b) s u
  mono {a b : ℕ} {s t : σ} : a ≤ b → R a s t → R b s t

/-- Started in `s`, the program moves the state along `R` at cost at most `n`, whether it
answers or stops with a fault. -/
def Moves (R : ℕ → σ → σ → Prop) (n : ℕ) (m : Prog ε σ α) (s : σ) : Prop := R n s (exec m s).2

section Moves

variable {R : ℕ → σ → σ → Prop} [Graded R] {a b n : ℕ} {s : σ}

lemma Moves.bind {m : Prog ε σ α} {f : α → Prog ε σ β} (hm : Moves R a m s)
    (hf : ∀ x t, exec m s = (.ok x, t) → Moves R b (f x) t) : Moves R (a + b) (m >>= f) s := by
  unfold Moves at hm ⊢
  rcases h : exec m s with ⟨_ | x, t⟩
  · rw [exec_bind_error h]
    rw [h] at hm
    exact Graded.mono (Nat.le_add_right a b) hm
  · rw [exec_bind_ok h]
    rw [h] at hm
    exact Graded.trans hm (hf x t h)

/-- Sequencing after a part that leaves the state alone. -/
lemma Moves.after {m : Prog ε σ α} {f : α → Prog ε σ β} (hm : ∀ s, (exec m s).2 = s)
    (hf : ∀ x, exec m s = (.ok x, s) → Moves R n (f x) s) : Moves R n (m >>= f) s := by
  have h0 : Moves R 0 m s := by
    unfold Moves
    rw [hm s]
    exact Graded.refl s
  have h := Moves.bind (f := f) (b := n) h0 fun x t hx => by
    have ht : t = s := by
      have h1 := hm s
      rw [hx] at h1
      exact h1
    subst ht
    exact hf x hx
  rwa [Nat.zero_add] at h

lemma Moves.idle {m : Prog ε σ α} (hm : (exec m s).2 = s) : Moves R n m s := by
  unfold Moves
  rw [hm]
  exact Graded.mono (Nat.zero_le n) (Graded.refl s)

lemma Moves.pure (x : α) : Moves R n (Pure.pure x : Prog ε σ α) s := Moves.idle rfl

lemma Moves.mono {m : Prog ε σ α} (h : a ≤ b) (hm : Moves R a m s) : Moves R b m s :=
  Graded.mono h hm

end Moves

/-! ### Agreement of two runs -/

/-- From related states the program answers the same and stops in related states. -/
def Respects (R : σ → σ → Prop) (m : Prog ε σ α) : Prop :=
  ∀ s t, R s t → (exec m s).1 = (exec m t).1 ∧ R (exec m s).2 (exec m t).2

section Respects

variable {R : σ → σ → Prop}

lemma Respects.pure (a : α) : Respects R (Pure.pure a : Prog ε σ α) := fun _ _ h => ⟨rfl, h⟩

lemma Respects.throw (e : ε) : Respects R (MonadExcept.throw e : Prog ε σ α) :=
  fun _ _ h => ⟨rfl, h⟩

lemma Respects.of (x : Except ε α) : Respects R (Prog.of x : Prog ε σ α) := fun _ _ h => ⟨rfl, h⟩

lemma Respects.bind {m : Prog ε σ α} {f : α → Prog ε σ β} (hm : Respects R m)
    (hf : ∀ a, Respects R (f a)) : Respects R (m >>= f) := by
  intro s t hst
  obtain ⟨h1, h2⟩ := hm s t hst
  rcases hs : exec m s with ⟨r, s'⟩
  rcases ht : exec m t with ⟨r', t'⟩
  rw [hs, ht] at h1 h2
  obtain rfl : r = r' := h1
  cases r with
  | error e =>
    rw [exec_bind_error hs, exec_bind_error ht]
    exact ⟨rfl, h2⟩
  | ok a =>
    rw [exec_bind_ok hs, exec_bind_ok ht]
    exact hf a s' t' h2

end Respects

/-- From related states the program stops with the same fault, or answers the same in related
states. -/
def Alike (R : σ → σ → Prop) (m : Prog ε σ α) : Prop :=
  ∀ s t, R s t → (∃ e, (exec m s).1 = .error e ∧ (exec m t).1 = .error e) ∨
    ∃ a s' t', exec m s = (.ok a, s') ∧ exec m t = (.ok a, t') ∧ R s' t'

section Alike

variable {R : σ → σ → Prop}

lemma Alike.pure (a : α) : Alike R (Pure.pure a : Prog ε σ α) :=
  fun s t h => .inr ⟨a, s, t, rfl, rfl, h⟩

lemma Alike.throw (e : ε) : Alike R (MonadExcept.throw e : Prog ε σ α) :=
  fun _ _ _ => .inl ⟨e, rfl, rfl⟩

lemma Alike.bind {m : Prog ε σ α} {f : α → Prog ε σ β} (hm : Alike R m)
    (hf : ∀ a, Alike R (f a)) : Alike R (m >>= f) := by
  intro s t hst
  obtain ⟨e, hs, ht⟩ | ⟨a, s', t', hs, ht, hst'⟩ := hm s t hst
  · left
    refine ⟨e, ?_, ?_⟩
    · rw [exec_bind_error (Prod.ext hs rfl)]
    · rw [exec_bind_error (Prod.ext ht rfl)]
  · rw [exec_bind_ok hs, exec_bind_ok ht]
    exact hf a s' t' hst'

lemma Alike.map {m : Prog ε σ α} (hm : Alike R m) (g : α → β) : Alike R (g <$> m) := by
  rw [map_eq_pure_bind]
  exact hm.bind fun a => .pure (g a)

/-- What is read of the state is the same in related states. -/
lemma Alike.get_bind {f : σ → Prog ε σ β} (heq : ∀ s t, R s t → f s = f t)
    (hf : ∀ s, Alike R (f s)) : Alike R (get >>= f) := by
  intro s t hst
  rw [exec_get_bind, exec_get_bind, heq s t hst]
  exact hf t s t hst

lemma Alike.fst_eq {m : Prog ε σ α} (hm : Alike R m) {s t : σ} (hst : R s t) :
    (exec m s).1 = (exec m t).1 := by
  obtain ⟨e, hs, ht⟩ | ⟨a, s', t', hs, ht, -⟩ := hm s t hst
  · rw [hs, ht]
  · rw [hs, ht]

end Alike

/-! ### Contracts of a run -/

/-- Started in `s`, the program stops with a fault of `F`, or answers in a state of `Q`. -/
def Ensures (F : ε → Prop) (Q : σ → Prop) (m : Prog ε σ α) (s : σ) : Prop :=
  match exec m s with
  | (.ok _, t) => Q t
  | (.error e, _) => F e

section Ensures

variable {F : ε → Prop} {P Q : σ → Prop} {s : σ}

lemma Ensures.pure {a : α} (h : Q s) : Ensures F Q (Pure.pure a : Prog ε σ α) s := h

lemma Ensures.throw {e : ε} (h : F e) : Ensures F Q (MonadExcept.throw e : Prog ε σ α) s := h

lemma Ensures.bind {m : Prog ε σ α} {f : α → Prog ε σ β} (hm : Ensures F P m s)
    (hf : ∀ a t, P t → Ensures F Q (f a) t) : Ensures F Q (m >>= f) s := by
  unfold Ensures at hm ⊢
  rcases h : exec m s with ⟨e | a, t⟩
  · rw [h] at hm
    rw [exec_bind_error h]
    exact hm
  · rw [h] at hm
    rw [exec_bind_ok h]
    exact hf a t hm

end Ensures

end Lib.Effect
