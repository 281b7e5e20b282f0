import DataEngine.Lib.Effect

/-!
Programs that are watched.

A watched program is a program together with the accesses it makes from each state it may be
started in. Forgetting the accesses is reading a field, so a program and its watched form can be
compared step by step; that all accesses meet a condition goes through sequencing.
-/

namespace Lib.Watch

open Lib.Effect

structure Watched (A ε σ α : Type) where
  run : Prog ε σ α
  /-- what is accessed from a state, in order -/
  trace : σ → List A

variable {A ε σ α β : Type}

namespace Watched

protected def pure (a : α) : Watched A ε σ α := ⟨pure a, fun _ => []⟩

/-- What comes after a fault is not done. -/
protected def bind (m : Watched A ε σ α) (f : α → Watched A ε σ β) : Watched A ε σ β where
  run := m.run >>= fun a => (f a).run
  trace s :=
    match exec m.run s with
    | (.ok a, t) => m.trace s ++ (f a).trace t
    | (.error _, _) => m.trace s

instance : Monad (Watched A ε σ) where
  pure := Watched.pure
  bind := Watched.bind

/-- A program of which nothing is watched. -/
def lift (m : Prog ε σ α) : Watched A ε σ α := ⟨m, fun _ => []⟩

/-- A single access. -/
def access (a : A) (x : Except ε α) : Watched A ε σ α := ⟨Prog.of x, fun _ => [a]⟩

/-! ### Forgetting -/

@[simp] lemma run_pure (a : α) : (pure a : Watched A ε σ α).run = pure a := rfl

@[simp] lemma run_bind (m : Watched A ε σ α) (f : α → Watched A ε σ β) :
    (m >>= f).run = m.run >>= fun a => (f a).run := rfl

@[simp] lemma run_lift (m : Prog ε σ α) : (lift m : Watched A ε σ α).run = m := rfl

@[simp] lemma run_access (a : A) (x : Except ε α) :
    (access a x : Watched A ε σ α).run = Prog.of x := rfl

@[simp] lemma run_ite {p : Prop} [Decidable p] (m n : Watched A ε σ α) :
    (if p then m else n).run = if p then m.run else n.run := apply_ite _ _ _ _

lemma run_foldlM (f : β → α → Watched A ε σ β) (xs : List α) (b : β) :
    (xs.foldlM f b).run = xs.foldlM (fun b x => (f b x).run) b := by
  induction xs generalizing b with
  | nil => rfl
  | cons x xs ih =>
    rw [List.foldlM_cons, List.foldlM_cons, run_bind]
    exact congrArg _ (funext fun c => ih c)

/-! ### All accesses -/

/-- Every access from the state meets the condition. -/
def All (P : A → Prop) (m : Watched A ε σ α) (s : σ) : Prop := ∀ a ∈ m.trace s, P a

section All

variable {P : A → Prop} {s : σ}

@[simp] lemma all_pure (a : α) : All P (pure a : Watched A ε σ α) s := by
  intro a ha
  simp [Pure.pure, Watched.pure] at ha

@[simp] lemma all_lift (m : Prog ε σ α) : All P (lift m) s := by
  intro a ha
  simp [lift] at ha

@[simp] lemma all_access (a : A) (x : Except ε α) :
    All P (access a x : Watched A ε σ α) s ↔ P a := by
  simp [All, access]

lemma all_bind {m : Watched A ε σ α} {f : α → Watched A ε σ β} :
    All P (m >>= f) s ↔
      All P m s ∧ ∀ a t, exec m.run s = (.ok a, t) → All P (f a) t := by
  have htrace : (m >>= f).trace s = match exec m.run s with
      | (.ok a, t) => m.trace s ++ (f a).trace t
      | (.error _, _) => m.trace s := rfl
  unfold All
  rw [htrace]
  rcases hm : exec m.run s with ⟨e | a, t⟩
  · simp
  · simp only [List.mem_append, or_imp, forall_and, Prod.mk.injEq, Except.ok.injEq]
    refine and_congr_right fun _ => ⟨?_, fun h => h a t ⟨rfl, rfl⟩⟩
    rintro h b u ⟨rfl, rfl⟩
    exact h

/-- After a part that answers in one way only. -/
lemma all_bind_of_ok {m : Watched A ε σ α} {f : α → Watched A ε σ β} {a : α} {t : σ}
    (hm : exec m.run s = (.ok a, t)) : All P (m >>= f) s ↔ All P m s ∧ All P (f a) t := by
  rw [all_bind, hm]
  refine and_congr_right fun _ => ⟨fun h => h a t rfl, ?_⟩
  rintro h b u ⟨⟩
  exact h

/-- After a part that faults. -/
lemma all_bind_of_error {m : Watched A ε σ α} {f : α → Watched A ε σ β} {e : ε} {t : σ}
    (hm : exec m.run s = (.error e, t)) : All P (m >>= f) s ↔ All P m s := by
  rw [all_bind, hm]
  simp

/-- The last pass of a loop. -/
lemma all_foldlM_snoc {f : β → α → Watched A ε σ β} {xs : List α} {x : α} {b : β} :
    All P ((xs ++ [x]).foldlM f b) s ↔ All P (xs.foldlM f b) s ∧
      ∀ c t, exec (xs.foldlM f b).run s = (.ok c, t) → All P (f c x) t := by
  induction xs generalizing b s with
  | nil =>
    rw [List.nil_append, List.foldlM_cons, all_bind]
    refine ⟨fun h => ⟨all_pure b, ?_⟩, fun h => ⟨h.2 b s rfl, fun c t _ => all_pure c⟩⟩
    rintro c t ⟨⟩
    exact h.1
  | cons y ys ih =>
    rw [List.cons_append, List.foldlM_cons, List.foldlM_cons, all_bind, all_bind, and_assoc]
    refine and_congr_right fun _ => ⟨fun h => ⟨fun c t hc => (ih.mp (h c t hc)).1, ?_⟩, ?_⟩
    · intro d u hd
      obtain ⟨c, t, hc, hd⟩ := exec_bind_eq_ok.mp hd
      exact (ih.mp (h c t hc)).2 d u hd
    · rintro ⟨h, hlast⟩ c t hc
      exact ih.mpr ⟨h c t hc, fun d u hd => hlast d u (exec_bind_eq_ok.mpr ⟨c, t, hc, hd⟩)⟩

lemma all_foldlM_range_succ {f : β → ℕ → Watched A ε σ β} {n : ℕ} {b : β} :
    All P ((List.range (n + 1)).foldlM f b) s ↔ All P ((List.range n).foldlM f b) s ∧
      ∀ c t, exec ((List.range n).foldlM f b).run s = (.ok c, t) → All P (f c n) t := by
  rw [List.range_succ, all_foldlM_snoc]

end All

/-! ### Safe programs -/

/-- From every state all accesses meet the condition, and every answer meets `Q`. -/
def Safe (P : A → Prop) (m : Watched A ε σ α) (Q : α → Prop) : Prop :=
  ∀ s, All P m s ∧ ∀ a t, exec m.run s = (.ok a, t) → Q a

section Safe

variable {P : A → Prop}

lemma Safe.pure {Q : α → Prop} {a : α} (h : Q a) : Safe P (pure a : Watched A ε σ α) Q := by
  refine fun s => ⟨all_pure a, fun b t hb => ?_⟩
  obtain ⟨⟨⟩, -⟩ := Prod.mk.inj hb
  exact h

lemma Safe.lift (m : Prog ε σ α) : Safe P (lift m) fun _ => True :=
  fun _ => ⟨all_lift m, fun _ _ _ => trivial⟩

lemma Safe.bind {Q : α → Prop} {T : β → Prop} {m : Watched A ε σ α} {f : α → Watched A ε σ β}
    (hm : Safe P m Q) (hf : ∀ a, Q a → Safe P (f a) T) : Safe P (m >>= f) T := by
  intro s
  obtain ⟨hall, hq⟩ := hm s
  refine ⟨all_bind.mpr ⟨hall, fun a t ha => (hf a (hq a t ha) t).1⟩, fun b u hb => ?_⟩
  obtain ⟨a, t, ha, hb⟩ := exec_bind_eq_ok.mp hb
  exact (hf a (hq a t ha) t).2 b u hb

lemma Safe.ite {Q : α → Prop} {p : Prop} [Decidable p] {m n : Watched A ε σ α}
    (hm : p → Safe P m Q) (hn : ¬ p → Safe P n Q) : Safe P (if p then m else n) Q := by
  split_ifs with h
  · exact hm h
  · exact hn h

/-- A fold whose passes are safe under an invariant they keep. -/
lemma Safe.foldlM {Q : β → Prop} {f : β → α → Watched A ε σ β} {xs : List α} {b : β} (hb : Q b)
    (hf : ∀ x ∈ xs, ∀ b, Q b → Safe P (f b x) Q) : Safe P (xs.foldlM f b) Q := by
  induction xs generalizing b with
  | nil => exact .pure hb
  | cons x xs ih =>
    rw [List.foldlM_cons]
    exact (hf x (by simp) b hb).bind fun c hc => ih hc fun y hy => hf y (by simp [hy])

end Safe

end Watched

end Lib.Watch
