import DataEngine.Lib.Effect

/-!
Programs over a state that may run for ever.

Their loops and recursion are not bounded: a program that does not end has no outcome. A program
with a bound that stops with a fault of its own where the bound is too small is in step with an
unbounded one if it ends like it everywhere else. Where the bound is enough, the unbounded
program then ends.
-/

namespace Lib.Unbounded

open Lib.Effect

variable {ε ε' σ α β : Type}

/-- A program on states `σ` that answers, stops with a fault, or runs for ever. -/
abbrev Loop (ε σ α : Type) : Type := ExceptT ε (StateT σ Option) α

/-- The answer or the fault of a program started in `s`, and the state it stops in, if it does. -/
def outcome (m : Loop ε σ α) (s : σ) : Option (Except ε α × σ) := StateT.run (ExceptT.run m) s

@[simp] lemma outcome_pure (a : α) (s : σ) :
    outcome (pure a : Loop ε σ α) s = some (.ok a, s) := rfl
@[simp] lemma outcome_throw (e : ε) (s : σ) :
    outcome (throw e : Loop ε σ α) s = some (.error e, s) := rfl

lemma outcome_bind (m : Loop ε σ α) (f : α → Loop ε σ β) (s : σ) :
    outcome (m >>= f) s =
      match outcome m s with
      | some (.ok a, t) => outcome (f a) t
      | some (.error e, t) => some (.error e, t)
      | none => none := by
  show StateT.run (ExceptT.run (m >>= f)) s = _
  simp only [ExceptT.run_bind, StateT.run_bind, outcome]
  rcases h : StateT.run (ExceptT.run m) s with _ | ⟨_ | a, t⟩ <;> rfl

lemma outcome_bind_ok {m : Loop ε σ α} {f : α → Loop ε σ β} {s t : σ} {a : α}
    (h : outcome m s = some (.ok a, t)) : outcome (m >>= f) s = outcome (f a) t := by
  rw [outcome_bind, h]

lemma outcome_bind_error {m : Loop ε σ α} {f : α → Loop ε σ β} {s t : σ} {e : ε}
    (h : outcome m s = some (.error e, t)) : outcome (m >>= f) s = some (.error e, t) := by
  rw [outcome_bind, h]

@[simp] lemma outcome_get_bind (f : σ → Loop ε σ β) (s : σ) :
    outcome (get >>= f : Loop ε σ β) s = outcome (f s) s := outcome_bind_ok rfl

@[simp] lemma outcome_modify_bind (g : σ → σ) (f : PUnit → Loop ε σ β) (s : σ) :
    outcome (modify g >>= f : Loop ε σ β) s = outcome (f ⟨⟩) (g s) := outcome_bind_ok rfl

/-! ### Programs with a bound -/

/-- The fault `bound` of the program `m` says that its bound is too small; otherwise it ends as
`q` does. -/
def InStep (fault : ε → ε') (bound : ε') (m : Prog ε' σ α) (q : Loop ε σ α) : Prop :=
  ∀ s, (exec m s).1 = .error bound ∨ ∃ r t, outcome q s = some (r, t) ∧
    exec m s = (r.mapError fault, t)

section InStep

variable {fault : ε → ε'} {bound : ε'}

lemma InStep.pure (a : α) : InStep fault bound (Pure.pure a : Prog ε' σ α) (Pure.pure a) :=
  fun s => .inr ⟨.ok a, s, rfl, rfl⟩

lemma InStep.throw (e : ε) :
    InStep fault bound (MonadExcept.throw (fault e) : Prog ε' σ α) (MonadExcept.throw e) :=
  fun s => .inr ⟨.error e, s, rfl, rfl⟩

lemma InStep.bounded (q : Loop ε σ α) :
    InStep fault bound (MonadExcept.throw bound : Prog ε' σ α) q :=
  fun _ => .inl rfl

lemma InStep.get : InStep fault bound (MonadState.get : Prog ε' σ σ) MonadState.get :=
  fun s => .inr ⟨.ok s, s, rfl, rfl⟩

lemma InStep.bind {m : Prog ε' σ α} {q : Loop ε σ α} {f : α → Prog ε' σ β} {g : α → Loop ε σ β}
    (hm : InStep fault bound m q) (hf : ∀ a, InStep fault bound (f a) (g a)) :
    InStep fault bound (m >>= f) (q >>= g) := by
  intro s
  rcases hm s with hbound | ⟨e | a, t, hq, hm⟩
  · left
    rcases h : exec m s with ⟨e | a, t⟩
    · rw [exec_bind_error h]
      rw [h] at hbound
      exact congrArg Except.error (Except.error.inj hbound)
    · rw [h] at hbound
      cases hbound
  · exact .inr ⟨.error e, t, outcome_bind_error hq, exec_bind_error hm⟩
  · rw [outcome_bind_ok hq, exec_bind_ok hm]
    exact hf a t

lemma InStep.map {m : Prog ε' σ α} {q : Loop ε σ α} (hm : InStep fault bound m q) (g : α → β) :
    InStep fault bound (g <$> m) (g <$> q) := by
  rw [map_eq_pure_bind, map_eq_pure_bind]
  exact hm.bind fun a => .pure (g a)

end InStep

end Lib.Unbounded
