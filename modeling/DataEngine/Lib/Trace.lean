import Mathlib

/-!
Logs of events, newest event last.

A condition on an event may look at the events before it. Some events mark a fresh start;
what is counted is then counted since the last mark.
-/

namespace Lib.Trace

variable {E : Type}

/-- Every event of the log meets `P` with the events before it. -/
def Each (P : List E → E → Prop) (log : List E) : Prop :=
  ∀ pre e post, log = pre ++ e :: post → P pre e

section Each

variable {P Q : List E → E → Prop}

lemma not_each {log : List E} :
    ¬ Each P log ↔ ∃ pre e post, log = pre ++ e :: post ∧ ¬ P pre e := by
  simp only [Each, not_forall, exists_prop]

@[simp] lemma each_nil : Each P [] := by
  intro pre e post h
  simp at h

/-- The events of two logs in a row: those of the second have the first before them. -/
lemma each_append {a b : List E} :
    Each P (a ++ b) ↔ Each P a ∧ Each (fun pre => P (a ++ pre)) b := by
  constructor
  · intro h
    refine ⟨fun pre e post hp => h pre e (post ++ b) (by simp [hp]), fun pre e post hp => ?_⟩
    exact h (a ++ pre) e post (by simp [hp])
  · rintro ⟨ha, hb⟩ pre e post hp
    rcases List.append_eq_append_iff.mp hp with ⟨m, hm, hm'⟩ | ⟨m, hm, hm'⟩
    · subst hm
      exact hb m e post hm'
    · cases m with
      | nil =>
        simp only [List.append_nil] at hm
        simp only [List.nil_append] at hm'
        subst hm
        simpa using hb [] e post hm'.symm
      | cons x m =>
        obtain ⟨rfl, rfl⟩ : e = x ∧ post = m ++ b := by simpa using hm'
        exact ha pre e m hm

@[simp] lemma each_singleton {e : E} : Each P [e] ↔ P [] e := by
  constructor
  · intro h
    exact h [] e [] rfl
  · intro h pre x post hp
    cases pre with
    | nil =>
      obtain ⟨rfl, -⟩ : e = x ∧ [] = post := by simpa using hp
      exact h
    | cons y ys => simp at hp

lemma each_snoc {a : List E} {e : E} : Each P (a ++ [e]) ↔ Each P a ∧ P a e := by
  rw [each_append, each_singleton, List.append_nil]

lemma Each.imp {log : List E} (h : Each P log)
    (hi : ∀ pre e post, log = pre ++ e :: post → P pre e → Q pre e) : Each Q log :=
  fun pre e post hp => hi pre e post hp (h pre e post hp)

lemma Each.mem {log : List E} (h : Each P log) {e : E} (he : e ∈ log) : ∃ pre, P pre e := by
  obtain ⟨pre, post, hp⟩ := List.append_of_mem he
  exact ⟨pre, h pre e post hp⟩

/-- What holds after every cause holds after every effect, when each effect has a cause
before it. -/
lemma pairwise_of_cause {cause effect later : E → Prop} {log : List E}
    (hc : Each (fun pre e => effect e → ∃ a ∈ pre, cause a) log)
    (hp : log.Pairwise fun a b => cause a → later b) :
    log.Pairwise fun e b => effect e → later b := by
  induction log using List.reverseRecOn with
  | nil => exact .nil
  | append_singleton log b ih =>
    rw [List.pairwise_append] at hp ⊢
    refine ⟨ih (each_snoc.mp hc).1 hp.1, List.pairwise_singleton _ _, fun e he b' hb' heff => ?_⟩
    obtain ⟨pre, post, hlog⟩ := List.append_of_mem he
    obtain ⟨a, ha, hca⟩ := (each_snoc.mp hc).1 pre e post hlog heff
    exact hp.2.2 a (by rw [hlog]; simp [ha]) b' hb' hca

end Each

/-! ### Counting since a mark -/

variable (mark counted : E → Bool)

/-- How many events are counted since the last mark. -/
def since (log : List E) : ℕ := (log.reverse.takeWhile fun e => !mark e).countP counted

@[simp] lemma since_nil : since mark counted [] = 0 := rfl

lemma since_snoc (log : List E) (e : E) :
    since mark counted (log ++ [e]) =
      if mark e then 0 else since mark counted log + if counted e then 1 else 0 := by
  unfold since
  by_cases hm : mark e
  · simp [hm]
  · simp [hm, List.countP_cons]

variable {mark counted}

lemma since_append_unmarked {log evs : List E} (h : ∀ e ∈ evs, mark e = false) :
    since mark counted (log ++ evs) = since mark counted log + evs.countP counted := by
  induction evs using List.reverseRecOn with
  | nil => simp
  | append_singleton evs e ih =>
    rw [← List.append_assoc, since_snoc, ih fun x hx => h x (by simp [hx]), List.countP_append]
    simp [h e (by simp), List.countP_cons, Nat.add_assoc]

/-- With no mark after a counted event, what is counted since the last mark is all. -/
lemma since_eq_countP {log : List E} (hd : ∀ e, counted e → mark e = false)
    (h : log.Pairwise fun a b => counted a → mark b = false) :
    since mark counted log = log.countP counted := by
  induction log using List.reverseRecOn with
  | nil => simp
  | append_singleton log e ih =>
    obtain ⟨hl, -, hb⟩ := List.pairwise_append.mp h
    rw [since_snoc, ih hl, List.countP_append]
    by_cases hm : mark e
    · have hz : log.countP counted = 0 := by
        rw [List.countP_eq_zero]
        intro a ha hc
        have := hb a ha e (by simp) hc
        simp_all
      have hc : counted e = false := by
        by_contra hc
        have := hd e (by simpa using hc)
        simp_all
      simp [hm, hz, hc]
    · simp [hm, List.countP_cons]

end Lib.Trace
