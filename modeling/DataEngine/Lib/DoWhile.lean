import Mathlib

/-!
Loops given by their body.

One pass of the body either asks for another pass or leaves the loop with a result. A loop
need not halt; `Leaves` says with which result it does, `Goes` at which states a pass begins.
-/

namespace Lib.DoWhile

variable {σ ρ : Type}

/-- What one pass of a loop body comes to. -/
inductive Pass (σ ρ : Type) where
  | again (s : σ)
  | leave (r : ρ)

variable (body : σ → Pass σ ρ)

/-- At most `n` passes. -/
def passes : ℕ → σ → Pass σ ρ
  | 0, s => .again s
  | n + 1, s =>
    match body s with
    | .again t => passes n t
    | .leave r => .leave r

/-- The loop entered in `s` is left with `r`. -/
def Leaves (s : σ) (r : ρ) : Prop := ∃ n, passes body n s = .leave r

def Halts (s : σ) : Prop := ∃ r, Leaves body s r

/-- A pass of the loop entered in `s` begins in `t`. -/
def Goes : σ → σ → Prop := Relation.ReflTransGen fun s t => body s = .again t

variable {body}

lemma leaves_of_leave {s : σ} {r : ρ} (h : body s = .leave r) : Leaves body s r :=
  ⟨1, by simp [passes, h]⟩

lemma leaves_of_again {s t : σ} (h : body s = .again t) {r : ρ} :
    Leaves body s r ↔ Leaves body t r := by
  constructor
  · rintro ⟨n, hn⟩
    cases n with
    | zero => simp [passes] at hn
    | succ n => exact ⟨n, by simpa [passes, h] using hn⟩
  · rintro ⟨n, hn⟩
    exact ⟨n + 1, by simpa [passes, h] using hn⟩

lemma leaves_iff_of_leave {s : σ} {r r' : ρ} (h : body s = .leave r) :
    Leaves body s r' ↔ r = r' := by
  constructor
  · rintro ⟨n, hn⟩
    cases n with
    | zero => simp [passes] at hn
    | succ n => simpa [passes, h] using hn
  · rintro rfl
    exact leaves_of_leave h

/-- The invariant rule: what every pass keeps holds wherever a pass begins. -/
lemma Goes.inv {Inv : σ → Prop} (hstep : ∀ s t, Inv s → body s = .again t → Inv t) {s t : σ}
    (hs : Inv s) (h : Goes body s t) : Inv t := by
  induction h with
  | refl => exact hs
  | tail _ hb ih => exact hstep _ _ ih hb

/-- The loop is left from a state in which a pass begins. -/
lemma Leaves.last {s : σ} {r : ρ} (h : Leaves body s r) :
    ∃ t, Goes body s t ∧ body t = .leave r := by
  obtain ⟨n, hn⟩ := h
  induction n generalizing s with
  | zero => simp [passes] at hn
  | succ n ih =>
    rcases hb : body s with t | r'
    · obtain ⟨u, hu, hl⟩ := ih (s := t) (by simpa [passes, hb] using hn)
      exact ⟨u, hu.head hb, hl⟩
    · obtain rfl : r' = r := by simpa [passes, hb] using hn
      exact ⟨s, .refl, hb⟩

/-- The invariant rule for the result. -/
lemma Leaves.inv {Inv : σ → Prop} {Post : ρ → Prop}
    (hstep : ∀ s t, Inv s → body s = .again t → Inv t)
    (hout : ∀ s r, Inv s → body s = .leave r → Post r) {s : σ} {r : ρ} (hs : Inv s)
    (h : Leaves body s r) : Post r := by
  obtain ⟨t, ht, hl⟩ := h.last
  exact hout t r (ht.inv hstep hs) hl

lemma Leaves.unique {s : σ} {r r' : ρ} (h : Leaves body s r) (h' : Leaves body s r') : r = r' := by
  obtain ⟨n, hn⟩ := h
  induction n generalizing s with
  | zero => simp [passes] at hn
  | succ n ih =>
    rcases hb : body s with t | q
    · exact ih ((leaves_of_again hb).mp h') (by simpa [passes, hb] using hn)
    · obtain rfl : q = r := by simpa [passes, hb] using hn
      exact (leaves_iff_of_leave hb).mp h'

/-- **The variant rule**: a loop whose measure drops at every further pass halts. -/
theorem halts_of_variant (μ : σ → ℕ) {Inv : σ → Prop}
    (hstep : ∀ s t, Inv s → body s = .again t → Inv t ∧ μ t < μ s) (s : σ) (hs : Inv s) :
    Halts body s := by
  induction hn : μ s using Nat.strong_induction_on generalizing s with
  | _ n ih =>
    rcases hb : body s with t | r
    · obtain ⟨ht, hlt⟩ := hstep s t hs hb
      obtain ⟨r, hr⟩ := ih (μ t) (hn ▸ hlt) t ht rfl
      exact ⟨r, (leaves_of_again hb).mpr hr⟩
    · exact ⟨r, leaves_of_leave hb⟩

end Lib.DoWhile
