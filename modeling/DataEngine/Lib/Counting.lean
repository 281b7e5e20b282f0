import Mathlib

/-!
Counting the entries of a list that change one at a time.

The list says of each of a number of threads where it is; a move of one of them sets one entry.
-/

namespace Lib.Counting

variable {α β : Type}

/-- An entry is put in the place of another. -/
lemma countP_set_add (p : α → Bool) {xs : List α} {i : ℕ} {x : α} (h : xs[i]? = some x) (y : α) :
    (xs.set i y).countP p + (p x).toNat = xs.countP p + (p y).toNat := by
  induction xs generalizing i with
  | nil => simp at h
  | cons z zs ih =>
    cases i with
    | zero =>
      obtain rfl : z = x := by simpa using h
      rw [List.set_cons_zero, List.countP_cons, List.countP_cons]
      cases p z <;> cases p y <;> simp
    | succ i =>
      have ih := ih (i := i) (by simpa using h)
      rw [List.set_cons_succ, List.countP_cons, List.countP_cons]
      omega

/-- Likewise where each entry has a weight. -/
lemma sum_map_set_add (w : α → ℕ) {xs : List α} {i : ℕ} {x : α} (h : xs[i]? = some x) (y : α) :
    ((xs.set i y).map w).sum + w x = (xs.map w).sum + w y := by
  induction xs generalizing i with
  | nil => simp at h
  | cons z zs ih =>
    cases i with
    | zero =>
      obtain rfl : z = x := by simpa using h
      simp only [List.set_cons_zero, List.map_cons, List.sum_cons]
      omega
    | succ i =>
      have ih := ih (i := i) (by simpa using h)
      simp only [List.set_cons_succ, List.map_cons, List.sum_cons]
      omega

/-- No entry counts twice. -/
lemma countP_add_le {p q : α → Bool} (h : ∀ x, p x → q x = false) (xs : List α) :
    xs.countP p + xs.countP q ≤ xs.countP fun x => p x || q x := by
  induction xs with
  | nil => rfl
  | cons x xs ih =>
    have hhead : (if p x then 1 else 0) + (if q x then 1 else 0) ≤ if p x || q x then 1 else 0 := by
      cases hp : p x with
      | false => simp
      | true => simp [h x hp]
    simp only [List.countP_cons]
    omega

/-- Each entry of the one list has its own in the other. -/
lemma countP_le_of_getElem {p : α → Bool} {q : β → Bool} {xs : List α} {ys : List β}
    (h : ∀ (i : ℕ) y, ys[i]? = some y → q y → ∃ x, xs[i]? = some x ∧ p x) :
    ys.countP q ≤ xs.countP p := by
  induction ys generalizing xs with
  | nil => simp
  | cons y ys ih =>
    cases xs with
    | nil =>
      refine (List.countP_eq_zero.mpr fun z hz hq => ?_).le
      obtain ⟨i, hi⟩ := List.mem_iff_getElem?.mp hz
      obtain ⟨x, hx, -⟩ := h i z hi hq
      simp at hx
    | cons x xs =>
      have htail : ys.countP q ≤ xs.countP p := ih fun i z hz hq => h (i + 1) z hz hq
      have hhead : (if q y then 1 else 0) ≤ if p x then 1 else 0 := by
        cases hq : q y with
        | false => simp
        | true =>
          obtain ⟨x', hx, hp⟩ := h 0 y rfl hq
          obtain rfl : x = x' := Option.some.inj hx
          simp [hp]
      simp only [List.countP_cons]
      omega

/-- The first of the second block joins the first. -/
lemma set_append_replicate (i m : ℕ) (x y : α) (rest : List α) :
    (List.replicate i x ++ (List.replicate (m + 1) y ++ rest)).set i x =
      List.replicate (i + 1) x ++ (List.replicate m y ++ rest) := by
  rw [List.set_append_right _ _ (by simp), List.length_replicate, Nat.sub_self,
    List.replicate_succ, List.replicate_succ']
  simp

end Lib.Counting
