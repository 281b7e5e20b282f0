import Mathlib

/-!
Numbers written with a given number of digits, highest digit first.

Texts that begin with fields of one width are ordered by the first field in which they differ.
-/

namespace Lib.Digits

/-- The last `k` digits of `n` -/
def fixed (b : ℕ) : ℕ → ℕ → List Char
  | 0, _ => []
  | k + 1, n => fixed b k (n / b) ++ [(n % b).digitChar]

@[simp] lemma length_fixed (b k n : ℕ) : (fixed b k n).length = k := by
  induction k generalizing n with
  | zero => rfl
  | succ k ih => simp [fixed, ih]

/-- Behind parts of one length the texts are ordered by what follows. -/
lemma append_lt_append_iff {α : Type} [LinearOrder α] {u v : List α} (h : u.length = v.length)
    (x y : List α) : u ++ x < v ++ y ↔ u < v ∨ u = v ∧ x < y := by
  induction u generalizing v with
  | nil =>
    obtain rfl := List.length_eq_zero_iff.mp h.symm
    simp
  | cons c u ih =>
    cases v with
    | nil => simp at h
    | cons d v =>
      have hrest := ih (Nat.succ.inj h)
      simp only [List.cons_append, List.cons_lt_cons_iff, hrest, List.cons.injEq]
      tauto

lemma append_left_lt_iff {α : Type} [LinearOrder α] (u x y : List α) :
    u ++ x < u ++ y ↔ x < y := by
  simp [append_lt_append_iff rfl]

section Base

variable {b k : ℕ}

lemma digitChar_lt {c d : ℕ} (hd : d < 10) (h : c < d) : c.digitChar < d.digitChar := by
  have hall : ∀ d < 10, ∀ c < d, c.digitChar < d.digitChar := by decide
  exact hall d hd c h

/-- The higher digits decide, and the last one where they are the same. -/
lemma div_lt_or_mod_lt {n m : ℕ} (h : n < m) : n / b < m / b ∨ n / b = m / b ∧ n % b < m % b := by
  rcases (Nat.div_le_div_right h.le).lt_or_eq with hlt | heq
  · exact .inl hlt
  · refine .inr ⟨heq, ?_⟩
    have hn := Nat.div_add_mod n b
    have hm := Nat.div_add_mod m b
    rw [heq] at hn
    omega

lemma strictMonoOn_fixed (hb : b ≤ 10) (k : ℕ) : StrictMonoOn (fixed b k) (Set.Iio (b ^ k)) := by
  induction k with
  | zero =>
    intro n hn m hm h
    simp only [Nat.pow_zero, Set.mem_Iio, Nat.lt_one_iff] at hm
    omega
  | succ k ih =>
    intro n hn m hm h
    have hpos : 0 < b := Nat.pos_of_ne_zero fun hzero => by simp [hzero] at hn
    have hmem : ∀ i ∈ Set.Iio (b ^ (k + 1)), i / b ∈ Set.Iio (b ^ k) := fun i hi =>
      (Nat.div_lt_iff_lt_mul hpos).mpr hi
    rw [fixed, fixed, append_lt_append_iff (by simp)]
    rcases div_lt_or_mod_lt h with hlt | ⟨heq, hlt⟩
    · exact .inl (ih (hmem n hn) (hmem m hm) hlt)
    · refine .inr ⟨by rw [heq], List.cons_lt_cons_iff.mpr (.inl ?_)⟩
      exact digitChar_lt ((Nat.mod_lt m hpos).trans_le hb) hlt

/-- A field is compared before what follows it. -/
lemma fixed_append_lt_iff (hb : b ≤ 10) {n m : ℕ} (hn : n < b ^ k) (hm : m < b ^ k)
    (x y : List Char) :
    fixed b k n ++ x < fixed b k m ++ y ↔ n < m ∨ n = m ∧ x < y := by
  have hmono := strictMonoOn_fixed hb k
  rw [append_lt_append_iff (by simp), hmono.lt_iff_lt hn hm, hmono.injOn.eq_iff hn hm]

/-- A number is written with its own digits if the highest one is not zero. -/
lemma fixed_eq_toDigits (hb : 1 < b) {n : ℕ} (hlow : b ^ k ≤ n) (hhigh : n < b ^ (k + 1)) :
    fixed b (k + 1) n = Nat.toDigits b n := by
  induction k generalizing n with
  | zero =>
    rw [zero_add, pow_one] at hhigh
    rw [Nat.toDigits_of_lt_base hhigh, fixed, fixed, List.nil_append, Nat.mod_eq_of_lt hhigh]
  | succ k ih =>
    have hpos : 0 < b := by omega
    have hbase : b ≤ n := (Nat.le_self_pow (by omega) b).trans hlow
    rw [fixed, Nat.toDigits_of_base_le hb hbase]
    congr 1
    refine ih ((Nat.le_div_iff_mul_le hpos).mpr hlow) ((Nat.div_lt_iff_lt_mul hpos).mpr hhigh)

end Base

end Lib.Digits
