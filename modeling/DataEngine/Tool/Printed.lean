import DataEngine.Tool.Language

/-!
Numbers as `std::to_string` writes them.

A number with at most six decimals is written as a literal, behind a minus if it is negative,
from which the same number is read again.
-/

namespace DataEngine.ExpParser

open Tool

variable {R : Type} [Double R]

/-- What is relied on of the two conversions: `std::to_string` writes no `<`, and `std::stod`
refuses what it cannot read by an exception. -/
structure Printing (R : Type) [Double R] : Prop where
  toText_open (x : R) : '<' ∉ (Double.toText x).toList
  stod_fault (cs : List Char) (f : Fault) (h : (Double.stod cs : Except Fault R) = .error f) :
    f ≠ .undefined

/-- `std::to_string` writes a minus or none and a literal, from which `x` is read again. -/
structure Printed (x : R) (minus : Bool) (l : Literal) : Prop where
  text : (Double.toText x).toList = (if minus then ['-'] else []) ++ l.text
  read : ∃ v, Double.stod l.text = .ok v ∧ (if minus then Double.neg v else v) = x

/-- No more than the six decimals that are written. -/
def SixDecimals (x : R) : Prop := ∃ minus l, Printed x minus l

/-! ### Rational numbers -/

open Rational

lemma toList_pushn (s : String) (c : Char) (n : ℕ) :
    (s.pushn c n).toList = s.toList ++ List.replicate n c := by
  rw [String.pushn_eq_repeat_push]
  induction n with
  | zero => simp [Nat.repeat]
  | succ n ih => simp [Nat.repeat, ih, List.replicate_succ']

/-- Six decimals. -/
def decimals (n : ℕ) : List Char :=
  List.replicate (6 - (Nat.toDigits 10 n).length) '0' ++ Nat.toDigits 10 n

lemma isDigit_toDigits {n : ℕ} {c : Char} (h : c ∈ Nat.toDigits 10 n) : c.isDigit = true :=
  Nat.isDigit_of_mem_toDigits (by decide) (by decide) h

lemma isDigit_decimals {n : ℕ} {c : Char} (h : c ∈ decimals n) : c.isDigit = true := by
  rcases List.mem_append.mp h with h | h
  · obtain rfl := (List.mem_replicate.mp h).2
    decide
  · exact isDigit_toDigits h

lemma length_decimals {n : ℕ} (h : n < 10 ^ 6) : (decimals n).length = 6 := by
  have hle := (Nat.length_toDigits_le_iff (b := 10) (by decide) (by decide)).mpr h
  simp only [decimals, List.length_append, List.length_replicate]
  omega

lemma digits_toDigits (n : ℕ) : digits (Nat.toDigits 10 n) = n := by
  have h := Nat.ofDigitChars_ten_toDigits (n := n)
  rwa [Nat.ofDigitChars_eq_foldl] at h

lemma digits_decimals (n : ℕ) : digits (decimals n) = n := by
  have h := Nat.ofDigitChars_append (b := 10)
    (l := List.replicate (6 - (Nat.toDigits 10 n).length) '0') (m := Nat.toDigits 10 n) 0
  rw [Nat.ofDigitChars_replicate_zero, Nat.mul_zero, Nat.ofDigitChars_ten_toDigits,
    Nat.ofDigitChars_eq_foldl] at h
  exact h

lemma fixedText_toList (q : ℚ) :
    (fixedText q).toList = (if q < 0 then ['-'] else []) ++
      (Nat.toDigits 10 (roundEven (|q| * 10 ^ 6) / 10 ^ 6) ++
        '.' :: decimals (roundEven (|q| * 10 ^ 6) % 10 ^ 6)) := by
  have hsign : (Rational.sign q).toList = if q < 0 then ['-'] else [] := by
    unfold Rational.sign
    split_ifs <;> rfl
  simp [fixedText, hsign, toList_pushn, decimals, List.append_assoc,
    Nat.repr_eq_ofList_toDigits, String.length_ofList]

lemma point_not_mem {cs : List Char} (h : ∀ c ∈ cs, c.isDigit = true) : '.' ∉ cs :=
  fun hmem => absurd (h _ hmem) (by decide)

/-- A whole number, a point and decimals. -/
def pointed (n : ℕ) : Literal where
  text := Nat.toDigits 10 (n / 10 ^ 6) ++ '.' :: decimals (n % 10 ^ 6)
  isLiteral := by
    have hwhole : ∀ c ∈ Nat.toDigits 10 (n / 10 ^ 6), c.isDigit = true := fun _ => isDigit_toDigits
    have hfrac : ∀ c ∈ decimals (n % 10 ^ 6), c.isDigit = true := fun _ => isDigit_decimals
    refine ⟨List.all_eq_true.mpr fun c hc => isNumberChar_iff.mpr ?_, ?_, ?_⟩
    · rcases List.mem_append.mp hc with h | h
      · exact .inl (hwhole c h)
      · rcases List.mem_cons.mp h with rfl | h
        · exact .inr rfl
        · exact .inl (hfrac c h)
    · rw [List.count_append, List.count_cons_self,
        List.count_eq_zero_of_not_mem (point_not_mem hwhole),
        List.count_eq_zero_of_not_mem (point_not_mem hfrac)]
    · obtain ⟨c, cs, hcs⟩ := List.exists_cons_of_ne_nil
        (Nat.toDigits_ne_nil (n := n / 10 ^ 6) (b := 10))
      rw [hcs] at hwhole ⊢
      simp [hwhole c List.mem_cons_self]

lemma stod_pointed (n : ℕ) : Rational.stod (pointed n).text = .ok ((n : ℚ) / 10 ^ 6) := by
  have hwhole : ∀ c ∈ Nat.toDigits 10 (n / 10 ^ 6), c.isDigit = true := fun _ => isDigit_toDigits
  have hfrac : ∀ c ∈ decimals (n % 10 ^ 6), c.isDigit = true := fun _ => isDigit_decimals
  have hpoint : ¬ ('.' : Char).isDigit = true := by decide
  have hcut : (n : ℚ) = (n / 10 ^ 6 : ℕ) * 10 ^ 6 + (n % 10 ^ 6 : ℕ) := by
    exact_mod_cast (Nat.div_add_mod' n (10 ^ 6)).symm
  unfold Rational.stod pointed
  simp only [List.takeWhile_append_of_pos hwhole, List.dropWhile_append_of_pos hwhole,
    List.takeWhile_cons_of_neg hpoint, List.dropWhile_cons_of_neg hpoint, List.head?_cons,
    if_true, List.tail_cons, List.takeWhile_eq_self_iff.mpr hfrac, List.append_nil]
  rw [if_neg fun h => Nat.toDigits_ne_nil h.1, digits_toDigits, digits_decimals,
    length_decimals (Nat.mod_lt _ (by norm_num))]
  congr 1
  rw [eq_div_iff (by norm_num), add_mul, div_mul_cancel₀ _ (by norm_num)]
  exact hcut.symm

lemma roundEven_natCast (n : ℕ) : roundEven n = n := by
  simp [roundEven]

lemma fixedText_pointed (q : ℚ) : (fixedText q).toList =
    (if q < 0 then ['-'] else []) ++ (pointed (roundEven (|q| * 10 ^ 6))).text :=
  fixedText_toList q

/-- The number that the six decimals of `q` tell -/
def rendered (q : ℚ) : ℚ :=
  let x := (roundEven (|q| * 10 ^ 6) : ℚ) / 10 ^ 6
  if q < 0 then -x else x

lemma abs_roundEven_sub_le {q : ℚ} (h : 0 ≤ q) : |(roundEven q : ℚ) - q| ≤ 1 / 2 := by
  have hfloor : (⌊q⌋.toNat : ℚ) = ⌊q⌋ := by
    exact_mod_cast Int.toNat_of_nonneg (Int.floor_nonneg.mpr h)
  have hlo := Int.floor_le q
  have hhi := Int.lt_floor_add_one q
  unfold roundEven
  simp only [hfloor]
  split_ifs with hlt heq
  · rw [hfloor, abs_le]
    constructor <;> linarith
  · rw [hfloor, abs_le]
    constructor <;> linarith [heq.1]
  · rw [Nat.cast_add, hfloor, Nat.cast_one, abs_le]
    constructor <;> linarith

/-- Six decimals are right to half a millionth. -/
lemma abs_rendered_sub_le (q : ℚ) : |rendered q - q| ≤ 1 / 2 / 10 ^ 6 := by
  have hround := abs_roundEven_sub_le (q := |q| * 10 ^ 6) (by positivity)
  have hscale : |(roundEven (|q| * 10 ^ 6) : ℚ) / 10 ^ 6 - (|q|)| ≤ 1 / 2 / 10 ^ 6 := by
    rw [div_sub' (by norm_num), abs_div, abs_of_pos (by norm_num : (0 : ℚ) < 10 ^ 6),
      mul_comm (10 ^ 6) (|q|)]
    gcongr
  unfold rendered
  simp only
  split_ifs with hneg
  · rw [abs_of_neg hneg] at hscale ⊢
    rw [abs_sub_comm] at hscale
    convert hscale using 2
    ring
  · rwa [abs_of_nonneg (not_lt.mp hneg)] at hscale ⊢

/-- The parser reads the six decimals again. -/
theorem calculate_fixedText (q v : ℚ) :
    calculate (fixedText q).toList v = .ok (rendered q) := by
  set l := pointed (roundEven (|q| * 10 ^ 6)) with hl
  have hvalue : l.value = (roundEven (|q| * 10 ^ 6) : ℚ) / 10 ^ 6 := by
    rw [Literal.value, stod_pointed]
    rfl
  rw [fixedText_pointed, ← hl]
  by_cases hneg : q < 0
  · have hws : Phrase 8 [.op .sub, .leaf l] (.sign .neg (.leaf l)) :=
      (Lib.Precedence.Derives.sign (u := Sign.neg) rfl (.leaf rfl)).mono (Nat.zero_le 8) le_rfl
    have hspaced := Spaced.flatten [['-'], l.text]
    have htext : IsText Literal.text (.sign .neg (.leaf l)) (['-'] ++ l.text) :=
      ⟨_, hws, by simpa [Word.text, BinOp.text] using hspaced⟩
    rw [if_pos hneg, (htext.denotes (fun l _ => l.stod_value) v).calculate, rendered, if_pos hneg]
    simp only [← hvalue]
    rfl
  · have htext : IsText Literal.text (.leaf l) ([] ++ l.text) :=
      ⟨_, phrase_leaf l le_rfl, by simpa [Word.text] using Spaced.flatten [l.text]⟩
    rw [if_neg hneg, (htext.denotes (fun l _ => l.stod_value) v).calculate, rendered, if_neg hneg]
    simp only [← hvalue]
    rfl

/-- A multiple of a millionth has six decimals. -/
theorem sixDecimals_of_int (q : ℚ) (k : ℤ) (h : q * 10 ^ 6 = k) : SixDecimals q := by
  have habs : |q| * 10 ^ 6 = (k.natAbs : ℕ) := by
    rw [Nat.cast_natAbs, Int.cast_abs, ← h, abs_mul]
    norm_num
  have hq : (k.natAbs : ℚ) / 10 ^ 6 = |q| := by
    rw [← habs, mul_div_cancel_right₀ _ (by norm_num)]
  refine ⟨q < 0, pointed k.natAbs, ?_, |q|, ?_, ?_⟩
  · change (fixedText q).toList = _
    rw [fixedText_pointed, habs, roundEven_natCast]
    simp
  · rw [← hq]
    exact stod_pointed k.natAbs
  · by_cases hneg : q < 0
    · simp only [hneg, decide_true, if_true]
      change -|q| = q
      rw [abs_of_neg hneg, neg_neg]
    · simp only [hneg, decide_false, Bool.false_eq_true, if_false]
      exact abs_of_nonneg (not_lt.mp hneg)

theorem printing_rational : Printing ℚ where
  toText_open q hmem := by
    change '<' ∈ (fixedText q).toList at hmem
    rw [fixedText_toList, List.mem_append, List.mem_append, List.mem_cons] at hmem
    obtain h | h | h | h := hmem
    · split_ifs at h <;> simp at h
    · exact absurd (isDigit_toDigits h) (by decide)
    · simp at h
    · exact absurd (isDigit_decimals h) (by decide)
  stod_fault cs f h := by
    change Rational.stod cs = .error f at h
    unfold Rational.stod at h
    simp only at h
    split_ifs at h <;> cases h <;> decide

end DataEngine.ExpParser
