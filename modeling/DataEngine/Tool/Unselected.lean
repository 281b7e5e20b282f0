import DataEngine.Tool.Printed

/-!
Operands that are not selected.

The parser evaluates while it parses, so the operand that a conditional does not select is
evaluated all the same, and so is the right operand of `||` and `&&` when the left one has
decided. An error in it is an error of the whole text, which answers `0`.
-/

namespace DataEngine.ExpParser

open Lib.Effect Lib.Precedence

variable {R : Type} [Double R]

/-! ### Formulas without an error -/

/-- `stod` reads the literals of the formula, it divides by zero nowhere, and its value is `x`. -/
structure ErrorFree (e : Formula Literal) (x : R) : Prop where
  read : ∀ l ∈ e.leaves, ∃ y : R, Double.stod l.text = .ok y
  value : eval (e.map Literal.double) = some x

/-- A text that is read to its end has no literal that `stod` refuses. -/
lemma Spaced.read {ws : List (Word Literal)} {cs : List Char}
    (h : Spaced (ws.map (Word.text Literal.text)) cs) (hws : ws.IsChain Apart) {v : R}
    {xs : List (Lexeme R)} (hxs : Lexed cs v xs) {l : Literal} (hl : .leaf l ∈ ws) :
    ∃ y : R, Double.stod l.text = .ok y := by
  induction ws generalizing cs v xs with
  | nil => simp at hl
  | cons w ws ih =>
    obtain ⟨x, ys, ds, rfl, hx, hs, hys⟩ := h.lexed_cons hws hxs
    obtain rfl | hl := List.mem_cons.mp hl
    · rcases hy : (Double.stod l.text : Except Fault R) with e | y
      · simp [Word.read, hy] at hx
      · exact ⟨y, rfl⟩
    · exact ih hs (List.isChain_cons.mp hws).2 hys hl

/-- A text is accepted exactly if its formula is free of errors. -/
lemma IsText.accepted_iff {e : Formula Literal} {cs : List Char} (h : IsText Literal.text e cs)
    {v x : R} : Accepted cs v x ↔ ErrorFree e x := by
  constructor
  · intro hacc
    obtain ⟨e', ⟨xs, hxs, he'⟩, hv⟩ := ExpParser.accepted_iff.mp hacc
    have hread : ∀ l ∈ e.leaves, ∃ y : R, Double.stod l.text = .ok y := by
      obtain ⟨ws, hws, hspaced⟩ := h
      intro l hl
      exact hspaced.read hws.neighbours_apart.chain hxs ((hws.mem_leaves l).mpr hl)
    refine ⟨hread, ?_⟩
    -- both formulas the text denotes come to what the parser answers
    obtain ⟨s, hs, hall⟩ := (h.denotes (fun l hl => Literal.stod_double (hread l hl)) v).parseAll
    obtain ⟨s', hs', hacc⟩ := hacc
    obtain rfl : s = s' := congrArg Prod.snd (hs.symm.trans hs')
    rw [hacc] at hall
    cases heval : eval (e.map (Literal.double (R := R))) with
    | none => simp [heval] at hall
    | some y =>
      rw [heval] at hall
      rw [Except.ok.inj hall]
  · intro herr
    exact ExpParser.accepted_iff.mpr
      ⟨_, h.denotes (fun l hl => Literal.stod_double (herr.read l hl)) v, herr.value⟩

/-- **Errors**: a formula with an error anywhere answers `0`, if the constructor gets over the
first token of the text. -/
theorem IsText.calculate_error
    (hstod : ∀ (cs : List Char) f, (Double.stod cs : Except Fault R) = .error f → f ≠ .undefined)
    {e : Formula Literal} {cs : List Char} (h : IsText Literal.text e cs) {v : R} {x : Lexeme R}
    (hx : lexeme cs v = .ok x) (herr : ∀ y : R, ¬ ErrorFree e y) :
    calculate cs v = .ok (Double.ofInt 0) := by
  obtain ⟨p, r, hp, hall, hcalculate⟩ := calculate_answers hstod hx
  rw [hcalculate]
  rcases r with e' | y
  · rfl
  · exact absurd (h.accepted_iff.mp ⟨p, hp, hall⟩) (herr y)

/-! ### Operands in parentheses -/

lemma Spaced.blank {ws : List (List Char)} {sp cs : List Char} (hsp : Blank sp)
    (h : Spaced ws cs) : Spaced ws (sp ++ cs) := by
  have happend {sp' : List Char} (hsp' : Blank sp') : Blank (sp ++ sp') :=
    fun c hc => (List.mem_append.mp hc).elim (hsp c) (hsp' c)
  cases h with
  | nil hsp' => exact .nil (happend hsp')
  | cons hsp' hs =>
    rw [← List.append_assoc, ← List.append_assoc]
    exact .cons (happend hsp') hs

lemma Spaced.append {ws vs : List (List Char)} {cs ds : List Char} (h : Spaced ws cs)
    (h' : Spaced vs ds) : Spaced (ws ++ vs) (cs ++ ds) := by
  induction h with
  | nil hsp => exact h'.blank hsp
  | cons hsp _ ih =>
    rw [List.append_assoc]
    exact .cons hsp ih

lemma spaced_word (w : List Char) : Spaced [w] w := by
  simpa using Spaced.flatten [w]

/-- `(cs)` -/
def parens (cs : List Char) : List Char := '(' :: (cs ++ [')'])

/-- `cs op ds` -/
def infixText (cs op ds : List Char) : List Char := cs ++ ' ' :: (op ++ ' ' :: ds)

/-- `(cs) ? (ts) : (fs)` -/
def condText (cs ts fs : List Char) : List Char :=
  infixText (parens cs) ['?'] (infixText (parens ts) [':'] (parens fs))

/-- `(as) op (bs)` -/
def binaryText (o : BinOp) (as bs : List Char) : List Char :=
  infixText (parens as) o.text (parens bs)

lemma spaced_parens {ws : List (List Char)} {cs : List Char} (h : Spaced ws cs) :
    Spaced (['('] :: (ws ++ [[')']])) (parens cs) :=
  (spaced_word ['(']).append (h.append (spaced_word [')']))

lemma spaced_between {ws vs : List (List Char)} {cs ds : List Char} (h : Spaced ws cs)
    (op : List Char) (h' : Spaced vs ds) : Spaced (ws ++ op :: vs) (infixText cs op ds) := by
  have hblank : Blank [' '] := by simp [Blank, Tool.isSpace]
  exact h.append (((spaced_word op).append (h'.blank hblank)).blank hblank)

/-- An operand in parentheses is one on every level. -/
lemma IsText.parens {e : Formula Literal} {cs : List Char} (h : IsText Literal.text e cs) :
    ∃ ws, (∀ l ≤ 8, Phrase l ws e) ∧
      Spaced (ws.map (Word.text Literal.text)) (ExpParser.parens cs) := by
  obtain ⟨ws, hws, hspaced⟩ := h
  refine ⟨_, fun _ => hws.parens, ?_⟩
  rw [List.map_cons, List.map_append]
  exact spaced_parens hspaced

lemma IsText.cond {c t f : Formula Literal} {cs ts fs : List Char}
    (hc : IsText Literal.text c cs) (ht : IsText Literal.text t ts)
    (hf : IsText Literal.text f fs) : IsText Literal.text (.cond c t f) (condText cs ts fs) := by
  obtain ⟨us, hus, hcs⟩ := hc.parens
  obtain ⟨vs, hvs, hts⟩ := ht.parens
  obtain ⟨ws, hws, hfs⟩ := hf.parens
  refine ⟨us ++ .question :: (vs ++ .colon :: ws), ?_, ?_⟩
  · exact .cond rfl rfl (hus 7 (by omega)) (hvs 8 le_rfl) (hws 8 le_rfl)
  · simp only [List.map_append, List.map_cons]
    exact spaced_between hcs ['?'] (spaced_between hts [':'] hfs)

lemma IsText.binary (o : BinOp) {a b : Formula Literal} {as bs : List Char}
    (ha : IsText Literal.text a as) (hb : IsText Literal.text b bs) :
    IsText Literal.text (.binary o a b) (binaryText o as bs) := by
  obtain ⟨us, hus, has⟩ := ha.parens
  obtain ⟨vs, hvs, hbs⟩ := hb.parens
  refine ⟨us ++ .op o :: vs, .joined o hus hvs, ?_⟩
  simp only [List.map_append, List.map_cons]
  exact spaced_between has o.text hbs

/-! ### Errors of operands -/

lemma ErrorFree.unique {e : Formula Literal} {x y : R} (hx : ErrorFree e x) (hy : ErrorFree e y) :
    x = y := Option.some.inj (hx.value.symm.trans hy.value)

lemma errorFree_binary {o : BinOp} {a b : Formula Literal} {z : R} :
    ErrorFree (.binary o a b) z ↔
      ∃ x y : R, ErrorFree a x ∧ ErrorFree b y ∧ o.apply x y = some z := by
  constructor
  · rintro ⟨hread, hvalue⟩
    obtain ⟨hreada, hreadb⟩ := List.forall_mem_append.mp hread
    simp only [Expr.map, Expr.bind, eval, Option.bind_eq_bind, Option.bind_eq_some_iff] at hvalue
    obtain ⟨x, hx, y, hy, hz⟩ := hvalue
    exact ⟨x, y, ⟨hreada, hx⟩, ⟨hreadb, hy⟩, hz⟩
  · rintro ⟨x, y, ⟨hreada, hx⟩, ⟨hreadb, hy⟩, hz⟩
    refine ⟨List.forall_mem_append.mpr ⟨hreada, hreadb⟩, ?_⟩
    simp only [Expr.map] at hx hy
    simp [Expr.map, Expr.bind, eval, hx, hy, hz]

lemma errorFree_cond {c t f : Formula Literal} {z : R} :
    ErrorFree (.cond c t f) z ↔
      ∃ x y w : R, ErrorFree c x ∧ ErrorFree t y ∧ ErrorFree f w ∧
        (if isTrue x then y else w) = z := by
  constructor
  · rintro ⟨hread, hvalue⟩
    obtain ⟨hread, hreadf⟩ := List.forall_mem_append.mp hread
    obtain ⟨hreadc, hreadt⟩ := List.forall_mem_append.mp hread
    simp only [Expr.map, Expr.bind, eval, Option.bind_eq_bind, Option.bind_eq_some_iff,
      Option.some.injEq] at hvalue
    obtain ⟨x, hx, y, hy, w, hw, hz⟩ := hvalue
    exact ⟨x, y, w, ⟨hreadc, hx⟩, ⟨hreadt, hy⟩, ⟨hreadf, hw⟩, hz⟩
  · rintro ⟨x, y, w, ⟨hreadc, hx⟩, ⟨hreadt, hy⟩, ⟨hreadf, hw⟩, hz⟩
    refine ⟨List.forall_mem_append.mpr ⟨List.forall_mem_append.mpr ⟨hreadc, hreadt⟩, hreadf⟩, ?_⟩
    simp only [Expr.map] at hx hy hw
    simp [Expr.map, Expr.bind, eval, hx, hy, hw, hz]

section Selected

variable {a b f : Formula Literal} {x y r z : R}

/-- A conditional is free of errors if both its operands are, and has the value of the one that is
selected. -/
lemma errorFree_cond_first (hx : ErrorFree a x) (hy : ErrorFree b y) (htrue : isTrue x = true) :
    ErrorFree (.cond a b f) z ↔ (∃ w : R, ErrorFree f w) ∧ z = y := by
  rw [errorFree_cond]
  constructor
  · rintro ⟨x', y', w, hx', hy', hw, rfl⟩
    obtain rfl := hx.unique hx'
    rw [if_pos htrue]
    exact ⟨⟨w, hw⟩, hy'.unique hy⟩
  · rintro ⟨⟨w, hw⟩, rfl⟩
    exact ⟨x, z, w, hx, hy, hw, if_pos htrue⟩

lemma errorFree_cond_second (hx : ErrorFree a x) (hy : ErrorFree b y)
    (hfalse : isTrue x = false) :
    ErrorFree (.cond a f b) z ↔ (∃ w : R, ErrorFree f w) ∧ z = y := by
  have hnot : ¬ isTrue x = true := by simp [hfalse]
  rw [errorFree_cond]
  constructor
  · rintro ⟨x', w, y', hx', hw, hy', rfl⟩
    obtain rfl := hx.unique hx'
    rw [if_neg hnot]
    exact ⟨⟨w, hw⟩, hy'.unique hy⟩
  · rintro ⟨⟨w, hw⟩, rfl⟩
    exact ⟨x, w, z, hx, hw, hy, if_neg hnot⟩

/-- So is an operator that answers the same for every right operand. -/
lemma errorFree_binary_left {o : BinOp} (hx : ErrorFree a x) (ho : ∀ w, o.apply x w = some r) :
    ErrorFree (.binary o a f) z ↔ (∃ w : R, ErrorFree f w) ∧ z = r := by
  rw [errorFree_binary]
  constructor
  · rintro ⟨x', w, hx', hw, hz⟩
    obtain rfl := hx.unique hx'
    exact ⟨⟨w, hw⟩, Option.some.inj (hz.symm.trans (ho w))⟩
  · rintro ⟨⟨w, hw⟩, rfl⟩
    exact ⟨x, w, hx, hw, ho w⟩

end Selected

section Answer

variable (hstod : ∀ (cs : List Char) f, (Double.stod cs : Except Fault R) = .error f →
  f ≠ .undefined)

include hstod

/-- Once the constructor has read the first token, the answer is the value of the formula, or
`0` for an error. -/
lemma IsText.calculate_eq_iff {e : Formula Literal} {cs : List Char}
    (h : IsText Literal.text e cs) {v : R} {x : Lexeme R} (hx : lexeme cs v = .ok x)
    {z : R} :
    calculate cs v = .ok z ↔
      ErrorFree e z ∨ z = Double.ofInt 0 ∧ ∀ y : R, ¬ ErrorFree e y := by
  by_cases herr : ∃ y : R, ErrorFree e y
  · obtain ⟨y, hy⟩ := herr
    rw [(h.accepted_iff.mpr hy).calculate, Except.ok.injEq]
    constructor
    · rintro rfl
      exact .inl hy
    · rintro (hz | ⟨-, hno⟩)
      · exact hy.unique hz
      · exact absurd hy (hno y)
  · have hno : ∀ y : R, ¬ ErrorFree e y := not_exists.mp herr
    rw [h.calculate_error hstod hx hno, Except.ok.injEq]
    constructor
    · rintro rfl
      exact .inr ⟨rfl, hno⟩
    · rintro (hz | ⟨rfl, -⟩)
      · exact absurd hz (hno z)
      · rfl

/-- A formula that has a value exactly if its operand `f` is free of errors, and then `y`, is
answered with `y` exactly then, or if an error answers `y` as well. -/
lemma IsText.calculate_operand_iff {e f : Formula Literal} {cs : List Char}
    (h : IsText Literal.text e cs) {v : R} {x : Lexeme R} (hx : lexeme cs v = .ok x)
    {y : R} (hfree : ∀ z, ErrorFree e z ↔ (∃ w : R, ErrorFree f w) ∧ z = y) :
    calculate cs v = .ok y ↔ (∃ w : R, ErrorFree f w) ∨ y = Double.ofInt 0 := by
  rw [h.calculate_eq_iff hstod hx, hfree]
  constructor
  · rintro (⟨hf, -⟩ | ⟨hy, -⟩)
    · exact .inl hf
    · exact .inr hy
  · intro hor
    by_cases hf : ∃ w : R, ErrorFree f w
    · exact .inl ⟨hf, rfl⟩
    · refine .inr ⟨hor.resolve_left hf, fun z hz => hf ((hfree z).mp hz).1⟩

/-- **The operand that is not selected**: with a condition `a` that is `x` and an operand `b`
that is `y`, a conditional answers the operand it selects exactly if the other one, `f`, is free
of errors, or if `0` is selected. So does `||` with a left operand that is true answer `1`, and
`&&` with one that is false answers `0` in any case. -/
theorem unselected_iff (hone : (Double.ofInt 1 : R) ≠ Double.ofInt 0)
    {a b f : Formula Literal} {as bs fs : List Char} (ha : IsText Literal.text a as)
    (hb : IsText Literal.text b bs) (hf : IsText Literal.text f fs) {x y : R}
    (hx : ErrorFree a x) (hy : ErrorFree b y) (v : R) :
    (isTrue x = true →
      (calculate (condText as bs fs) v = .ok y ↔ (∃ w : R, ErrorFree f w) ∨ y = Double.ofInt 0)) ∧
    (isTrue x = false →
      (calculate (condText as fs bs) v = .ok y ↔ (∃ w : R, ErrorFree f w) ∨ y = Double.ofInt 0)) ∧
    (isTrue x = true →
      (calculate (binaryText .or as fs) v = .ok (Double.ofInt 1) ↔ ∃ w : R, ErrorFree f w)) ∧
    (isTrue x = false →
      calculate (binaryText .and as fs) v = .ok (Double.ofInt 0)) := by
  have hopen (cs : List Char) : lexeme ('(' :: cs) v = .ok ⟨⟨'(', v⟩, ['(']⟩ := rfl
  refine ⟨fun htrue => ?_, fun hfalse => ?_, fun htrue => ?_, fun hfalse => ?_⟩
  · exact (ha.cond hb hf).calculate_operand_iff hstod (hopen _) fun z =>
      errorFree_cond_first hx hy htrue
  · exact (ha.cond hf hb).calculate_operand_iff hstod (hopen _) fun z =>
      errorFree_cond_second hx hy hfalse
  · have htold : ∀ w : R, BinOp.or.apply x w = some (Double.ofInt 1) := fun w => by
      simp [BinOp.apply, htrue, ofBool]
    rw [(ha.binary .or hf).calculate_operand_iff hstod (hopen _) fun z =>
      errorFree_binary_left hx htold, or_iff_left hone]
  · have htold : ∀ w : R, BinOp.and.apply x w = some (Double.ofInt 0) := fun w => by
      simp [BinOp.apply, hfalse, ofBool]
    exact ((ha.binary .and hf).calculate_operand_iff hstod (hopen _) fun z =>
      errorFree_binary_left hx htold).mpr (.inr rfl)

end Answer

/-! ### A division that is guarded -/

lemma isText_leaf (l : Literal) : IsText Literal.text (.leaf l) l.text :=
  ⟨[.leaf l], (Derives.leaf rfl).mono (by omega) le_rfl, spaced_word l.text⟩

lemma errorFree_leaf {l : Literal} {y : R} (h : Double.stod l.text = .ok y) :
    ErrorFree (.leaf l) y := by
  refine ⟨by simpa [Expr.leaves] using ⟨y, h⟩, ?_⟩
  simp [Expr.map, Expr.bind, eval, Literal.double, h, Except.toOption]

theorem one_selected :
    isTrue (1 : ℚ) = true ∧
      calculate (condText ['1'] ['2'] (binaryText .div ['1'] ['0'])) 0 ≠ .ok (2 : ℚ) ∧
      calculate (binaryText .or ['1'] ['2']) 0 = .ok (1 : ℚ) := by
  let one : Literal := ⟨['1'], by decide⟩
  let two : Literal := ⟨['2'], by decide⟩
  let zero : Literal := ⟨['0'], by decide⟩
  have hone : ErrorFree (.leaf one) (1 : ℚ) := errorFree_leaf (by decide +kernel)
  have htwo : ErrorFree (.leaf two) (2 : ℚ) := errorFree_leaf (by decide +kernel)
  have hzero : ErrorFree (.leaf zero) (0 : ℚ) := errorFree_leaf (by decide +kernel)
  have hquot : ∀ w : ℚ, ¬ ErrorFree (.binary .div (.leaf one) (.leaf zero)) w := by
    intro w hw
    obtain ⟨x, y, -, hy, hz⟩ := errorFree_binary.mp hw
    obtain rfl := hy.unique hzero
    simp [BinOp.apply, Double.eq, Double.ofInt] at hz
  have htext := (isText_leaf one).binary .div (isText_leaf zero)
  have h1 : isTrue (1 : ℚ) = true := by decide +kernel
  refine ⟨h1, ?_, ?_⟩
  · rw [Ne, (unselected_iff printing_rational.stod_fault (by decide +kernel) (isText_leaf one)
      (isText_leaf two) htext hone htwo 0).1 h1]
    rintro (⟨w, hw⟩ | h)
    · exact hquot w hw
    · exact absurd h (by decide +kernel)
  · exact ((unselected_iff printing_rational.stod_fault (by decide +kernel) (isText_leaf one)
      (isText_leaf one) (isText_leaf two) hone hone 0).2.2.1 h1).mpr ⟨2, htwo⟩

/-- The division of `(1) ? (2) : ((1) / (0))` is not selected, and the answer is `0`. -/
theorem guarded_division :
    ¬ ∀ (a b f : Formula Literal) (as bs fs : List Char) (x y : ℚ), IsText Literal.text a as →
      IsText Literal.text b bs → IsText Literal.text f fs → ErrorFree a x → ErrorFree b y →
      isTrue x = true → ∀ v, calculate (condText as bs fs) v = .ok y := by
  intro h
  let one : Literal := ⟨['1'], by decide⟩
  let two : Literal := ⟨['2'], by decide⟩
  let zero : Literal := ⟨['0'], by decide⟩
  have hanswer := h _ _ _ _ _ _ 1 2 (isText_leaf one) (isText_leaf two)
    ((isText_leaf one).binary .div (isText_leaf zero)) (errorFree_leaf (by decide +kernel))
    (errorFree_leaf (by decide +kernel)) (by decide +kernel) 0
  have hzero : calculate (condText ['1'] ['2'] (binaryText .div ['1'] ['0'])) 0 = .ok (0 : ℚ) := by
    decide +kernel
  have heq := Except.ok.inj (hanswer.symm.trans hzero)
  exact absurd heq (by decide +kernel)

end DataEngine.ExpParser
