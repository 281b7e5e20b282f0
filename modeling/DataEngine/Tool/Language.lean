import DataEngine.Rational
import DataEngine.Tool.Evaluate

/-!
The texts of formulas.

A formula is written as words with white space before, between and behind them, or none: what
may stand next to each other in an expression never runs together into one token.
-/

namespace DataEngine.ExpParser

open Lib.Effect Lib.Precedence Tool

variable {R α : Type}

/-- Digits with at most one point among them, and at least one digit. -/
def IsLiteral (cs : List Char) : Prop :=
  cs.all isNumberChar = true ∧ cs.count '.' ≤ 1 ∧ cs.any Char.isDigit = true

instance (cs : List Char) : Decidable (IsLiteral cs) := inferInstanceAs (Decidable (_ ∧ _))

lemma IsLiteral.chars {cs : List Char} (h : IsLiteral cs) : ∀ c ∈ cs, isNumberChar c = true :=
  List.all_eq_true.mp h.1

structure Literal where
  text : List Char
  isLiteral : IsLiteral text

instance : Inhabited Literal := ⟨⟨['0'], by decide⟩⟩

/-- The words of a formula with the leaves `α`. The minus is one word, before a factor or
between operands. -/
inductive Word (α : Type) where
  | leaf (a : α)
  | op (o : BinOp)
  | bang
  | opening
  | closing
  | question
  | colon

namespace Word

def text (leafText : α → List Char) : Word α → List Char
  | leaf a => leafText a
  | op o => o.text
  | bang => ['!']
  | opening => ['(']
  | closing => [')']
  | question => ['?']
  | colon => [':']

end Word

def wordRoles : Roles (Word α) Sign BinOp α where
  leaf w a := w = .leaf a
  sign w u := w = match u with | .neg => .op .sub | .not => .bang
  binary w o := w = .op o
  opening w := w = .opening
  closing w := w = .closing
  question w := w = .question
  colon w := w = .colon

/-- The words are an expression of a level, in as many parentheses as it likes. -/
abbrev Phrase : ℕ → List (Word α) → Formula α → Prop := Derives BinOp.level 7 wordRoles

/-- Only white space. -/
def Blank (sp : List Char) : Prop := ∀ c ∈ sp, isSpace c = true

/-- The pieces one after the other, with white space anywhere between them. -/
inductive Spaced : List (List Char) → List Char → Prop where
  | nil {sp : List Char} (h : Blank sp) : Spaced [] sp
  | cons {sp w cs : List Char} {ws : List (List Char)} (h : Blank sp) (hs : Spaced ws cs) :
      Spaced (w :: ws) (sp ++ w ++ cs)

lemma blank_nil : Blank [] := by simp [Blank]

/-- There may be nothing between the pieces. -/
lemma Spaced.flatten (ws : List (List Char)) : Spaced ws ws.flatten := by
  induction ws with
  | nil => exact .nil blank_nil
  | cons w ws ih => exact .cons blank_nil ih

/-- The text is one of the formula. -/
def IsText (leafText : α → List Char) (e : Formula α) (cs : List Char) : Prop :=
  ∃ ws, Phrase 8 ws e ∧ Spaced (ws.map (Word.text leafText)) cs

/-- The language the parse functions are written for. -/
def InLanguage (cs : List Char) : Prop := ∃ e : Formula Literal, IsText Literal.text e cs

lemma phrase_leaf (a : α) {l : ℕ} (hl : l ≤ 8) : Phrase l [.leaf a] (.leaf a) :=
  (Derives.leaf rfl).mono (Nat.zero_le l) hl

lemma Phrase.parens {ws : List (Word α)} {e : Formula α} (h : Phrase 8 ws e) {l : ℕ} (hl : l ≤ 8) :
    Phrase l (.opening :: (ws ++ [.closing])) e := by
  have hparen : Phrase 0 (.opening :: (ws ++ [.closing])) e := .paren (r := .closing) rfl rfl h
  exact hparen.mono (Nat.zero_le l) hl

/-- Operands that are phrases of every level can be joined by every operator. -/
lemma Phrase.joined (o : BinOp) {us vs : List (Word α)} {a b : Formula α}
    (ha : ∀ l ≤ 8, Phrase l us a) (hb : ∀ l ≤ 8, Phrase l vs b) :
    Phrase 8 (us ++ .op o :: vs) (.binary o a b) := by
  obtain ⟨l, hl⟩ : ∃ l, o.level = l + 1 := by cases o <;> exact ⟨_, rfl⟩
  have hlt : l < 7 := by
    cases o <;> simp [BinOp.level] at hl <;> omega
  have hbinary : Phrase (l + 1) (us ++ .op o :: vs) (.binary o a b) :=
    .binary rfl hl hlt (ha _ (by omega)) (hb _ (by omega))
  exact hbinary.mono (by omega) le_rfl

lemma phrase_leaves (o : BinOp) (a b : α) :
    Phrase 8 [.leaf a, .op o, .leaf b] (.binary o (.leaf a) (.leaf b)) :=
  Phrase.joined o (fun _ => phrase_leaf a) fun _ => phrase_leaf b

/-- The value of an expression depends on the values of the leaves that are written. -/
lemma Phrase.eval_congr [Double R] {g g' : α → Formula R} {l : ℕ} {ws : List (Word α)}
    {e : Formula α} (h : Phrase l ws e) (hg : ∀ a, .leaf a ∈ ws → eval (g a) = eval (g' a)) :
    eval (e.bind g) = eval (e.bind g') := by
  induction h with
  | leaf ha =>
    obtain rfl := ha
    exact hg _ (by simp)
  | sign _ _ ih => simp only [Expr.bind, eval, ih fun a ha => hg a (by simp [ha])]
  | paren _ _ _ ih => exact ih fun a ha => hg a (by simp [ha])
  | lift _ _ ih => exact ih hg
  | binary _ _ _ _ _ iha ihb =>
    simp only [Expr.bind, eval, iha fun a ha => hg a (by simp [ha]),
      ihb fun a ha => hg a (by simp [ha])]
  | cond _ _ _ _ _ ihc iht ihf =>
    simp only [Expr.bind, eval, ihc fun a ha => hg a (by simp [ha]),
      iht fun a ha => hg a (by simp [ha]), ihf fun a ha => hg a (by simp [ha])]

/-! ### Words next to each other -/

/-- The character right behind the word would be read as part of its token. -/
def Glues : Word Literal → Char → Prop
  | .leaf _, c => isNumberChar c = true
  | .op _, c | .bang, c => c ∈ ['&', '|', '=']
  | _, _ => False

/-- The second word can follow without white space. -/
def Apart (w w' : Word Literal) : Prop := ∀ c ∈ (w'.text Literal.text).head?, ¬ Glues w c

lemma Literal.head (l : Literal) : ∃ c cs, l.text = c :: cs ∧ isNumberChar c = true := by
  obtain ⟨text, hlit⟩ := l
  cases text with
  | nil => exact absurd hlit (by decide)
  | cons c cs => exact ⟨c, cs, rfl, hlit.chars c List.mem_cons_self⟩

lemma isNumberChar_iff {c : Char} : isNumberChar c = true ↔ c.isDigit = true ∨ c = '.' := by
  simp [isNumberChar]

lemma not_isSpace {c : Char} (h : isNumberChar c = true) : isSpace c = false := by
  by_contra hs
  have hc : c ∈ [' ', '\t', '\n', '\x0b', '\x0c', '\r'] :=
    of_decide_eq_true (Bool.eq_true_of_not_eq_false hs)
  simp only [List.mem_cons, List.not_mem_nil, or_false] at hc
  obtain rfl | rfl | rfl | rfl | rfl | rfl := hc <;> simp [isNumberChar] at h

lemma not_glues_op {c : Char} (h : isNumberChar c = true) : c ∉ ['&', '|', '='] := by
  intro hc
  simp only [List.mem_cons, List.not_mem_nil, or_false] at hc
  obtain rfl | rfl | rfl := hc <;> simp [isNumberChar] at h

/-- What begins an operand does not run together with what comes before it. -/
lemma apart_of_before {w w' : Word Literal} (h : wordRoles.Before w) (h' : wordRoles.Starts w') :
    Apart w w' := by
  have hhead : ∀ c ∈ (w'.text Literal.text).head?, c ∉ ['&', '|', '='] := by
    obtain ⟨l, rfl⟩ | ⟨u, rfl⟩ | rfl := h'
    · obtain ⟨d, ds, hd, hnum⟩ := l.head
      intro c hc
      obtain rfl : d = c := by simpa [Word.text, hd] using hc
      exact not_glues_op hnum
    · cases u <;> simp [Word.text, BinOp.text]
    · simp [Word.text]
  intro c hc
  obtain ⟨u, rfl⟩ | ⟨o, rfl⟩ | rfl | rfl | rfl := h
  · cases u <;> exact hhead c hc
  · exact hhead c hc
  all_goals exact id

/-- Neither does what comes after an operand with what ends it. -/
lemma apart_of_ends {w w' : Word Literal} (h : wordRoles.Ends w) (h' : wordRoles.After w') :
    Apart w w' := by
  have hhead : ∀ c ∈ (w'.text Literal.text).head?, isNumberChar c = false := by
    obtain ⟨o, rfl⟩ | rfl | rfl | rfl := h'
    · cases o <;> simp [Word.text, BinOp.text, isNumberChar]
    all_goals simp [Word.text, isNumberChar]
  intro c hc
  obtain ⟨l, rfl⟩ | rfl := h
  · simp [Glues, hhead c hc]
  · exact id

lemma Phrase.neighbours_apart {l : ℕ} {ws : List (Word Literal)} {e : Formula Literal}
    (h : Phrase l ws e) : Neighbours wordRoles Apart ws :=
  Derives.neighbours (fun _ _ => apart_of_before) (fun _ _ => apart_of_ends) h

/-! ### Reading words -/

def Word.code : Word α → Char
  | leaf _ => 'n'
  | op o => o.code
  | bang => '!'
  | opening => '('
  | closing => ')'
  | question => '?'
  | colon => ':'

section Read

variable [Double R]

/-- The token of a word, for a value member that holds `v`. -/
def Word.read (v : R) : Word Literal → Except Fault (Lexeme R)
  | leaf l => (fun x => ⟨⟨'n', x⟩, l.text⟩) <$> Double.stod l.text
  | w => .ok ⟨⟨w.code, v⟩, w.text Literal.text⟩

lemma dropWhile_blank {sp cs : List Char} (h : Blank sp) :
    (sp ++ cs).dropWhile isSpace = cs.dropWhile isSpace := List.dropWhile_append_of_pos h

/-- A word is read as one token. -/
lemma lexeme_word {sp cs : List Char} {w : Word Literal} (hsp : Blank sp)
    (hcs : ∀ c ∈ cs.head?, ¬ Glues w c) (v : R) :
    lexeme (sp ++ w.text Literal.text ++ cs) v = w.read v := by
  unfold lexeme
  rw [List.append_assoc, dropWhile_blank hsp]
  cases w with
  | leaf l =>
    obtain ⟨d, ds, hd, hnum⟩ := l.head
    have htake : (l.text ++ cs).takeWhile isNumberChar = l.text := by
      rw [List.takeWhile_append_of_pos l.isLiteral.chars]
      cases cs with
      | nil => simp
      | cons c cs => simpa [Glues] using hcs c rfl
    simp only [Word.text, Word.read, hd, List.cons_append] at htake ⊢
    rw [List.dropWhile_cons_of_neg (by simp [not_isSpace hnum])]
    simp only [hnum, if_true, htake]
  | op o =>
    cases o <;> cases cs <;>
      simp_all [Word.text, BinOp.text, isSpace, isNumberChar, operatorToken, Word.read, Word.code,
        BinOp.code, Glues]
  | bang =>
    cases cs <;>
      simp_all [Word.text, isSpace, isNumberChar, operatorToken, Word.read, Word.code, Glues]
  | _ => simp [Word.text, isSpace, isNumberChar, operatorToken, Word.read, Word.code]

lemma lexeme_blank {sp : List Char} (h : Blank sp) (v : R) :
    lexeme sp v = .ok ⟨⟨endToken, v⟩, []⟩ := by
  unfold lexeme
  rw [List.dropWhile_eq_nil_iff.mpr h]

end Read

lemma Word.text_head (w : Word Literal) :
    ∃ c cs, w.text Literal.text = c :: cs ∧ isSpace c = false := by
  cases w with
  | leaf l =>
    obtain ⟨d, ds, hd, hnum⟩ := l.head
    exact ⟨d, ds, hd, not_isSpace hnum⟩
  | op o => cases o <;> exact ⟨_, _, rfl, rfl⟩
  | _ => exact ⟨_, _, rfl, rfl⟩

lemma Word.code_ne_end (w : Word α) : w.code ≠ endToken := by
  cases w with
  | op o => exact o.code_ne_end
  | _ => simp [Word.code, endToken]

lemma after_word {x : Lexeme R} {w : Word Literal} {sp cs : List Char} (hsp : Blank sp)
    (hx : x.src = w.text Literal.text) : x.after (sp ++ w.text Literal.text ++ cs) = cs := by
  obtain ⟨c, ds, hw, hc⟩ := w.text_head
  unfold Lexeme.after
  rw [List.append_assoc, dropWhile_blank hsp, hx, hw, List.cons_append,
    List.dropWhile_cons_of_neg (by simp [hc]), ← List.cons_append, List.drop_left]

/-- White space runs together with nothing. -/
lemma not_glues_space {w : Word Literal} {c : Char} (h : isSpace c = true) : ¬ Glues w c := by
  cases w with
  | leaf l =>
    intro hnum
    rw [not_isSpace hnum] at h
    simp at h
  | op o | bang =>
    intro hc
    have hc : c ∈ ['&', '|', '='] := hc
    simp only [List.mem_cons, List.not_mem_nil, or_false] at hc
    obtain rfl | rfl | rfl := hc <;> simp [isSpace] at h
  | _ => exact id

/-- Nothing of what follows a word runs together with it. -/
lemma Spaced.not_glues {w : Word Literal} {ws : List (Word Literal)} {cs : List Char}
    (h : Spaced (ws.map (Word.text Literal.text)) cs) (hw : ∀ w' ∈ ws.head?, Apart w w') :
    ∀ c ∈ cs.head?, ¬ Glues w c := by
  -- the first character is a space, or it begins the next word
  have hblank {sp : List Char} (hsp : Blank sp) : ∀ c ∈ sp.head?, ¬ Glues w c := fun c hc =>
    not_glues_space (hsp c (List.mem_of_mem_head? hc))
  cases ws with
  | nil =>
    obtain ⟨hsp⟩ := h
    exact hblank hsp
  | cons w' ws =>
    obtain _ | ⟨hsp, -⟩ := h
    obtain ⟨d, ds, hd, -⟩ := w'.text_head
    intro c hc
    rename_i sp cs
    cases sp with
    | nil =>
      refine hw w' rfl c ?_
      rw [hd] at hc ⊢
      simpa using hc
    | cons b sp => exact hblank hsp c (by simpa using hc)

section Read

variable [Double R]

lemma Word.of_read {w : Word Literal} {v : R} {x : Lexeme R} (h : w.read v = .ok x) :
    x.src = w.text Literal.text ∧ x.code = w.code := by
  cases w with
  | leaf l =>
    rcases hs : (Double.stod l.text : Except Fault R) with e | a
    · simp [Word.read, hs] at h
    · rw [Word.read, hs] at h
      obtain rfl := Except.ok.inj h
      exact ⟨rfl, rfl⟩
  | _ =>
    obtain rfl := Except.ok.inj h
    exact ⟨rfl, rfl⟩

/-- The first token is read from the first word, and the others from the rest. -/
lemma Spaced.lexed_cons {w : Word Literal} {ws : List (Word Literal)} {cs : List Char}
    (h : Spaced ((w :: ws).map (Word.text Literal.text)) cs) (hws : (w :: ws).IsChain Apart)
    {v : R} {xs : List (Lexeme R)} (hxs : Lexed cs v xs) :
    ∃ x ys ds, xs = x :: ys ∧ w.read v = .ok x ∧ Spaced (ws.map (Word.text Literal.text)) ds ∧
      Lexed ds x.value ys := by
  obtain _ | @⟨sp, _, ds, _, hsp, hs⟩ := h
  have hread := lexeme_word hsp (hs.not_glues (List.isChain_cons.mp hws).1) v
  cases hxs with
  | stop hx hend =>
    rw [hread] at hx
    rw [(Word.of_read hx).2] at hend
    exact absurd hend w.code_ne_end
  | cons hx _ hxs =>
    rw [hread] at hx
    rw [after_word hsp (Word.of_read hx).1] at hxs
    exact ⟨_, _, ds, rfl, hx, hs, hxs⟩

/-- The tokens of a text written in words are read from these words. -/
lemma Spaced.src_eq {ws : List (Word Literal)} {cs : List Char}
    (h : Spaced (ws.map (Word.text Literal.text)) cs) (hws : ws.IsChain Apart) {v : R}
    {xs : List (Lexeme R)} (hxs : Lexed cs v xs) :
    xs.map Lexeme.src = ws.map (Word.text Literal.text) := by
  induction ws generalizing cs v xs with
  | nil =>
    obtain ⟨hsp⟩ := h
    have hstop : Lexed cs v [] := .stop (lexeme_blank hsp v) rfl
    rw [hxs.unique hstop]
    rfl
  | cons w ws ih =>
    obtain ⟨x, ys, ds, rfl, hx, hs, hys⟩ := h.lexed_cons hws hxs
    rw [List.map_cons, List.map_cons, (Word.of_read hx).1,
      ih hs (List.isChain_cons.mp hws).2 hys]

end Read

/-! ### The value of a text -/

/-- The value of a literal, if `stod` reads it. -/
def Literal.double [Double R] (l : Literal) : R :=
  (Double.stod l.text).toOption.getD (Double.ofInt 0)

lemma Literal.stod_double [Double R] {l : Literal} (h : ∃ y : R, Double.stod l.text = .ok y) :
    Double.stod l.text = .ok (l.double : R) := by
  obtain ⟨y, hy⟩ := h
  rw [Literal.double, hy]
  rfl

section Value

variable [Double R] (value : Literal → R)

def Word.tok (v : R) : Word Literal → Tok R
  | leaf l => ⟨'n', value l⟩
  | w => ⟨w.code, v⟩

omit [Double R] in
lemma Word.tok_code (v : R) (w : Word Literal) : (w.tok value v).code = w.code := by
  cases w <;> rfl

omit [Double R] in
/-- The tokens of a text have the roles of its words. -/
lemma replaces_tok :
    Replaces BinOp.level 7 wordRoles (tokRoles : Roles (Tok R) Sign BinOp R)
      (fun l => .leaf (value l)) fun w us => ∃ v, us = [w.tok value v] where
  leaf := by
    rintro w us l ⟨v, rfl⟩ rfl
    exact .leaf ⟨rfl, rfl⟩
  sign := by
    rintro w us u ⟨v, rfl⟩ rfl
    exact ⟨_, rfl, by cases u <;> rfl⟩
  binary := by
    rintro w us o ⟨v, rfl⟩ rfl
    exact ⟨_, rfl, rfl⟩
  opening := by
    rintro w us ⟨v, rfl⟩ rfl
    exact ⟨_, rfl, rfl⟩
  closing := by
    rintro w us ⟨v, rfl⟩ rfl
    exact ⟨_, rfl, rfl⟩
  question := by
    rintro w us ⟨v, rfl⟩ rfl
    exact ⟨_, rfl, rfl⟩
  colon := by
    rintro w us ⟨v, rfl⟩ rfl
    exact ⟨_, rfl, rfl⟩

variable {value}

lemma Word.read_eq {w : Word Literal}
    (hstod : ∀ l, w = .leaf l → Double.stod l.text = .ok (value l)) (v : R) :
    w.read v = .ok ⟨w.tok value v, w.text Literal.text⟩ := by
  cases w with
  | leaf l =>
    rw [Word.read, hstod l rfl]
    rfl
  | _ => rfl

lemma Spaced.lexed {ws : List (Word Literal)} {cs : List Char}
    (h : Spaced (ws.map (Word.text Literal.text)) cs) (hws : ws.IsChain Apart)
    (hstod : ∀ l, .leaf l ∈ ws → Double.stod l.text = .ok (value l)) (v : R) :
    ∃ xs, Lexed cs v xs ∧
      Spread (fun w us => ∃ v, us = [w.tok value v]) ws (xs.map Lexeme.toTok) := by
  induction ws generalizing cs v with
  | nil =>
    obtain ⟨hsp⟩ := h
    exact ⟨[], .stop (lexeme_blank hsp v) rfl, .nil⟩
  | cons w ws ih =>
    obtain _ | @⟨sp, _, cs, _, hsp, hs⟩ := h
    obtain ⟨hhead, htail⟩ := List.isChain_cons.mp hws
    have hread := lexeme_word hsp (hs.not_glues hhead) v
    rw [Word.read_eq fun l hl => hstod l (by simp [hl])] at hread
    obtain ⟨xs, hxs, hspread⟩ :=
      ih hs htail (fun l hl => hstod l (List.mem_cons_of_mem _ hl)) (w.tok value v).value
    have hafter : Lexeme.after ⟨w.tok value v, w.text Literal.text⟩
        (sp ++ w.text Literal.text ++ cs) = cs := after_word hsp rfl
    rw [← hafter] at hxs
    have hcode : (w.tok value v).code ≠ endToken := by
      rw [Word.tok_code]
      exact w.code_ne_end
    exact ⟨_, .cons hread hcode hxs, .cons ⟨v, rfl⟩ hspread⟩

omit [Double R] in
/-- The literals among the words are the leaves of the formula. -/
lemma Phrase.mem_leaves {l : ℕ} {ws : List (Word α)} {e : Formula α} (h : Phrase l ws e) (a : α) :
    .leaf a ∈ ws ↔ a ∈ e.leaves := by
  induction h with
  | leaf ha =>
    obtain rfl := ha
    simp [Expr.leaves]
  | @sign _ u _ _ hu _ ih =>
    obtain rfl := hu
    cases u <;> simp [Expr.leaves, ih]
  | paren hl hr _ ih =>
    obtain rfl := hl
    obtain rfl := hr
    simp [ih]
  | lift _ _ ih => exact ih
  | binary ho _ _ _ _ iha ihb =>
    obtain rfl := ho
    simp [Expr.leaves, iha, ihb]
  | cond hq hk _ _ _ ihc iht ihf =>
    obtain rfl := hq
    obtain rfl := hk
    simp [Expr.leaves, ihc, iht, ihf]

/-- A text denotes its formula, with the values of its literals. -/
theorem IsText.denotes {e : Formula Literal} {cs : List Char} (h : IsText Literal.text e cs)
    (hstod : ∀ l ∈ e.leaves, Double.stod l.text = .ok (value l)) (v : R) :
    Denotes cs v (e.map value) := by
  obtain ⟨ws, hws, hspaced⟩ := h
  obtain ⟨xs, hxs, hspread⟩ := hspaced.lexed hws.neighbours_apart.chain
    (fun l hl => hstod l ((hws.mem_leaves l).mp hl)) v
  exact ⟨xs, hxs, hws.spread (replaces_tok value) hspread⟩

/-- **Evaluation**: of every text of a formula `calculate` answers the value of the formula,
and `0` if it divides by zero anywhere. -/
theorem calculate_text {value : Literal → R} {e : Formula Literal} {cs : List Char}
    (h : IsText Literal.text e cs)
    (hstod : ∀ l ∈ e.leaves, Double.stod l.text = .ok (value l)) (v : R) :
    calculate cs v = .ok ((eval (e.map value)).getD (Double.ofInt 0)) :=
  (h.denotes hstod v).calculate

end Value

/-! ### Rational values -/

lemma stod_literal (l : Literal) : ∃ q : ℚ, Rational.stod l.text = .ok q := by
  obtain ⟨text, hlit⟩ := l
  have hchars := hlit.chars
  obtain ⟨-, hpoints, hdigit⟩ := hlit
  cases text with
  | nil => simp at hdigit
  | cons c cs =>
    unfold Rational.stod
    by_cases hc : c.isDigit = true
    · exact ⟨_, if_neg (by simp [hc])⟩
    -- a point, and behind it digits only
    obtain rfl : c = '.' := by simpa [isNumberChar, hc] using hchars c List.mem_cons_self
    have hnot : '.' ∉ cs := by
      rw [List.count_cons_self] at hpoints
      exact List.count_eq_zero.mp (by omega)
    have hdigits : ∀ a ∈ cs, a.isDigit = true := by
      intro a ha
      have hne : a ≠ '.' := fun h => hnot (h ▸ ha)
      simpa [isNumberChar, hne] using hchars a (List.mem_cons_of_mem _ ha)
    have hne : cs ≠ [] := by
      rintro rfl
      simp [hc] at hdigit
    refine ⟨_, if_neg fun h => hne ?_⟩
    have hfrac := h.2
    rw [List.dropWhile_cons_of_neg hc, List.head?_cons, if_pos rfl, List.tail_cons,
      List.takeWhile_eq_self_iff.mpr hdigits] at hfrac
    exact hfrac

/-- The value of a literal as a rational number. -/
def Literal.value (l : Literal) : ℚ := (Rational.stod l.text).toOption.getD 0

lemma Literal.stod_value (l : Literal) : Double.stod l.text = .ok l.value := by
  obtain ⟨q, hq⟩ := stod_literal l
  change Rational.stod l.text = _
  rw [Literal.value, hq]
  rfl

theorem calculate_text_difference :
    (∀ l : Literal, Double.stod l.text = .ok l.value) ∧
      ∀ v : ℚ, calculate ['8', ' ', '-', '(', '2', '.', '5', ')'] v = .ok (11 / 2) := by
  let l : Literal := ⟨['8'], by decide⟩
  let r : Literal := ⟨['2', '.', '5'], by decide⟩
  have hws := Phrase.joined .sub (fun _ => phrase_leaf l) fun _ => (phrase_leaf r le_rfl).parens
  have hspaced : Spaced [['8'], ['-'], ['('], ['2', '.', '5'], [')']]
      ([] ++ ['8'] ++ ([' '] ++ ['-'] ++ [['('], ['2', '.', '5'], [')']].flatten)) :=
    .cons blank_nil (.cons (by simp [Blank, isSpace]) (.flatten _))
  have h := calculate_text ⟨_, hws, hspaced⟩ fun l _ => l.stod_value
  exact ⟨Literal.stod_value, fun v => (h v).trans (by decide +kernel)⟩

end DataEngine.ExpParser
