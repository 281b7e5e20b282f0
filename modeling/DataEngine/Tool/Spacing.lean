import DataEngine.Tool.Language
import DataEngine.Tool.Progress

/-!
White space between tokens.

A text is respaced by white space put in, or taken out, where no token goes over the gap and none
would without it. The parser does not see the difference, whether the text is a formula or not:
token by token it goes through texts that are respaced in the same place.
-/

namespace DataEngine.ExpParser

open Lib.Effect Tool

variable {R : Type}

/-- The operators of two characters -/
def twoChars : List BinOp := [.le, .ge, .eq, .ne, .and, .or]

/-- Next to each other the characters may be read as part of one token. -/
def Joins (c d : Char) : Prop :=
  isNumberChar c = true ∧ isNumberChar d = true ∨ ∃ o ∈ twoChars, o.text = [c, d]

instance (c d : Char) : Decidable (Joins c d) := inferInstanceAs (Decidable (_ ∨ _))

/-- No token goes over from the end of one text to the beginning of the other. -/
def Separate (u t : List Char) : Prop := ∀ c ∈ u.getLast?, ∀ d ∈ t.head?, ¬ Joins c d

instance (u t : List Char) : Decidable (Separate u t) :=
  decidable_of_iff ((u.getLast?.all fun c => t.head?.all fun d => !decide (Joins c d)) = true)
    (by simp [Separate, Option.all_eq_true])

/-- The texts differ by white space in one place, where it is not needed. -/
inductive Respaced : List Char → List Char → Prop where
  | mk {u w v : List Char} (hw : Blank w) (h : Separate u v) : Respaced (u ++ w ++ v) (u ++ v)

lemma separate_nil (t : List Char) : Separate [] t := by simp [Separate]

lemma respaced_self {cs : List Char} : Respaced cs cs := .mk (u := []) blank_nil (separate_nil cs)

lemma not_joins_space {c d : Char} (hd : isSpace d = true) : ¬ Joins c d := by
  rintro (⟨-, hnum⟩ | ⟨o, ho, htext⟩)
  · rw [not_isSpace hnum] at hd
    cases hd
  · simp only [twoChars, List.mem_cons, List.not_mem_nil, or_false] at ho
    obtain rfl | rfl | rfl | rfl | rfl | rfl := ho <;>
      simp only [BinOp.text, List.cons.injEq, and_true] at htext <;> simp [← htext.2, isSpace] at hd

/-- White space may always stand behind a text. -/
lemma Separate.blank {u w v : List Char} (h : Separate u v) (hw : Blank w) :
    Separate u (w ++ v) := by
  cases w with
  | nil => exact h
  | cons d w =>
    intro c _ d' hd'
    obtain rfl : d = d' := by simpa using hd'
    exact not_joins_space (hw d (by simp))

lemma Separate.of_suffix {u u' t : List Char} (h : Separate u t) (hu : u' <:+ u) :
    Separate u' t := by
  obtain ⟨pre, rfl⟩ := hu
  intro c hc
  refine h c ?_
  rw [List.getLast?_append, Option.mem_def.mp hc]
  rfl

/-! ### One token -/

/-- A character that does not join is not looked at. -/
lemma operatorToken_head {c : Char} {t : List Char} (h : ∀ d ∈ t.head?, ¬ Joins c d) :
    operatorToken c t.head? = operatorToken c none := by
  cases t with
  | nil => rfl
  | cons d t =>
    have hjoins : ∀ o ∈ twoChars, o.text ≠ [c, d] := fun o ho htext =>
      h d rfl (.inr ⟨o, ho, htext⟩)
    simp only [twoChars, List.forall_mem_cons, BinOp.text, ne_eq, List.cons.injEq, and_true,
      not_and] at hjoins
    unfold operatorToken
    split <;> simp_all [eq_comm]

/-- A number ends where the characters that may belong to it end. -/
lemma takeWhile_number {u t : List Char} (h : Separate u t) (hu : u ≠ []) :
    (u ++ t).takeWhile isNumberChar = u.takeWhile isNumberChar := by
  rw [List.takeWhile_append]
  split_ifs with hall
  swap
  · rfl
  have hself : u.takeWhile isNumberChar = u := (List.takeWhile_prefix _).eq_of_length hall
  have hnum := List.takeWhile_eq_self_iff.mp hself
  have hstop : t.takeWhile isNumberChar = [] := by
    cases t with
    | nil => rfl
    | cons d t =>
      have hlast := hnum _ (List.getLast_mem hu)
      have hnot : ¬ isNumberChar d = true := fun hd =>
        h _ (List.getLast_mem_getLast? hu) d rfl (.inl ⟨hlast, hd⟩)
      rw [List.takeWhile_cons_of_neg hnot]
  rw [hstop, hself, List.append_nil]

/-- Neither does the end of an operator depend on it. -/
lemma operatorToken_append {c : Char} {us t : List Char} (h : Separate (c :: us) t) :
    operatorToken c (us ++ t).head? = operatorToken c us.head? ∧
      ∀ x, operatorToken c us.head? = .ok x → (c :: us ++ t).take x.2 = (c :: us).take x.2 := by
  cases us with
  | nil =>
    refine ⟨operatorToken_head (h c rfl), fun ⟨token, n⟩ hx => ?_⟩
    obtain rfl | ⟨-, hnext⟩ := operatorToken_length hx
    · rfl
    · exact absurd rfl hnext
  | cons d us =>
    refine ⟨rfl, fun ⟨token, n⟩ hx => ?_⟩
    obtain rfl | ⟨rfl, -⟩ := operatorToken_length hx <;> rfl

lemma Lexeme.length_le {cs : List Char} {x : Lexeme R}
    (h : cs = cs.takeWhile isSpace ++ x.src ++ x.after cs) :
    x.src.length ≤ (cs.dropWhile isSpace).length := by
  have hlen := congrArg List.length h
  have hsplit := congrArg List.length (List.takeWhile_append_dropWhile (p := isSpace) (l := cs))
  simp only [List.length_append] at hlen hsplit
  omega

variable [Double R]

/-- The first token of a text is the same with more text behind it that is separate. -/
lemma lexeme_append {u t : List Char} (hu : ¬ Blank u) (h : Separate u t) (v : R) :
    lexeme (u ++ t) v = lexeme u v ∧
      ∀ x, lexeme u v = .ok x → x.after (u ++ t) = x.after u ++ t ∧ x.after u <:+ u := by
  obtain ⟨c, us, hd⟩ : ∃ c us, u.dropWhile isSpace = c :: us := by
    refine List.exists_cons_of_ne_nil fun hnil => hu ?_
    exact List.dropWhile_eq_nil_iff.mp hnil
  have hdrop : (u ++ t).dropWhile isSpace = c :: us ++ t := by
    rw [List.dropWhile_append, hd]
    rfl
  have hsep : Separate (c :: us) t := h.of_suffix (hd ▸ List.dropWhile_suffix _)
  constructor
  · unfold lexeme
    rw [hdrop, hd]
    by_cases hc : isNumberChar c = true
    · have htake := takeWhile_number hsep (List.cons_ne_nil c us)
      rw [List.cons_append] at htake ⊢
      simp only [hc, if_true, htake]
    · rw [List.cons_append]
      obtain ⟨htoken, htake⟩ := operatorToken_append hsep
      simp only [hc, Bool.false_eq_true, if_false, htoken]
      rcases ho : operatorToken c us.head? with e | x
      · rfl
      · have htake' := htake x ho
        rw [List.cons_append] at htake'
        show Except.ok (Lexeme.mk ⟨x.1, v⟩ _) = Except.ok (Lexeme.mk ⟨x.1, v⟩ _)
        rw [htake']
  · intro x hx
    obtain ⟨hcut, -⟩ := lexeme_spec hx
    have hlen := Lexeme.length_le hcut
    refine ⟨?_, _, hcut.symm⟩
    rw [Lexeme.after, Lexeme.after, hdrop, ← hd, List.drop_append_of_le_length hlen]

/-- Texts that are respaced begin with the same token, and are respaced behind it. -/
lemma Respaced.lexeme_eq {cs ds : List Char} (h : Respaced cs ds) (v : R) :
    lexeme cs v = lexeme ds v ∧
      ∀ x, lexeme cs v = .ok x → Respaced (x.after cs) (x.after ds) := by
  obtain @⟨u, w, t, hw, hsep⟩ := h
  by_cases hu : Blank u
  · -- only white space comes before `t` in both
    have hdrop : (u ++ w ++ t).dropWhile isSpace = (u ++ t).dropWhile isSpace := by
      rw [List.append_assoc, dropWhile_blank hu, dropWhile_blank hw, dropWhile_blank hu]
    refine ⟨by unfold lexeme; rw [hdrop], fun x _ => ?_⟩
    rw [Lexeme.after, Lexeme.after, hdrop]
    exact respaced_self
  · obtain ⟨heq, hafter⟩ := lexeme_append hu (hsep.blank hw) v
    obtain ⟨heq', hafter'⟩ := lexeme_append hu hsep v
    rw [List.append_assoc, heq, heq']
    refine ⟨rfl, fun x hx => ?_⟩
    obtain ⟨hx₁, hsuffix⟩ := hafter x hx
    rw [hx₁, (hafter' x hx).1, ← List.append_assoc]
    exact .mk hw (hsep.of_suffix hsuffix)

/-! ### The parse functions -/

/-- The parsers see the same token, and what is left for them to read is respaced. -/
structure Twin (p q : Parser R) : Prop where
  tok : p.tok = q.tok
  rest : Respaced p.rest q.rest

omit [Double R] in
lemma Twin.token {p q : Parser R} (h : Twin p q) : p.currentToken = q.currentToken :=
  congrArg Tok.code h.tok

omit [Double R] in
lemma Twin.value {p q : Parser R} (h : Twin p q) : p.value = q.value := congrArg Tok.value h.tok

lemma alike_nextToken : Alike Twin (nextToken : ParserM R Unit) := by
  intro p q h
  have hp := exec_nextToken p
  have hq := exec_nextToken q
  obtain ⟨heq, hafter⟩ := h.rest.lexeme_eq p.value
  rw [← h.value, ← heq] at hq
  rcases hl : lexeme p.rest p.value with f | x
  · rw [hl] at hp hq
    exact .inl ⟨.fault f, hp, hq⟩
  · rw [hl] at hp hq
    obtain ⟨p', hp, hptok, hprest⟩ := hp
    obtain ⟨q', hq, hqtok, hqrest⟩ := hq
    refine .inr ⟨(), p', q', hp, hq, hptok.trans hqtok.symm, ?_⟩
    rw [hprest, hqrest]
    exact hafter x hl

omit [Double R] in
lemma alike_token_bind {α : Type} {f : Char → ParserM R α} (hf : ∀ c, Alike Twin (f c)) :
    Alike Twin (token >>= f) := by
  have htoken : Alike Twin (token : ParserM R Char) :=
    .get_bind (fun p q h => congrArg Pure.pure h.token) fun s => .pure s.currentToken
  exact htoken.bind hf

lemma alike_nextToken_bind {α : Type} {f : ParserM R α} (hf : Alike Twin f) :
    Alike Twin (nextToken >>= fun _ => f) :=
  alike_nextToken.bind fun _ => hf

lemma alike_operators {operand : ParserM R R} (h : Alike Twin operand) (ops : Operators R)
    (n : ℕ) (result : R) : Alike Twin (operators ops operand n result) := by
  induction n generalizing result with
  | zero => exact .throw _
  | succ n ih =>
    unfold operators
    refine alike_token_bind fun c => ?_
    cases ops c with
    | none => exact .pure result
    | some op =>
      refine alike_nextToken_bind (h.bind fun rhs => ?_)
      rcases op result rhs with e | r
      · exact .throw _
      · exact ih r

lemma alike_leftLevel {operand : ParserM R R} (h : Alike Twin operand) (ops : Operators R)
    (n : ℕ) : Alike Twin (leftLevel ops operand n) :=
  h.bind fun result => alike_operators h ops n result

lemma alike_parseFactor {conditional : ParserM R R} (h : Alike Twin conditional) (n : ℕ) :
    Alike Twin (parseFactor conditional n) := by
  induction n with
  | zero => exact .throw _
  | succ n ih =>
    unfold parseFactor
    refine .get_bind (fun p q hpq => by rw [hpq.token, hpq.value]) fun s => ?_
    split_ifs
    · exact alike_nextToken_bind (.pure s.value)
    · refine alike_nextToken_bind (h.bind fun result => alike_token_bind fun c => ?_)
      split_ifs
      · exact .throw _
      · exact alike_nextToken_bind (.pure result)
    · exact alike_nextToken_bind (ih.map _)
    · exact alike_nextToken_bind (ih.map _)
    · exact .throw _

lemma alike_parseLogicalOr {conditional : ParserM R R} (h : Alike Twin conditional) (n : ℕ) :
    Alike Twin (parseLogicalOr conditional n) := by
  have hterm := alike_leftLevel (alike_parseFactor h n) termOps n
  have haddSub := alike_leftLevel hterm addSubOps n
  have hcomparison := alike_leftLevel haddSub comparisonOps n
  have hbitAnd := alike_leftLevel hcomparison bitAndOps n
  have hbitOr := alike_leftLevel hbitAnd bitOrOps n
  have hlogicalAnd := alike_leftLevel hbitOr andOps n
  exact alike_leftLevel hlogicalAnd orOps n

lemma alike_parseConditional (n : ℕ) : Alike Twin (parseConditional n : ParserM R R) := by
  induction n with
  | zero => exact .throw _
  | succ n ih =>
    unfold parseConditional
    refine (alike_parseLogicalOr ih (n + 1)).bind fun cond => alike_token_bind fun c => ?_
    by_cases hq : c = '?'
    swap
    · rw [if_neg hq]
      exact .pure cond
    rw [if_pos hq]
    refine alike_nextToken_bind (ih.bind fun trueVal => alike_token_bind fun d => ?_)
    by_cases hcolon : d ≠ ':'
    · rw [if_pos hcolon]
      exact .throw _
    · rw [if_neg hcolon]
      exact alike_nextToken_bind (ih.bind fun falseVal => .pure _)

lemma alike_parseAll (n : ℕ) : Alike Twin (parseAll n : ParserM R R) := by
  refine (alike_parseConditional n).bind fun result => alike_token_bind fun c => ?_
  split_ifs
  · exact .throw _
  · exact .pure result

/-! ### The depth -/

lemma parseAll_enough {s : Parser R} {n : ℕ} (hn : s.left < n) :
    (exec (parseAll n) s).1 ≠ .error .depth := by
  unfold parseAll
  refine ((parseConditional_parses n s.left hn).bind (k := s.left) le_rfl
    fun r t ht => reads_token_bind ?_).1
  split_ifs
  · exact reads_raise _ t _
  · exact reads_pure r ht

/-- The answer is the same with every depth that is enough. -/
lemma exec_parseAll_eq {s : Parser R} {m n : ℕ} (hm : s.left < m) (hn : s.left < n) :
    exec (parseAll m) s = exec (parseAll n) s := by
  obtain ⟨r, t, hout, hexec⟩ := (CExpParser.parseAll_inStep m s).resolve_left (parseAll_enough hm)
  obtain ⟨r', t', hout', hexec'⟩ :=
    (CExpParser.parseAll_inStep n s).resolve_left (parseAll_enough hn)
  obtain ⟨rfl, rfl⟩ := Prod.mk.inj (Option.some.inj (hout.symm.trans hout'))
  exact hexec.trans hexec'.symm

/-! ### Every text -/

lemma Respaced.calculate_eq {cs ds : List Char} (h : Respaced cs ds) (value : R) :
    calculate cs value = calculate ds value := by
  have hstart : Twin ⟨cs, 0, endToken, value⟩ ⟨ds, 0, endToken, value⟩ := ⟨rfl, h⟩
  unfold calculate parser construct
  obtain ⟨e, hp, hq⟩ | ⟨u, p, q, hp, hq, hpq⟩ := alike_nextToken _ _ hstart
  · rcases hp' : exec nextToken (Parser.mk cs 0 endToken value) with ⟨r, p⟩
    rcases hq' : exec nextToken (Parser.mk ds 0 endToken value) with ⟨r', q⟩
    rw [hp'] at hp
    rw [hq'] at hq
    obtain rfl : r = .error e := hp
    obtain rfl : r' = .error e := hq
    cases e <;> simp only [bind, Except.bind]
  · have hpleft : p.left ≤ cs.length := (nextToken_left _).2 u p hp
    have hqleft : q.left ≤ ds.length := (nextToken_left _).2 u q hq
    -- one depth for both
    have hall : (exec (parseAll (cs.length + 2)) p).1 = (exec (parseAll (ds.length + 2)) q).1 :=
      calc (exec (parseAll (cs.length + 2)) p).1
          = (exec (parseAll (cs.length + ds.length + 2)) p).1 :=
            congrArg Prod.fst (exec_parseAll_eq (by omega) (by omega))
        _ = (exec (parseAll (cs.length + ds.length + 2)) q).1 := (alike_parseAll _).fst_eq hpq
        _ = (exec (parseAll (ds.length + 2)) q).1 :=
            congrArg Prod.fst (exec_parseAll_eq (by omega) (by omega))
    rw [hp, hq]
    simp only [bind, Except.bind, hall]

/-- **White space does not matter** to `calculate` between tokens: of texts that are respaced in
any number of places, well-formed or not, both are refused alike or both have the same value, as
far as the value member holds the same before. -/
theorem calculate_respaced {cs ds : List Char} (h : Relation.EqvGen Respaced cs ds) (value : R) :
    calculate cs value = calculate ds value := by
  induction h with
  | rel cs ds h => exact h.calculate_eq value
  | refl => rfl
  | symm _ _ _ ih => exact ih.symm
  | trans _ _ _ _ _ ih ih' => exact ih.trans ih'

/-- `( 4)x -8` and `(4)x- 8`, which are no formulas -/
theorem calculate_respaced_unknown :
    calculate ['(', ' ', '4', ')', 'x', ' ', '-', '8'] (0 : ℚ) =
      calculate ['(', '4', ')', 'x', '-', ' ', '8'] 0 := by
  have hw : Blank [' '] := by simp [Blank, isSpace]
  have hparen : Respaced (['('] ++ [' '] ++ ['4', ')', 'x', ' ', '-', '8'])
      (['('] ++ ['4', ')', 'x', ' ', '-', '8']) := .mk hw (by decide)
  have hbefore : Respaced (['(', '4', ')', 'x'] ++ [' '] ++ ['-', '8'])
      (['(', '4', ')', 'x'] ++ ['-', '8']) := .mk hw (by decide)
  have hbehind : Respaced (['(', '4', ')', 'x', '-'] ++ [' '] ++ ['8'])
      (['(', '4', ')', 'x', '-'] ++ ['8']) := .mk hw (by decide)
  exact calculate_respaced (.trans _ _ _ (.rel _ _ hparen)
    (.trans _ _ _ (.rel _ _ hbefore) (.symm _ _ (.rel _ _ hbehind)))) 0

/-- Where the characters join, white space makes two tokens of one. -/
example : calculate ['1', '2'] (0 : ℚ) = .ok 12 ∧ calculate ['1', ' ', '2'] (0 : ℚ) = .ok 0 := by
  decide +kernel

end DataEngine.ExpParser
