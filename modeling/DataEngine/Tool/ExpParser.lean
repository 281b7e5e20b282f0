import DataEngine.Lib.Effect
import DataEngine.Tool.Tool

/-!
The parser of formulas, which evaluates while it parses, and the replacement of references.

The parse functions call each other as deep as the text nests; the depth allowed is a
parameter, and the length of the text is always enough. The value of a number token is a
member that the constructor does not set: what it holds before the first literal can be anything,
and is a parameter too.
-/

namespace DataEngine.ExpParser

open Lib.Effect Tool

variable {R : Type} [Double R]

/-- The members of `CExpParser`. -/
structure Parser (R : Type) where
  expr : List Char
  pos : ℕ
  currentToken : Char
  value : R

/-- Why parsing stops: with a fault, or at the depth it was allowed. -/
inductive Stop where
  | fault (f : Fault)
  | depth
  deriving DecidableEq

abbrev ParserM (R α : Type) : Type := Prog Stop (Parser R) α

def raise {α : Type} (f : Fault) : ParserM R α := throw (.fault f)

/-- The token at the end of the text. -/
def endToken : Char := '\x00'

def isNumberChar (c : Char) : Bool := c.isDigit || c = '.'

/-- The token of an operator of one or two characters: `c`, or `c` and `next`. -/
def operatorToken (c : Char) (next : Option Char) : Except Fault (Char × ℕ) :=
  match c with
  | '&' => .ok (if next = some '&' then ('&', 2) else ('a', 1))
  | '|' => .ok (if next = some '|' then ('|', 2) else ('o', 1))
  | '<' => .ok (if next = some '=' then ('l', 2) else ('<', 1))
  | '>' => .ok (if next = some '=' then ('g', 2) else ('>', 1))
  | '!' => .ok (if next = some '=' then ('n', 2) else ('!', 1))
  | '=' => if next = some '=' then .ok ('e', 2) else .error .runtimeError
  | c => .ok (c, 1)

lemma operatorToken_length {c : Char} {next : Option Char} {token : Char} {n : ℕ}
    (h : operatorToken c next = .ok (token, n)) : n = 1 ∨ n = 2 ∧ next ≠ none := by
  unfold operatorToken at h
  split at h <;> (try split_ifs at h) <;> simp_all

def nextToken : ParserM R Unit := do
  modify fun s => { s with pos := s.pos + ((s.expr.drop s.pos).takeWhile isSpace).length }
  let s ← get
  match s.expr.drop s.pos with
  | [] => set { s with currentToken := endToken }
  | c :: cs =>
    if isNumberChar c then
      let numStr := (c :: cs).takeWhile isNumberChar
      set { s with pos := s.pos + numStr.length }
      match (Double.stod numStr : Except Fault R) with
      | .error e => raise e
      | .ok v =>
        set { s with pos := s.pos + numStr.length, value := v, currentToken := 'n' }
    else
      match operatorToken c cs.head? with
      | .error e => raise e
      | .ok (token, n) => set { s with pos := s.pos + n, currentToken := token }

def token : ParserM R Char := do return (← get).currentToken

/-- What an operator token of a level does with its two operands. -/
abbrev Operators (R : Type) : Type := Char → Option (R → R → Except Fault R)

/-- The loop of a left-associative level. -/
def operators (ops : Operators R) (operand : ParserM R R) : ℕ → R → ParserM R R
  | 0, _ => throw .depth
  | n + 1, result => do
    match ops (← token) with
    | none => pure result
    | some op =>
      nextToken
      let rhs ← operand
      match op result rhs with
      | .error e => raise e
      | .ok r => operators ops operand n r

/-- A left-associative level: an operand, then operators with an operand each. -/
def leftLevel (ops : Operators R) (operand : ParserM R R) (n : ℕ) : ParserM R R := do
  let result ← operand
  operators ops operand n result

def isTrue (x : R) : Bool := !Double.eq x (Double.ofInt 0)

def ofBool (b : Bool) : R := if b then Double.ofInt 1 else Double.ofInt 0

def orOps : Operators R
  | '|' => some fun a b => .ok (ofBool (isTrue a || isTrue b))
  | _ => none

def andOps : Operators R
  | '&' => some fun a b => .ok (ofBool (isTrue a && isTrue b))
  | _ => none

def bitOrOps : Operators R
  | 'o' => some fun a b => .ok (Double.ofInt (Int.lor (Double.toInt a) (Double.toInt b)))
  | _ => none

def bitAndOps : Operators R
  | 'a' => some fun a b => .ok (Double.ofInt (Int.land (Double.toInt a) (Double.toInt b)))
  | _ => none

def comparisonOps : Operators R
  | '<' => some fun a b => .ok (ofBool (Double.lt a b))
  | 'l' => some fun a b => .ok (ofBool (Double.le a b))
  | '>' => some fun a b => .ok (ofBool (Double.lt b a))
  | 'g' => some fun a b => .ok (ofBool (Double.le b a))
  | 'e' => some fun a b => .ok (ofBool (Double.eq a b))
  | 'n' => some fun a b => .ok (ofBool (!Double.eq a b))
  | _ => none

def addSubOps : Operators R
  | '+' => some fun a b => .ok (Double.add a b)
  | '-' => some fun a b => .ok (Double.sub a b)
  | _ => none

def termOps : Operators R
  | '*' => some fun a b => .ok (Double.mul a b)
  | '/' => some fun a b =>
    if Double.eq b (Double.ofInt 0) then .error .runtimeError else .ok (Double.div a b)
  | _ => none

section Levels

/-! The levels, given what parses a whole conditional. -/

variable (conditional : ParserM R R)

def parseFactor : ℕ → ParserM R R
  | 0 => throw .depth
  | n + 1 => do
    let s ← get
    if s.currentToken = 'n' then
      nextToken
      pure s.value
    else if s.currentToken = '(' then
      nextToken
      let result ← conditional
      if (← token) ≠ ')' then raise .runtimeError
      else
        nextToken
        pure result
    else if s.currentToken = '-' then
      nextToken
      Double.neg <$> parseFactor n
    else if s.currentToken = '!' then
      nextToken
      (fun v => ofBool (!isTrue v)) <$> parseFactor n
    else raise .runtimeError

def parseTerm (n : ℕ) : ParserM R R := leftLevel termOps (parseFactor conditional n) n
def parseAddSub (n : ℕ) : ParserM R R := leftLevel addSubOps (parseTerm conditional n) n
def parseComparison (n : ℕ) : ParserM R R := leftLevel comparisonOps (parseAddSub conditional n) n
def parseBitAnd (n : ℕ) : ParserM R R := leftLevel bitAndOps (parseComparison conditional n) n
def parseBitOr (n : ℕ) : ParserM R R := leftLevel bitOrOps (parseBitAnd conditional n) n
def parseLogicalAnd (n : ℕ) : ParserM R R := leftLevel andOps (parseBitOr conditional n) n
def parseLogicalOr (n : ℕ) : ParserM R R := leftLevel orOps (parseLogicalAnd conditional n) n

end Levels

def parseConditional : ℕ → ParserM R R
  | 0 => throw .depth
  | n + 1 => do
    let cond ← parseLogicalOr (parseConditional n) (n + 1)
    if (← token) = '?' then
      nextToken
      let trueVal ← parseConditional n
      if (← token) ≠ ':' then raise .runtimeError
      else
        nextToken
        let falseVal ← parseConditional n
        pure (if isTrue cond then trueVal else falseVal)
    else pure cond

/-- The constructor, which reads the first token; `value` is what happens to be in the member. -/
def construct (expr : List Char) (value : R) : Except Stop Unit × Parser R :=
  exec nextToken ⟨expr, 0, endToken, value⟩

/-- What `calculate` parses. -/
def parseAll (n : ℕ) : ParserM R R := do
  let result ← parseConditional n
  if (← token) ≠ endToken then raise .runtimeError else pure result

/-- A new parser. -/
def parser (expr : List Char) (value : R) : Except Fault (Parser R) :=
  match construct expr value with
  | (.ok _, s) => .ok s
  | (.error (.fault e), _) => .error e
  | (.error .depth, _) => .error .undefined

/-- `calculate` on a new parser. The exceptions of the constructor are not caught. -/
def calculate (expr : List Char) (value : R) : Except Fault R := do
  match (exec (parseAll (expr.length + 2)) (← parser expr value)).1 with
  | .ok result => .ok result
  | .error (.fault .undefined) => .error .undefined
  | .error (.fault _) => .ok (Double.ofInt 0)
  | .error .depth => .error .undefined

/-! ### Depth -/

/-- What is left to read, the current token included. -/
def Parser.left (s : Parser R) : ℕ :=
  s.expr.length - s.pos + if s.currentToken = endToken then 0 else 1

/-- From `s` the depth is enough, and after an answer less than `k` is left. -/
def Reads {α : Type} (p : ParserM R α) (s : Parser R) (k : ℕ) : Prop :=
  (exec p s).1 ≠ .error .depth ∧ ∀ v t, exec p s = (.ok v, t) → t.left < k

/-- Started with at most `m` left, a program reads something and is deep enough. -/
def Parses (p : ParserM R R) (m : ℕ) : Prop := ∀ s, s.left ≤ m → Reads p s s.left

omit [Double R] in
lemma Reads.mono {α : Type} {p : ParserM R α} {s : Parser R} {k l : ℕ} (h : Reads p s k)
    (hkl : k ≤ l) : Reads p s l :=
  ⟨h.1, fun v t ht => (h.2 v t ht).trans_le hkl⟩

omit [Double R] in
lemma reads_pure {α : Type} {s : Parser R} {k : ℕ} (v : α) (h : s.left < k) :
    Reads (pure v) s k := by
  refine ⟨by simp, fun w t ht => ?_⟩
  obtain rfl := congrArg Prod.snd ht
  exact h

omit [Double R] in
lemma reads_raise {α : Type} (f : Fault) (s : Parser R) (k : ℕ) :
    Reads (raise f : ParserM R α) s k :=
  ⟨by simp [raise], by simp [raise]⟩

/-- The next token is read from what follows the current one. -/
lemma nextToken_left (s : Parser R) :
    (exec nextToken s).1 ≠ .error .depth ∧
      ∀ v t, exec nextToken s = (.ok v, t) → t.left ≤ s.expr.length - s.pos := by
  unfold nextToken
  rw [exec_modify_bind, exec_get_bind]
  set s' : Parser R := { s with
    pos := s.pos + ((s.expr.drop s.pos).takeWhile isSpace).length } with hs'
  have hpos : s.pos ≤ s'.pos := Nat.le_add_right _ _
  have hexpr : s'.expr = s.expr := rfl
  rcases hd : s'.expr.drop s'.pos with _ | ⟨c, cs⟩
  · have hlen : s'.expr.length ≤ s'.pos := List.drop_eq_nil_iff.mp hd
    simp only
    refine ⟨by simp, fun v t ht => ?_⟩
    obtain rfl : { s' with currentToken := endToken } = t := by simpa using congrArg Prod.snd ht
    simp only [Parser.left, if_true]
    omega
  have hlt : s'.pos < s'.expr.length := by
    by_contra hge
    rw [List.drop_eq_nil_of_le (by omega)] at hd
    simp at hd
  -- a token of `n` characters, whichever it is
  have hread (n : ℕ) (hn : 0 < n) (tok : Char) (v : R) :
      Parser.left { s' with pos := s'.pos + n, currentToken := tok, value := v } ≤
        s.expr.length - s.pos := by
    simp only [Parser.left, hexpr]
    rw [hexpr] at hlt
    split_ifs <;> omega
  by_cases hc : isNumberChar c = true
  · simp only [hc, if_true]
    have hn : 0 < ((c :: cs).takeWhile isNumberChar).length := by
      simp [hc]
    rw [exec_bind_ok (exec_set _ _)]
    rcases (Double.stod ((c :: cs).takeWhile isNumberChar) : Except Fault R) with e | v
    · simp [raise]
    · refine ⟨by simp, fun u t ht => ?_⟩
      obtain rfl := congrArg Prod.snd ht
      exact hread _ hn 'n' v
  · simp only [hc, Bool.false_eq_true, if_false]
    rcases ho : operatorToken c cs.head? with e | ⟨tok, n⟩
    · simp [raise]
    · have hn : 0 < n := by
        have hlen := operatorToken_length ho
        omega
      refine ⟨by simp, fun u t ht => ?_⟩
      obtain rfl := congrArg Prod.snd ht
      exact hread n hn tok s'.value

lemma nextToken_lt {s : Parser R} (h : s.currentToken ≠ endToken) {v : Unit} {t : Parser R}
    (ht : exec nextToken s = (.ok v, t)) : t.left < s.left := by
  have hle := (nextToken_left s).2 v t ht
  unfold Parser.left at hle ⊢
  rw [if_neg h]
  omega

omit [Double R] in
lemma exec_token_bind {α : Type} (f : Char → ParserM R α) (s : Parser R) :
    exec (token >>= f) s = exec (f s.currentToken) s := exec_bind_ok rfl

omit [Double R] in
lemma reads_token_bind {α : Type} {f : Char → ParserM R α} {s : Parser R} {k : ℕ}
    (h : Reads (f s.currentToken) s k) : Reads (token >>= f) s k := by
  unfold Reads
  rw [exec_token_bind]
  exact h

/-- Reading a token and going on, with less left. -/
lemma reads_nextToken_bind {α : Type} {f : ParserM R α} {s : Parser R} {k : ℕ}
    (h : s.currentToken ≠ endToken) (hf : ∀ t, t.left < s.left → Reads f t k) :
    Reads (nextToken >>= fun _ => f) s k := by
  unfold Reads
  rcases hn : exec nextToken s with ⟨e | v, t⟩
  · rw [exec_bind_error hn]
    have hd := (nextToken_left s).1
    rw [hn] at hd
    exact ⟨by simpa using hd, by simp⟩
  · rw [exec_bind_ok hn]
    exact hf t (nextToken_lt h hn)

omit [Double R] in
/-- Going on after a program that parses, with less left. -/
lemma Parses.bind {α : Type} {p : ParserM R R} {m k : ℕ} (hp : Parses p m)
    {f : R → ParserM R α} {s : Parser R} (hs : s.left ≤ m)
    (hf : ∀ v t, t.left < s.left → Reads (f v) t k) : Reads (p >>= f) s k := by
  obtain ⟨hd, hlt⟩ := hp s hs
  unfold Reads
  rcases he : exec p s with ⟨e | v, t⟩
  · rw [exec_bind_error he]
    rw [he] at hd
    exact ⟨by simpa using hd, by simp⟩
  · rw [exec_bind_ok he]
    exact hf v t (hlt v t he)

lemma operators_reads {ops : Operators R} (hops : ops endToken = none) {operand : ParserM R R}
    {m : ℕ} (hp : Parses operand m) (n : ℕ) (result : R) (s : Parser R) (hs : s.left ≤ m)
    (hn : s.left < n) : Reads (operators ops operand n result) s (s.left + 1) := by
  induction n generalizing result s with
  | zero => omega
  | succ n ih =>
    unfold operators
    refine reads_token_bind ?_
    cases ho : ops s.currentToken with
    | none => exact reads_pure result (by omega)
    | some op =>
      have hend : s.currentToken ≠ endToken := by
        intro he
        rw [he, hops] at ho
        simp at ho
      refine reads_nextToken_bind hend fun t ht => ?_
      refine hp.bind (by omega) fun rhs u hu => ?_
      rcases op result rhs with e | r
      · exact reads_raise e u _
      · exact (ih r u (by omega) (by omega)).mono (by omega)

lemma leftLevel_parses {ops : Operators R} (hops : ops endToken = none) {operand : ParserM R R}
    {m n : ℕ} (hn : m < n) (hp : Parses operand m) : Parses (leftLevel ops operand n) m := by
  intro s hs
  unfold leftLevel
  refine hp.bind hs fun v t ht => ?_
  exact (operators_reads hops hp n v t (by omega) (by omega)).mono (by omega)

lemma parseFactor_parses {conditional : ParserM R R} {m : ℕ}
    (hc : ∀ k < m, Parses conditional k) (n : ℕ) (hn : m < n) :
    Parses (parseFactor conditional n) m := by
  induction n generalizing m with
  | zero => omega
  | succ n ih =>
    intro s hs
    unfold parseFactor Reads
    rw [exec_get_bind]
    change Reads _ s s.left
    by_cases h1 : s.currentToken = 'n'
    · rw [if_pos h1]
      exact reads_nextToken_bind (by rw [h1]; decide) fun t ht => reads_pure s.value ht
    rw [if_neg h1]
    by_cases h2 : s.currentToken = '('
    · rw [if_pos h2]
      refine reads_nextToken_bind (by rw [h2]; decide) fun t ht => ?_
      refine (hc t.left (by omega)).bind le_rfl fun v u hu => reads_token_bind ?_
      by_cases h : u.currentToken = ')'
      · rw [if_neg (by simp [h])]
        exact reads_nextToken_bind (by rw [h]; decide) fun x hx => reads_pure v (by omega)
      · rw [if_pos h]
        exact reads_raise _ u _
    rw [if_neg h2]
    -- the two signs read a factor with less left
    have hsign (g : R → R) (h : s.currentToken ≠ endToken) :
        Reads (nextToken >>= fun _ => g <$> parseFactor conditional n) s s.left := by
      refine reads_nextToken_bind h fun t ht => ?_
      rw [map_eq_pure_bind]
      exact (ih (m := t.left) (fun k hk => hc k (by omega)) (by omega)).bind le_rfl
        fun v u hu => reads_pure (g v) (by omega)
    by_cases h3 : s.currentToken = '-'
    · rw [if_pos h3]
      exact hsign _ (by rw [h3]; decide)
    rw [if_neg h3]
    by_cases h4 : s.currentToken = '!'
    · rw [if_pos h4]
      exact hsign _ (by rw [h4]; decide)
    · rw [if_neg h4]
      exact reads_raise _ s _

lemma parseLogicalOr_parses {conditional : ParserM R R} {m n : ℕ}
    (hc : ∀ k < m, Parses conditional k) (hn : m < n) :
    Parses (parseLogicalOr conditional n) m :=
  leftLevel_parses rfl hn <| leftLevel_parses rfl hn <| leftLevel_parses rfl hn <|
    leftLevel_parses rfl hn <| leftLevel_parses rfl hn <| leftLevel_parses rfl hn <|
    leftLevel_parses rfl hn <| parseFactor_parses hc n hn

lemma parseConditional_parses (n m : ℕ) (hm : m < n) :
    Parses (parseConditional n : ParserM R R) m := by
  induction n generalizing m with
  | zero => omega
  | succ n ih =>
    intro s hs
    unfold parseConditional
    have hor : Parses (parseLogicalOr (parseConditional n : ParserM R R) (n + 1)) m :=
      parseLogicalOr_parses (fun k hk => ih k (by omega)) (by omega)
    refine hor.bind hs fun cond t ht => reads_token_bind ?_
    by_cases hq : t.currentToken = '?'
    swap
    · rw [if_neg hq]
      exact reads_pure cond ht
    rw [if_pos hq]
    refine reads_nextToken_bind (by rw [hq]; decide) fun u hu => ?_
    refine (ih u.left (by omega)).bind le_rfl fun trueVal x hx => reads_token_bind ?_
    by_cases hcolon : x.currentToken = ':'
    swap
    · rw [if_pos hcolon]
      exact reads_raise _ x _
    rw [if_neg (by simp [hcolon])]
    refine reads_nextToken_bind (by rw [hcolon]; decide) fun y hy => ?_
    exact (ih y.left (by omega)).bind le_rfl fun falseVal z hz => reads_pure _ (by omega)

/-- **Depth**: the depth `calculate` allows is enough for every text. -/
theorem parseAll_depth (expr : List Char) {value : R} {s : Parser R} {v : Unit}
    (h : construct expr value = (.ok v, s)) :
    (exec (parseAll (expr.length + 2)) s).1 ≠ .error .depth := by
  have hleft : s.left ≤ expr.length := (nextToken_left _).2 v s h
  unfold parseAll
  refine ((parseConditional_parses _ s.left (by omega)).bind (k := s.left) le_rfl
    fun r t ht => reads_token_bind ?_).1
  split_ifs
  · exact reads_raise _ t _
  · exact reads_pure r ht

/-! ### Replacement of references -/

variable {ε σ : Type}

/-- The loop of `replaceRangeStr`. -/
def replaceLoop (first last : Char) (func : List Char → Prog ε σ (List Char)) :
    ℕ → List Char → Prog ε σ (List Char)
  | 0, str => pure str
  | n + 1, str =>
    match find first str 0 with
    | none => pure str
    | some pos1 =>
      match find last str pos1 with
      | none => pure str
      | some pos2 => do
        let dst ← func (substr str (pos1 + 1) (pos2 - pos1 - 1))
        replaceLoop first last func n (str.take pos1 ++ dst ++ str.drop (pos2 + 1))

/-- The passes allowed: a replacement by text without `first` leaves fewer of them. -/
def replaceRangeStr (first last : Char) (func : List Char → Prog ε σ (List Char))
    (str : List Char) : Prog ε σ (List Char) :=
  replaceLoop first last func (str.count first + 1) str

/-- No range is left to replace. -/
def NoRange (first last : Char) (str : List Char) : Prop :=
  ∀ pos1, find first str 0 = some pos1 → find last str pos1 = none

lemma count_replaced {first : Char} {str dst : List Char} {pos1 pos2 : ℕ}
    (h1 : find first str 0 = some pos1) (h12 : pos1 ≤ pos2) (hdst : first ∉ dst) :
    (str.take pos1 ++ dst ++ str.drop (pos2 + 1)).count first < str.count first := by
  have hat := (find_eq_some h1).2
  have hsplit : str.count first =
      (str.take pos1).count first + (str.drop pos1).count first := by
    rw [← List.count_append, List.take_append_drop]
  have hhead : (str.drop pos1).count first = (str.drop (pos1 + 1)).count first + 1 := by
    obtain ⟨hlt, hget⟩ := List.getElem?_eq_some_iff.mp hat
    rw [List.drop_eq_getElem_cons hlt, hget, List.count_cons_self]
  have htail : (str.drop (pos2 + 1)).count first ≤ (str.drop (pos1 + 1)).count first :=
    (List.drop_sublist_drop_left str (by omega)).count_le first
  rw [List.count_append, List.count_append, List.count_eq_zero_of_not_mem hdst]
  omega

/-- **Replacement**: if no replacement holds `first`, the passes allowed are enough. -/
theorem replaceRangeStr_done {first last : Char} {func : List Char → Prog ε σ (List Char)}
    (hfunc : ∀ src s dst t, exec (func src) s = (.ok dst, t) → first ∉ dst) {str r : List Char}
    {s t : σ} (h : exec (replaceRangeStr first last func str) s = (.ok r, t)) :
    NoRange first last r := by
  unfold replaceRangeStr at h
  have hn : str.count first < str.count first + 1 := Nat.lt_succ_self _
  generalize str.count first + 1 = n at h hn
  induction n generalizing str s with
  | zero => omega
  | succ n ih =>
    unfold replaceLoop at h
    cases h1 : find first str 0 with
    | none =>
      rw [h1] at h
      obtain ⟨rfl, -⟩ : str = r ∧ s = t := by simpa using h
      intro pos1 hpos
      simp [h1] at hpos
    | some pos1 =>
      cases h2 : find last str pos1 with
      | none =>
        simp only [h1, h2] at h
        obtain ⟨rfl, -⟩ : str = r ∧ s = t := by simpa using h
        intro pos hpos
        obtain rfl : pos1 = pos := Option.some.inj (h1.symm.trans hpos)
        exact h2
      | some pos2 =>
        simp only [h1, h2] at h
        rcases hd : exec (func (substr str (pos1 + 1) (pos2 - pos1 - 1))) s with ⟨e | dst, u⟩
        · rw [exec_bind_error hd] at h
          simp at h
        · rw [exec_bind_ok hd] at h
          refine ih h ?_
          have := count_replaced h1 (find_eq_some h2).1 (hfunc _ s dst u hd)
          omega

end DataEngine.ExpParser
