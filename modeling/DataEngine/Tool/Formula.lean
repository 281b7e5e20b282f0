import DataEngine.Lib.Precedence
import DataEngine.Tool.ExpParser

/-!
Formulas as expressions, and the token codes their operators have.

The grammar is that of the parse functions: seven left-associative levels between the factors
and the conditional. A formula is evaluated eagerly, so that a division by zero in a branch that
is not taken still leaves it without a value.
-/

namespace DataEngine.ExpParser

open Lib.Effect Lib.Precedence

variable {R : Type}

/-- The signs before a factor. -/
inductive Sign where
  | neg | not
  deriving DecidableEq

/-- The operators between two operands. -/
inductive BinOp where
  | mul | div | add | sub | lt | le | gt | ge | eq | ne | bitAnd | bitOr | and | or
  deriving DecidableEq

abbrev Formula (α : Type) : Type := Expr Sign BinOp α

namespace BinOp

/-- `parseTerm` reads level 1, `parseLogicalOr` level 7. -/
def level : BinOp → ℕ
  | mul | div => 1
  | add | sub => 2
  | lt | le | gt | ge | eq | ne => 3
  | bitAnd => 4
  | bitOr => 5
  | and => 6
  | or => 7

def text : BinOp → List Char
  | mul => ['*']
  | div => ['/']
  | add => ['+']
  | sub => ['-']
  | lt => ['<']
  | le => ['<', '=']
  | gt => ['>']
  | ge => ['>', '=']
  | eq => ['=', '=']
  | ne => ['!', '=']
  | bitAnd => ['&']
  | bitOr => ['|']
  | and => ['&', '&']
  | or => ['|', '|']

/-- The token `nextToken` makes of the text. -/
def code : BinOp → Char
  | mul => '*'
  | div => '/'
  | add => '+'
  | sub => '-'
  | lt => '<'
  | le => 'l'
  | gt => '>'
  | ge => 'g'
  | eq => 'e'
  | ne => 'n'
  | bitAnd => 'a'
  | bitOr => 'o'
  | and => '&'
  | or => '|'

lemma code_inj {o o' : BinOp} (h : o.code = o'.code) : o = o' := by
  revert h
  cases o <;> cases o' <;> decide

lemma code_ne_end (o : BinOp) : o.code ≠ endToken := by cases o <;> decide

end BinOp

variable [Double R]

def Sign.apply : Sign → R → R
  | neg, a => Double.neg a
  | not, a => ofBool (!isTrue a)

/-- There is no value of a division by zero. -/
def BinOp.apply : BinOp → R → R → Option R
  | mul, a, b => some (Double.mul a b)
  | div, a, b => if Double.eq b (Double.ofInt 0) then none else some (Double.div a b)
  | add, a, b => some (Double.add a b)
  | sub, a, b => some (Double.sub a b)
  | lt, a, b => some (ofBool (Double.lt a b))
  | le, a, b => some (ofBool (Double.le a b))
  | gt, a, b => some (ofBool (Double.lt b a))
  | ge, a, b => some (ofBool (Double.le b a))
  | eq, a, b => some (ofBool (Double.eq a b))
  | ne, a, b => some (ofBool (!Double.eq a b))
  | bitAnd, a, b => some (Double.ofInt (Int.land (Double.toInt a) (Double.toInt b)))
  | bitOr, a, b => some (Double.ofInt (Int.lor (Double.toInt a) (Double.toInt b)))
  | and, a, b => some (ofBool (isTrue a && isTrue b))
  | or, a, b => some (ofBool (isTrue a || isTrue b))

/-- The value of a formula, none if it divides by zero anywhere. -/
def eval : Formula R → Option R
  | .leaf a => some a
  | .sign u e => u.apply <$> eval e
  | .binary o a b => do o.apply (← eval a) (← eval b)
  | .cond c t f => do
    let cond ← eval c
    let trueVal ← eval t
    let falseVal ← eval f
    some (if isTrue cond then trueVal else falseVal)

/-! ### The levels of the parser -/

/-- What an operator does with its operands while parsing. -/
def BinOp.run (o : BinOp) (a b : R) : Except Fault R :=
  (o.apply a b).elim (.error .runtimeError) .ok

/-- The operators the loop of a level knows. -/
def levelOps : ℕ → Operators R
  | 1 => termOps
  | 2 => addSubOps
  | 3 => comparisonOps
  | 4 => bitAndOps
  | 5 => bitOrOps
  | 6 => andOps
  | 7 => orOps
  | _ => fun _ => none

lemma levelOps_code (o : BinOp) :
    levelOps o.level o.code = some (o.run : R → R → Except Fault R) := by
  cases o with
  | div =>
    refine congrArg some (funext fun a => funext fun b => ?_)
    simp only [BinOp.run, BinOp.apply]
    split_ifs <;> rfl
  | _ => rfl

lemma exists_code {l : ℕ} {c : Char} {f : R → R → Except Fault R} (h : levelOps l c = some f) :
    ∃ o : BinOp, o.level = l ∧ o.code = c := by
  unfold levelOps at h
  split at h
  case h_1 =>
    unfold termOps at h
    split at h
    · exact ⟨.mul, rfl, rfl⟩
    · exact ⟨.div, rfl, rfl⟩
    · simp at h
  case h_2 =>
    unfold addSubOps at h
    split at h
    · exact ⟨.add, rfl, rfl⟩
    · exact ⟨.sub, rfl, rfl⟩
    · simp at h
  case h_3 =>
    unfold comparisonOps at h
    split at h
    · exact ⟨.lt, rfl, rfl⟩
    · exact ⟨.le, rfl, rfl⟩
    · exact ⟨.gt, rfl, rfl⟩
    · exact ⟨.ge, rfl, rfl⟩
    · exact ⟨.eq, rfl, rfl⟩
    · exact ⟨.ne, rfl, rfl⟩
    · simp at h
  case h_4 =>
    unfold bitAndOps at h
    split at h
    · exact ⟨.bitAnd, rfl, rfl⟩
    · simp at h
  case h_5 =>
    unfold bitOrOps at h
    split at h
    · exact ⟨.bitOr, rfl, rfl⟩
    · simp at h
  case h_6 =>
    unfold andOps at h
    split at h
    · exact ⟨.and, rfl, rfl⟩
    · simp at h
  case h_7 =>
    unfold orOps at h
    split at h
    · exact ⟨.or, rfl, rfl⟩
    · simp at h
  case h_8 => simp at h

lemma levelOps_eq_some {l : ℕ} {c : Char} {f : R → R → Except Fault R} :
    levelOps l c = some f ↔ ∃ o : BinOp, o.level = l ∧ o.code = c ∧ f = o.run := by
  constructor
  · intro h
    obtain ⟨o, rfl, rfl⟩ := exists_code h
    exact ⟨o, rfl, rfl, (Option.some.inj ((levelOps_code o).symm.trans h)).symm⟩
  · rintro ⟨o, rfl, rfl, rfl⟩
    exact levelOps_code o

/-- A level of the parser: factors on level 0, `parseLogicalOr` on level 7. -/
def parseLevel (conditional : ParserM R R) (n : ℕ) : ℕ → ParserM R R
  | 0 => parseFactor conditional n
  | l + 1 => leftLevel (levelOps (l + 1)) (parseLevel conditional n l) n

lemma parseLevel_top (conditional : ParserM R R) (n : ℕ) :
    parseLevel conditional n 7 = parseLogicalOr conditional n := rfl

end DataEngine.ExpParser
