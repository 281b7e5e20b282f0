import DataEngine.Base

/-!
Rational numbers as a carrier of the engine's arithmetic: finite doubles without rounding.
-/

namespace DataEngine.Rational

/-- The nearest natural number to `q ≥ 0`, the even one of two. -/
def roundEven (q : ℚ) : ℕ :=
  let n := ⌊q⌋.toNat
  if q - n < 1 / 2 then n
  else if q - n = 1 / 2 ∧ n % 2 = 0 then n
  else n + 1

/-- Truncation towards zero; out of range the processor yields the least value. -/
def truncTo (lo hi : ℤ) (q : ℚ) : ℤ :=
  let n := if 0 ≤ q then ⌊q⌋ else ⌈q⌉
  if lo ≤ n ∧ n ≤ hi then n else lo

def sign (q : ℚ) : String := if q < 0 then "-" else ""

/-- `%f` -/
def fixedText (q : ℚ) : String :=
  let n := roundEven (|q| * 10 ^ 6)
  let frac := toString (n % 10 ^ 6)
  sign q ++ toString (n / 10 ^ 6) ++ "." ++ "".pushn '0' (6 - frac.length) ++ frac

/-- `%.17g` with the digits `n` and the decimal exponent `e`, and `.0` if no point shows. -/
def generalText (n : ℕ) (e : ℤ) : String :=
  let ds := ((toString n).toList.reverse.dropWhile (· = '0')).reverse
  if -4 ≤ e ∧ e < 17 then
    if e < 0 then "0." ++ "".pushn '0' (-e - 1).toNat ++ String.ofList ds
    else
      let whole := ds.take (e + 1).toNat
      let frac := ds.drop (e + 1).toNat
      String.ofList whole ++ "".pushn '0' ((e + 1).toNat - whole.length) ++ "." ++
        if frac = [] then "0" else String.ofList frac
  else
    let exp := toString e.natAbs
    String.ofList (ds.take 1) ++ (if ds.length = 1 then "" else "." ++ String.ofList (ds.drop 1)) ++
      "e" ++ (if e < 0 then "-" else "+") ++ "".pushn '0' (2 - exp.length) ++ exp

def jsonText (q : ℚ) : String :=
  if q = 0 then "0.0"
  else
    let e := Int.log 10 |q|
    let n := roundEven (|q| * 10 ^ (16 - e))
    sign q ++ if n = 10 ^ 17 then generalText (10 ^ 16) (e + 1) else generalText n e

def digits (cs : List Char) : ℕ := cs.foldl (fun n c => 10 * n + (c.toNat - '0'.toNat)) 0

/-- The longest prefix of digits with at most one point, which must hold a digit. -/
def stod (cs : List Char) : Except Fault ℚ :=
  let whole := cs.takeWhile Char.isDigit
  let rest := cs.dropWhile Char.isDigit
  let frac := if rest.head? = some '.' then rest.tail.takeWhile Char.isDigit else []
  if whole = [] ∧ frac = [] then .error .invalidArgument
  else .ok (digits whole + digits frac / 10 ^ frac.length)

instance : Double ℚ where
  ofInt := fun n => n
  add := (· + ·)
  sub := (· - ·)
  mul := (· * ·)
  div := (· / ·)
  neg := (- ·)
  eq := fun a b => a = b
  lt := fun a b => a < b
  le := fun a b => a ≤ b
  toInt := truncTo intMin intMax
  toInt64 := truncTo (-9223372036854775808) 9223372036854775807
  stod := stod
  toText := fixedText
  jsonText := jsonText

example : stod "12.50".toList = .ok (25 / 2) := by decide +kernel

end DataEngine.Rational
