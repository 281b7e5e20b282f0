import DataEngine.Base

/-!
Strings as the engine cuts them.

A string is a list of characters. Every separator the engine passes is one character.
-/

namespace DataEngine.Tool

/-- `str.find(c, pos)` -/
def find (c : Char) (str : List Char) (pos : ℕ) : Option ℕ :=
  ((str.drop pos).findIdx? (· = c)).map (· + pos)

lemma find_eq_some {c : Char} {str : List Char} {pos i : ℕ} (h : find c str pos = some i) :
    pos ≤ i ∧ str[i]? = some c := by
  obtain ⟨j, hj, rfl⟩ := Option.map_eq_some_iff.mp h
  obtain ⟨hlt, hc, -⟩ := List.findIdx?_eq_some_iff_getElem.mp hj
  refine ⟨by omega, ?_⟩
  rw [List.getElem_drop] at hc
  rw [Nat.add_comm, List.getElem?_eq_getElem (by rw [List.length_drop] at hlt; omega)]
  simpa using hc

lemma find_eq_none {c : Char} {str : List Char} : find c str 0 = none ↔ c ∉ str := by
  simp [find]
  exact ⟨fun h hc => h c hc rfl, fun h x hx he => h (he ▸ hx)⟩

lemma find_append {c : Char} {pre post : List Char} (h : c ∉ pre) :
    find c (pre ++ c :: post) 0 = some pre.length := by
  have hpre : pre.findIdx? (· = c) = none :=
    List.findIdx?_eq_none_iff.mpr fun x hx => by simpa using fun he : x = c => h (he ▸ hx)
  simp [find, List.findIdx?_append, hpre, List.findIdx?_cons]

/-- Where a character stands first. -/
lemma split_unique {c : Char} {pre pre' post post' : List Char} (hpre : c ∉ pre)
    (hpre' : c ∉ pre') (h : pre ++ c :: post = pre' ++ c :: post') : pre = pre' ∧ post = post' := by
  have hlen : pre.length = pre'.length :=
    Option.some.inj ((find_append hpre).symm.trans (h ▸ find_append hpre'))
  obtain ⟨rfl, hpost⟩ := List.append_inj h hlen
  exact ⟨rfl, (List.cons.inj hpost).2⟩

lemma find_from (c : Char) (pre post : List Char) :
    find c (pre ++ post) pre.length = (find c post 0).map (· + pre.length) := by
  simp [find]

/-- `str.substr(pos, n)` -/
def substr (str : List Char) (pos n : ℕ) : List Char := (str.drop pos).take n

/-- What is pushed to the result: empty pieces are not. -/
def push (tmp : List Char) (result : List (List Char)) : List (List Char) :=
  if tmp = [] then result else result ++ [tmp]

/-- The loop of `splitStr` and what follows it: `pos1` is the separator found last. -/
def splitLoop (symbol : Char) (str : List Char) :
    ℕ → ℕ → Option ℕ → List (List Char) → List (List Char)
  | 0, _, _, result => result
  | _ + 1, pos, none, result => push (str.drop pos) result
  | n + 1, pos, some pos1, result =>
    splitLoop symbol str n (pos1 + 1) (find symbol str (pos1 + 1))
      (push (substr str pos (pos1 - pos)) result)

/-- What `splitStr` appends; a string holds at most as many separators as characters. -/
def splitStr (symbol : Char) (str : List Char) : List (List Char) :=
  match find symbol str 0 with
  | none => []
  | some pos1 => splitLoop symbol str (str.length + 1) 0 (some pos1) []

def isSpace (c : Char) : Bool := c ∈ [' ', '\t', '\n', '\x0b', '\x0c', '\r']

def digitsValue (cs : List Char) : ℕ := cs.foldl (fun n c => 10 * n + (c.toNat - '0'.toNat)) 0

/-- `std::stoi` -/
def stoi (str : List Char) : Except Fault ℤ :=
  let str := str.dropWhile isSpace
  let neg := str.head? = some '-'
  let str := if neg ∨ str.head? = some '+' then str.tail else str
  let digits := str.takeWhile Char.isDigit
  let value : ℤ := if neg then -digitsValue digits else digitsValue digits
  if digits = [] then .error .invalidArgument
  else if intMin ≤ value ∧ value ≤ intMax then .ok value
  else .error .outOfRange

example : splitStr '#' "a##b#7".toList = ["a".toList, "b".toList, "7".toList] := by decide

end DataEngine.Tool
