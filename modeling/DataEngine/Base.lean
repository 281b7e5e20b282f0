import Mathlib

/-!
What the modules of the engine share: the ways a call can end without returning, the
enumerations of the interface, the ordered maps, and the numbers the engine computes with.
-/

namespace DataEngine

/-- How a call ends other than by returning: an exception, or behaviour the language leaves
undefined. -/
inductive Fault where
  /-- `Json::LogicError`: an access that does not fit the value -/
  | logicError
  /-- `std::invalid_argument` of a conversion from text -/
  | invalidArgument
  /-- `std::out_of_range` of a conversion from text -/
  | outOfRange
  /-- `std::length_error` of a vector -/
  | lengthError
  /-- `std::runtime_error` -/
  | runtimeError
  /-- an index outside the object it is used on, a signed overflow -/
  | undefined
  deriving DecidableEq

/-- A `std::map`, kept in the order of its keys. -/
abbrev Map (κ ν : Type) [Ord κ] : Type := Std.ExtTreeMap κ ν compare

lemma Map.getElem?_insert {κ ν : Type} [DecidableEq κ] [Ord κ] [Std.TransOrd κ]
    [Std.LawfulEqOrd κ] (m : Map κ ν) (k k' : κ) (v : ν) :
    (m.insert k v)[k']? = if k' = k then some v else m[k']? := by
  rw [Std.ExtTreeMap.getElem?_insert]
  by_cases h : k' = k
  · simp [h]
  · have h' : compare k k' ≠ .eq := fun e => h (Std.LawfulEqOrd.eq_of_compare e).symm
    simp [h, h']

lemma Map.getElem?_foldl_insert {κ ν : Type} [DecidableEq κ] [Ord κ] [Std.TransOrd κ]
    [Std.LawfulEqOrd κ] (m : Map κ ν) (ks : List κ) (v : ν) (k : κ) :
    (ks.foldl (fun m k => m.insert k v) m)[k]? = if k ∈ ks then some v else m[k]? := by
  induction ks generalizing m with
  | nil => simp
  | cons k' ks ih =>
    rw [List.foldl_cons, ih, Map.getElem?_insert]
    by_cases hk : k = k' <;> simp [hk]

lemma Map.mem_insert {κ ν : Type} [Ord κ] [Std.TransOrd κ] [Std.LawfulEqOrd κ] (m : Map κ ν)
    (k k' : κ) (v : ν) : k' ∈ m.insert k v ↔ k' = k ∨ k' ∈ m := by
  rw [Std.ExtTreeMap.mem_insert, Std.LawfulEqCmp.compare_eq_iff_eq, eq_comm]

/-- Maps of the same keys list them in the same order. -/
lemma Map.keys_congr {κ ν ν' : Type} [Ord κ] [Std.TransOrd κ] [Std.LawfulEqOrd κ] {m : Map κ ν}
    {m' : Map κ ν'} (h : ∀ k, k ∈ m ↔ k ∈ m') : m.keys = m'.keys := by
  have hmem (k : κ) : k ∈ m.keys ↔ k ∈ m'.keys := by
    rw [Std.ExtTreeMap.mem_keys, Std.ExtTreeMap.mem_keys, h]
  have hperm := (List.perm_ext_iff_of_nodup m.nodup_keys m'.nodup_keys).mpr hmem
  refine hperm.eq_of_pairwise (fun a b _ _ hab hba => ?_) m.ordered_keys m'.ordered_keys
  exact absurd hba (Std.OrientedCmp.not_lt_of_lt hab)

/-! ### Enumerations of the interface -/

/-- `DATA_TYPE` -/
inductive DataType where
  | signal | measure | pulse | control | param | unknown
  deriving DecidableEq, Ord

instance : Std.TransOrd DataType where
  eq_swap := by intro a b; cases a <;> cases b <;> rfl
  isLE_trans := by intro a b c; cases a <;> cases b <;> cases c <;> decide

instance : Std.LawfulEqOrd DataType where
  compare_self := by intro a; cases a <;> rfl
  eq_of_compare := by intro a b; cases a <;> cases b <;> decide

/-- `CfgType` -/
inductive CfgType where
  | attribute | channel | pointTable | protocol
  deriving DecidableEq, Ord

instance : Std.TransOrd CfgType where
  eq_swap := by intro a b; cases a <;> cases b <;> rfl
  isLE_trans := by intro a b c; cases a <;> cases b <;> cases c <;> decide

instance : Std.LawfulEqOrd CfgType where
  compare_self := by intro a; cases a <;> rfl
  eq_of_compare := by intro a b; cases a <;> cases b <;> decide

/-- `CTRL_STATUS` -/
inductive CtrlStatus where
  | off | on
  deriving DecidableEq

/-- `FIX_FRAME_VALUE` -/
inductive FixFrameValue where
  | invalid | complete | incomplete
  deriving DecidableEq

/-! ### Numbers -/

def intMin : ℤ := -2147483648
def intMax : ℤ := 2147483647

/-- A sum of `int`s: beyond the range of `int` the language leaves it undefined. -/
def intAdd (a b : ℤ) : Except Fault ℤ :=
  if intMin ≤ a + b ∧ a + b ≤ intMax then .ok (a + b) else .error .undefined

lemma intAdd_eq_ok {a b c : ℤ} :
    intAdd a b = .ok c ↔ intMin ≤ a + b ∧ a + b ≤ intMax ∧ a + b = c := by
  unfold intAdd
  split_ifs with h
  · simp only [Except.ok.injEq]
    exact ⟨fun hc => ⟨h.1, h.2, hc⟩, fun hc => hc.2.2⟩
  · simp only [false_iff]
    exact fun hc => h ⟨hc.1, hc.2.1⟩

/-- The operations on `double` the engine uses, over whatever carries them. -/
class Double (R : Type) where
  ofInt : ℤ → R
  add : R → R → R
  sub : R → R → R
  mul : R → R → R
  div : R → R → R
  neg : R → R
  eq : R → R → Bool
  lt : R → R → Bool
  le : R → R → Bool
  /-- conversion to `int` -/
  toInt : R → ℤ
  /-- conversion to `int64_t` -/
  toInt64 : R → ℤ
  /-- `std::stod` -/
  stod : List Char → Except Fault R
  /-- `std::to_string` -/
  toText : R → String
  /-- how the JSON library writes a number -/
  jsonText : R → String

end DataEngine
