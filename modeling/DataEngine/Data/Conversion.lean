import DataEngine.Data.Substitute

/-!
The text of a point value.

A formula refers to a value through its text: six decimals, from which the parser reads the
number back. A `bool` has a text but no branch among the conversions, so that `true` is put in
as `0.000000`.
-/

namespace DataEngine.DataStorage

open ExpParser Rational

/-- What is relied on of the conversions: a value is given back as its own type. -/
structure GivesBack {R : Type} (lib : Conversions R) : Prop where
  int8 (x : Int8) : lib.asInt8 (.int8 x) = .ok x
  int32 (x : Int32) : lib.asInt (.int32 x) = .ok x
  int64 (x : Int64) : lib.asInt64 (.int64 x) = .ok x
  uint8 (x : UInt8) : lib.asUInt8 (.uint8 x) = .ok x
  uint32 (x : UInt32) : lib.asUInt32 (.uint32 x) = .ok x
  uint64 (x : UInt64) : lib.asUInt64 (.uint64 x) = .ok x
  float (x : R) : lib.asFloat (.float x) = .ok x
  double (x : R) : lib.asDouble (.double x) = .ok x

lemma givesBack_ownType : GivesBack ownType := by
  constructor <;> intro x <;> rfl

/-- The number of a value, `true` being 1 and `false` 0. -/
def ValueWrap.number : ValueWrap ℚ → Option ℚ
  | .int8 x => some x.toInt
  | .int32 x => some x.toInt
  | .int64 x => some x.toInt
  | .uint8 x => some x.toNat
  | .uint32 x => some x.toNat
  | .uint64 x => some x.toNat
  | .float x | .double x => some x
  | .bool b => some b.toNat
  | .string _ | .unknown | .empty => none

/-- Of a known type and no string, and an integer only if a `double` holds it exactly. -/
def Accepted : ValueWrap ℚ → Prop
  | .string _ | .unknown | .empty => False
  | .int64 x => |x.toInt| ≤ 2 ^ 53
  | .uint64 x => x.toNat ≤ 2 ^ 53
  | _ => True

variable {env : Env ℚ} {v : ValueWrap ℚ}

/-- The text of the value is that of its number, and is read as that number again. -/
def Faithful (env : Env ℚ) (v : ValueWrap ℚ) : Prop :=
  ∃ x, v.number = some x ∧ transValueToString env .measure v = .ok (some (fixedText x)) ∧
    ∀ value, calculate (fixedText x).toList value = .ok (rendered x)

lemma transValueToDouble_number (hlib : GivesBack env.lib) (hv : IsNumber v) :
    ∃ x, v.number = some x ∧ transValueToDouble env v = .ok x := by
  cases v with
  | string | bool | unknown | empty => exact absurd hv id
  | int8 x => exact ⟨x.toInt, rfl, by rw [transValueToDouble, hlib.int8]; rfl⟩
  | int32 x => exact ⟨x.toInt, rfl, by rw [transValueToDouble, hlib.int32]; rfl⟩
  | int64 x => exact ⟨x.toInt, rfl, by rw [transValueToDouble, hlib.int64]; rfl⟩
  | uint8 x => exact ⟨x.toNat, rfl, by rw [transValueToDouble, hlib.uint8]; rfl⟩
  | uint32 x => exact ⟨x.toNat, rfl, by rw [transValueToDouble, hlib.uint32]; rfl⟩
  | uint64 x => exact ⟨x.toNat, rfl, by rw [transValueToDouble, hlib.uint64]; rfl⟩
  | float x => exact ⟨x, rfl, by rw [transValueToDouble, hlib.float]⟩
  | double x => exact ⟨x, rfl, by rw [transValueToDouble, hlib.double]⟩

lemma Accepted.cases (h : Accepted v) : IsNumber v ∨ ∃ b, v = .bool b := by
  cases v with
  | string | unknown | empty => exact absurd h id
  | bool b => exact .inr ⟨b, rfl⟩
  | _ => exact .inl trivial

lemma transValueToString_bool (b : Bool) :
    transValueToString env .measure (.bool b) = .ok (some (fixedText 0)) := rfl

/-- One is not written as zero is. -/
lemma fixedText_one_ne_zero : fixedText 1 ≠ fixedText 0 := fun h => by
  have hone := calculate_fixedText 1 0
  rw [h, calculate_fixedText] at hone
  have hrendered : rendered 0 = rendered 1 := Except.ok.inj hone
  have hdist := abs_rendered_sub_le 1
  have hzero := abs_rendered_sub_le 0
  rw [hrendered] at hzero
  rw [abs_le] at hdist hzero
  linarith [hdist.1, hzero.2]

lemma not_faithful_true : ¬ Faithful env (.bool true) := by
  rintro ⟨x, hnumber, htext, -⟩
  obtain rfl : (1 : ℚ) = x := by simpa [ValueWrap.number] using hnumber
  rw [transValueToString_bool] at htext
  exact fixedText_one_ne_zero (Option.some.inj (Except.ok.inj htext)).symm

/-- Of the values accepted only `true` is converted to the text of another number. -/
theorem faithful_iff (hlib : GivesBack env.lib) (hv : Accepted v) :
    Faithful env v ↔ v ≠ .bool true := by
  constructor
  · rintro h rfl
    exact not_faithful_true h
  · intro hne
    rcases hv.cases with hnum | ⟨b, rfl⟩
    · obtain ⟨x, hnumber, hx⟩ := transValueToDouble_number hlib hnum
      exact ⟨x, hnumber, transValueToString_number hnum hx, calculate_fixedText x⟩
    · obtain rfl : b = false := by simpa using hne
      exact ⟨0, rfl, transValueToString_bool false, calculate_fixedText 0⟩

theorem minus_two_faithful : Faithful ownEnv (.int8 (-2)) :=
  (faithful_iff (v := .int8 (-2)) givesBack_ownType trivial).mpr (by simp)

/-- `true` is put in as `0.000000`. -/
theorem true_lost : ¬ ∀ env : Env ℚ, GivesBack env.lib → ∀ v, Accepted v → Faithful env v :=
  fun h => not_faithful_true (h ownEnv givesBack_ownType (.bool true) trivial)

end DataEngine.DataStorage
