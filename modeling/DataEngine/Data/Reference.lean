import DataEngine.Data.Transmit
import DataEngine.Tool.Printed
import DataEngine.Tool.Replace

/-!
The references of a formula, and how the calculation of one ends.

Looking up a point leaves the points as they are, so what a reference is replaced by is told by
the values of the points alone.
-/

namespace DataEngine.DataStorage

open Json ConfigParse ExpParser Tool Lib.Effect

variable {R : Type} [Double R]

variable (env : Env R) (s : Store R) (type : DataType)

/-- What `reference` answers, by the values of the points. -/
def answer (src : List Char) : Except Fault (List Char) :=
  match splitStr '#' src with
  | devName :: point :: _ => do
    let pointId ← stoi point
    match cells s (String.ofList devName, type, pointId) with
    | none => .ok []
    | some value => (fun dst => (dst.getD "").toList) <$> transValueToString env type value
  | _ => .error .undefined

lemma exec_reference (src : List Char) :
    ∃ t, Same s t ∧ exec (reference env type src) s = (answer env s type src, t) := by
  unfold reference answer
  rcases splitStr '#' src with _ | ⟨devName, _ | ⟨point, rest⟩⟩
  · exact ⟨s, .refl s, rfl⟩
  · exact ⟨s, .refl s, rfl⟩
  simp only
  rcases stoi point with e | pointId
  · exact ⟨s, .refl s, rfl⟩
  obtain ⟨t, ht, hget⟩ := getValue_spec s (String.ofList devName) type pointId
  refine ⟨t, ht, ?_⟩
  rw [exec_of_bind]
  simp only
  rw [exec_bind_ok hget]
  simp only [bind, Except.bind]
  rcases cells s (String.ofList devName, type, pointId) with _ | value
  · rfl
  · simp only
    rcases transValueToString env type value with e | dst <;> rfl

lemma answer_same {s t : Store R} (h : Same s t) (src : List Char) :
    answer env t type src = answer env s type src := by
  unfold answer
  rw [h.cells]

/-- The callback answers the same wherever the points are the same. -/
lemma reference_spec (src : List Char) (t : Store R) (h : Same s t) :
    (exec (reference env type src) t).1 = answer env s type src ∧
      Same s (exec (reference env type src) t).2 := by
  obtain ⟨u, hu, hexec⟩ := exec_reference env t type src
  rw [hexec]
  exact ⟨answer_same env type h src, h.trans hu⟩

lemma toString_open (n : ℕ) : '<' ∉ (toString n).toList := by
  intro h
  have hdigit : ('<' : Char).isDigit = true := by
    refine Nat.isDigit_of_mem_toDigits (b := 10) (n := n) (by decide) (by decide) ?_
    simpa [toString, Nat.repr] using h
  simp at hdigit

lemma transValueToString_open (hp : Printing R) {value : ValueWrap R} {dst : Option String}
    (h : transValueToString env type value = .ok dst) : '<' ∉ (dst.getD "").toList := by
  have hmeasure {x : Except Fault R} (h : (fun x => some (Double.toText x)) <$> x = .ok dst) :
      '<' ∉ (dst.getD "").toList := by
    rcases x with e | x
    · simp at h
    · obtain rfl := Except.ok.inj h
      exact hp.toText_open x
  have hsignal {x : Except Fault UInt8} (h : (fun x => some (toString x.toNat)) <$> x = .ok dst) :
      '<' ∉ (dst.getD "").toList := by
    rcases x with e | x
    · simp at h
    · obtain rfl := Except.ok.inj h
      exact toString_open x.toNat
  unfold transValueToString at h
  split at h
  case h_3 => exact hmeasure h
  case h_4 | h_5 | h_6 | h_7 => exact hsignal h
  all_goals
    obtain rfl := Except.ok.inj h
    simp

lemma answer_open (hp : Printing R) {src dst : List Char} (h : answer env s type src = .ok dst) :
    '<' ∉ dst := by
  unfold answer at h
  split at h
  · obtain ⟨pointId, -, h⟩ := bind_eq_ok.mp h
    split at h
    · obtain rfl := Except.ok.inj h
      simp
    · rename_i value _
      rcases hv : transValueToString env type value with e | dst'
      · simp [hv] at h
      · rw [hv] at h
        obtain rfl := Except.ok.inj h
        exact transValueToString_open env type hp hv
  · simp at h

/-- What is between the delimiters can be looked up: there are two parts, the second is an index,
and the value found, if there is one, converts. -/
def WellFormed (src : List Char) : Prop :=
  ∃ devName point rest pointId, splitStr '#' src = devName :: point :: rest ∧
    stoi point = .ok pointId ∧
    ∀ value, cells s (String.ofList devName, type, pointId) = some value →
      ∃ dst, transValueToString env type value = .ok dst

lemma wellFormed_iff (src : List Char) :
    WellFormed env s type src ↔ ∃ dst, answer env s type src = .ok dst := by
  unfold WellFormed answer
  rcases splitStr '#' src with _ | ⟨devName, _ | ⟨point, rest⟩⟩
  · simp
  · simp
  rcases hstoi : stoi point with e | pointId
  · simp [hstoi, bind, Except.bind]
  rcases hc : cells s (String.ofList devName, type, pointId) with _ | value
  · simp [hstoi, hc, bind, Except.bind]
  rcases hv : transValueToString env type value with e | dst
  · simp [hstoi, hc, hv, bind, Except.bind]
  · simp [hstoi, hc, hv, bind, Except.bind]

/-! ### The calculation -/

variable {env s type}

/-- What is left of the formula once its references are replaced. -/
abbrev Left (env : Env R) (s : Store R) (type : DataType) (expr : List Char) :
    Except Fault (List Char) → Prop := Replaced (answer env s type) expr

/-- `getExprValue` replaces the references and then calculates. -/
lemma exec_getExprValue (hp : Printing R) (expr : String) (data : ValueWrap R) :
    ∃ left, Left env s type expr.toList left ∧
      (exec (getExprValue env type expr data) s).1 =
        left >>= fun formula => some <$> computed env type formula data := by
  have hleft : Left env s type expr.toList
      (exec (replaceRangeStr '<' '>' (reference env type) expr.toList) s).1 :=
    (replaceRangeStr_spec (I := Same s) (reference_spec env s type)
      (fun _ _ h => answer_open env s type hp h) (Same.refl s)).1
  refine ⟨_, hleft, ?_⟩
  unfold getExprValue
  rcases he : exec (replaceRangeStr '<' '>' (reference env type) expr.toList) s with
    ⟨e | formula, t⟩
  · rw [exec_bind_error he]
    rfl
  · rw [exec_bind_ok he, map_eq_pure_bind, exec_of_bind]
    simp only [bind, Except.bind]
    rcases computed env type formula data with e | d <;> rfl

lemma computed_raised {formula : List Char} {f : Fault}
    (h : lexeme formula (env.unset formula) = .error f) (data : ValueWrap R) :
    computed env type formula data = .error f := by
  have hparser := parser_eq formula (env.unset formula)
  rw [h] at hparser
  have hparser : parser formula (env.unset formula) = .error f := hparser
  have hcalculate : calculate formula (env.unset formula) = .error f := by
    rw [calculate, hparser]
    rfl
  cases type <;> simp only [computed, hparser, hcalculate] <;> rfl

variable (type) in
/-- Once the first token is read, the call returns. -/
lemma computed_answers (hp : Printing R) {formula : List Char} {x : Lexeme R}
    (h : lexeme formula (env.unset formula) = .ok x) (data : ValueWrap R) :
    ∃ d, computed env type formula data = .ok d := by
  have hparser := parser_eq formula (env.unset formula)
  obtain ⟨-, r, -, -, hcalculate⟩ := calculate_answers hp.stod_fault h
  rw [h] at hparser
  obtain ⟨p, -, hp⟩ := hparser
  cases type <;> simp only [computed, hp, hcalculate] <;> exact ⟨_, rfl⟩

/-! ### What is contained -/

/-- The formula can be read: every piece handed over is well-formed, and what is left begins
with a token. -/
structure Readable (env : Env R) (s : Store R) (type : DataType) (expr : List Char) : Prop where
  pieces : ∀ src, Handed (answer env s type) expr src → WellFormed env s type src
  token : ∀ formula, Left env s type expr (.ok formula) →
    ∃ x, lexeme formula (env.unset formula) = .ok x

/-- The call returns: the callback finds what it reads, and no exception comes out of it or of the
parser. -/
def Contained (r : Except Fault (Option (ValueWrap R))) : Prop := ∃ v, r = .ok v

/-- What is left, by the pieces handed over. -/
lemma Left.pieces_iff {expr : List Char} {left : Except Fault (List Char)}
    (h : Left env s type expr left) :
    (∀ src, Handed (answer env s type) expr src → WellFormed env s type src) ↔
      ∃ formula, left = .ok formula := by
  constructor
  · intro hall
    rcases left with f | formula
    · obtain ⟨src, hsrc, he⟩ := (h.error_iff f).mp rfl
      obtain ⟨dst, hd⟩ := (wellFormed_iff env s type src).mp (hall src hsrc)
      simp [he] at hd
    · exact ⟨formula, rfl⟩
  · rintro ⟨formula, rfl⟩ src hsrc
    refine (wellFormed_iff env s type src).mpr ?_
    rcases ha : answer env s type src with f | dst
    · simpa using (h.error_iff f).mpr ⟨src, hsrc, ha⟩
    · exact ⟨dst, rfl⟩

lemma contained_getExprValue (hp : Printing R) (expr : String) (data : ValueWrap R) :
    Contained (exec (getExprValue env type expr data) s).1 ↔ Readable env s type expr.toList := by
  obtain ⟨left, hleft, hexec⟩ :
      ∃ left, Left env s type expr.toList left ∧ _ := exec_getExprValue hp expr data
  rw [hexec]
  rcases left with f | formula
  · refine iff_of_false (fun ⟨v, hv⟩ => by cases hv) fun h => ?_
    obtain ⟨formula, hf⟩ := hleft.pieces_iff.mp h.pieces
    cases hf
  have hpieces := hleft.pieces_iff.mpr ⟨formula, rfl⟩
  have hbind : (Except.ok formula >>= fun formula => some <$> computed env type formula data) =
      some <$> computed env type formula data := rfl
  rw [hbind]
  rcases hl : lexeme formula (env.unset formula) with f | x
  · rw [computed_raised hl]
    refine iff_of_false (fun ⟨v, hv⟩ => by cases hv) fun h => ?_
    obtain ⟨x, hx⟩ := h.token formula hleft
    cases hl.symm.trans hx
  · obtain ⟨d, hd⟩ := computed_answers type hp hl data
    rw [hd]
    refine iff_of_true ⟨some d, rfl⟩ ⟨hpieces, fun formula' h' => ?_⟩
    obtain rfl := Except.ok.inj (hleft.unique h')
    exact ⟨x, hl⟩

/-- `getCompositeValue` calculates the formula it looks up. -/
lemma exec_getCompositeValue (pointId : ℤ) (data : ValueWrap R) :
    (exec (getCompositeValue env type pointId data) s).1 =
      match compositeFormula env type pointId with
      | .error f => .error f
      | .ok none => .ok none
      | .ok (some expr) => (exec (getExprValue env type expr data) s).1 := by
  unfold getCompositeValue
  rw [exec_of_bind]
  rcases compositeFormula env type pointId with f | _ | expr <;> rfl

/-- **Containment**: the calls return for the formulas that can be read, and for no other; of a
composite point the formula has to be found, moreover. -/
theorem contained_iff (hp : Printing R) (env : Env R) (s : Store R) (type : DataType) :
    (∀ expr data, Contained (exec (getExprValue env type expr data) s).1 ↔
      Readable env s type expr.toList) ∧
    ∀ pointId data, Contained (exec (getCompositeValue env type pointId data) s).1 ↔
      ∃ found, compositeFormula env type pointId = .ok found ∧
        ∀ expr ∈ found, Readable env s type expr.toList := by
  refine ⟨contained_getExprValue hp, fun pointId data => ?_⟩
  rw [exec_getCompositeValue]
  rcases compositeFormula env type pointId with f | _ | expr
  · exact iff_of_false (fun ⟨v, hv⟩ => by cases hv) fun ⟨found, hfound, _⟩ => by cases hfound
  · exact iff_of_true ⟨none, rfl⟩ ⟨none, rfl, by simp⟩
  · simpa using contained_getExprValue hp expr data

/-- Conversions of a value to its own type, and no configuration. -/
def ownEnv : Env ℚ := ⟨ConfigParse.empty, ownType, fun _ => 0⟩

/-- A device with one measured point. -/
def fivePoint : Store ℚ := setSlot ∅ "D" .measure ⟨[.double 5], by simp [intMax]⟩

theorem contained_iff_number :
    Contained (exec (getExprValue ownEnv .measure "7" .unknown) fivePoint).1 := by
  refine ((contained_iff printing_rational ownEnv fivePoint .measure).1 "7" .unknown).mpr ?_
  have hno : ¬ Ranged "7".toList := not_ranged (by decide)
  refine ⟨fun src hsrc => ?_, fun formula hleft => ?_⟩
  · cases hsrc with
    | now h | later h => exact absurd ⟨_, _, _, h⟩ hno
  · obtain rfl := Except.ok.inj (hleft.unique (.done hno))
    exact ⟨⟨⟨'n', 7⟩, ['7']⟩, by decide +kernel⟩

/-- The constructor reads the first token, and nothing catches what that throws. -/
theorem lone_equals_escapes :
    ¬ ∀ expr, Contained (exec (getExprValue ownEnv .measure expr .unknown) fivePoint).1 := by
  intro h
  have hraised : (exec (getExprValue ownEnv .measure "=1" .unknown) fivePoint).1 =
      .error .runtimeError := by decide +kernel
  obtain ⟨v, hv⟩ := h "=1"
  cases hraised.symm.trans hv

/-! ### What the status says -/

/-- The text a reference stands for, if its point has a value and the value has a text. -/
def resolve (env : Env R) (s : Store R) (type : DataType) (src : List Char) :
    Except Unit (List Char) :=
  match splitStr '#' src with
  | devName :: point :: _ =>
    match stoi point with
    | .error _ => .error ()
    | .ok pointId =>
      match cells s (String.ofList devName, type, pointId) with
      | none => .error ()
      | some value =>
        match transValueToString env type value with
        | .ok (some dst) => .ok dst.toList
        | _ => .error ()
  | _ => .error ()

lemma answer_of_resolve {src dst : List Char} (h : resolve env s type src = .ok dst) :
    answer env s type src = .ok dst := by
  revert h
  unfold resolve answer
  rcases splitStr '#' src with _ | ⟨devName, _ | ⟨point, rest⟩⟩
  · simp
  · simp
  simp only [bind, Except.bind]
  rcases stoi point with e | pointId
  · simp
  simp only
  rcases cells s (String.ofList devName, type, pointId) with _ | value
  · simp
  simp only
  rcases transValueToString env type value with e | _ | dst'
  · simp
  · simp
  · intro h
    obtain rfl := Except.ok.inj h
    rfl

/-- Every reference of the formula resolves, and what it then reads has the value `v`, whatever is
in the parser's member at first. -/
def Evaluated (env : Env R) (s : Store R) (type : DataType) (expr : List Char) (v : R) : Prop :=
  ∃ formula, Replaced (resolve env s type) expr (.ok formula) ∧
    ∀ value, ∃ e : Formula R, Denotes formula value e ∧ eval e = some v

/-- The type is one that is calculated, and holds the value `x`: a `double` does, a `uint8_t` if
`x` comes back when converted to it. -/
def CanHold (type : DataType) (x : R) : Prop :=
  match type with
  | .measure => True
  | .signal => Double.ofInt (Double.toInt64 x % 256) = x
  | _ => False

/-- A `uint8_t` holds the whole numbers from 0 to 255. -/
lemma canHold_signal_iff (x : ℚ) : CanHold .signal x ↔ ∃ n : UInt8, x = n.toNat := by
  constructor
  · intro h
    refine ⟨.ofNat (Double.toInt64 x % 256).toNat, ?_⟩
    have hlow : ((Double.toInt64 x % 256).toNat % 2 ^ 8 : ℤ) = Double.toInt64 x % 256 := by omega
    rw [UInt8.toNat_ofNat', ← Int.cast_natCast, Int.natCast_mod]
    exact h.symm.trans (congrArg _ hlow.symm)
  · rintro ⟨n, rfl⟩
    have hn := n.toNat_lt
    have hint : Double.toInt64 (n.toNat : ℚ) = n.toNat := by
      have hfloor : ⌊(n.toNat : ℚ)⌋ = n.toNat := Int.floor_natCast _
      show Rational.truncTo _ _ _ = _
      simp only [Rational.truncTo, Nat.cast_nonneg, if_true, hfloor]
      exact if_pos (by omega)
    show Double.ofInt (Double.toInt64 (n.toNat : ℚ) % 256) = (n.toNat : ℚ)
    rw [hint, Int.emod_eq_of_lt (by omega) (by omega)]
    exact Int.cast_natCast _

/-- What is assigned is the value `x`. -/
def IsValue (type : DataType) (x : R) (data : ValueWrap R) : Prop :=
  match type with
  | .measure => data = .double x
  | .signal => ∃ n : UInt8, data = .uint8 n ∧ Double.ofInt n.toNat = x
  | _ => False

/-- `true` is returned, and the value assigned, exactly if the formula has one; an exception is no
status, and nothing undefined is done. -/
def Honest (env : Env R) (s : Store R) (type : DataType) (expr : List Char) :
    Except Fault (Option (ValueWrap R)) → Prop
  | .ok (some data) => ∃ v, Evaluated env s type expr v ∧ IsValue type v data
  | .ok none => ¬ ∃ v, Evaluated env s type expr v
  | .error f => f ≠ .undefined ∧ ¬ ∃ v, Evaluated env s type expr v

/-- An exception comes out: a piece handed over has an index that is none or a value that does
not convert, or what is left does not begin with a token. -/
def Raises (env : Env R) (s : Store R) (type : DataType) (expr : List Char) : Prop :=
  (∃ src f, Handed (answer env s type) expr src ∧ answer env s type src = .error f ∧
      f ≠ .undefined) ∨
    ∃ formula f, Left env s type expr (.ok formula) ∧
      lexeme formula (env.unset formula) = .error f

/-- A formula that has a value is left as the text that has it. -/
lemma Evaluated.accepted {expr : List Char} {v : R} (h : Evaluated env s type expr v) :
    ∃ formula, Left env s type expr (.ok formula) ∧ ∀ value, Accepted formula value v := by
  obtain ⟨formula, hr, hvalue⟩ := h
  exact ⟨formula, hr.congr fun _ _ => answer_of_resolve,
    fun value => accepted_iff.mpr (hvalue value)⟩

/-- A formula whose calculation raises has no value. -/
lemma not_evaluated_of_raised {expr : List Char} {f : Fault}
    (h : Left env s type expr (.error f)) : ¬ ∃ v, Evaluated env s type expr v := by
  rintro ⟨v, hv⟩
  obtain ⟨formula, hleft, -⟩ := hv.accepted
  simpa using h.unique hleft

/-- What is left is what has the value. -/
lemma evaluated_accepted {expr formula : List Char} {v : R}
    (h : Left env s type expr (.ok formula)) (hv : Evaluated env s type expr v) (value : R) :
    Accepted formula value v := by
  obtain ⟨formula', hleft, hacc⟩ := hv.accepted
  obtain rfl := Except.ok.inj (h.unique hleft)
  exact hacc value

variable (type) in
/-- What is assigned of a formula that has a value is the value if the type holds it. -/
lemma isValue_computed {formula : List Char} {v : R} (h : Accepted formula (env.unset formula) v)
    (data : ValueWrap R) :
    ∃ d, computed env type formula data = .ok d ∧ (IsValue type v d ↔ CanHold type v) := by
  have hparser := parser_eq formula (env.unset formula)
  obtain ⟨x, hx⟩ := h.lexeme
  rw [hx] at hparser
  obtain ⟨p, -, hp⟩ := hparser
  have hcalculate := h.calculate
  cases type with
  | measure => exact ⟨.double v, by rw [computed, hcalculate]; rfl, by simp [IsValue, CanHold]⟩
  | signal =>
    refine ⟨.uint8 (.ofNat (Double.toInt64 v % 256).toNat), by rw [computed, hcalculate]; rfl, ?_⟩
    have hlow : ((UInt8.ofNat (Double.toInt64 v % 256).toNat).toNat : ℤ) =
        Double.toInt64 v % 256 := by
      rw [UInt8.toNat_ofNat']
      omega
    simp only [IsValue, CanHold, ValueWrap.uint8.injEq, exists_eq_left', hlow]
  | pulse | control | param | unknown => exact ⟨data, by simp only [computed, hp]; rfl, Iff.rfl⟩

/-- Once the first token is read, the status is honest for a value that the type holds. -/
lemma honest_computed (hp : Printing R) {expr formula : List Char}
    (h : Left env s type expr (.ok formula)) {x : Lexeme R}
    (hx : lexeme formula (env.unset formula) = .ok x) (data : ValueWrap R) :
    Honest env s type expr (some <$> computed env type formula data) ↔
      ∃ v, Evaluated env s type expr v ∧ CanHold type v := by
  constructor
  · intro hh
    obtain ⟨d, hd⟩ := computed_answers type hp hx data
    rw [hd] at hh
    obtain ⟨v, hv, hvalue⟩ := hh
    obtain ⟨d', hd', hiff⟩ := isValue_computed type
      (evaluated_accepted h hv (env.unset formula)) data
    obtain rfl := Except.ok.inj (hd.symm.trans hd')
    exact ⟨v, hv, hiff.mp hvalue⟩
  · rintro ⟨v, hv, hhold⟩
    obtain ⟨d, hd, hiff⟩ := isValue_computed type
      (evaluated_accepted h hv (env.unset formula)) data
    rw [hd]
    exact ⟨v, hv, hiff.mpr hhold⟩

lemma honest_getExprValue (hp : Printing R) (expr : String) (data : ValueWrap R) :
    Honest env s type expr.toList (exec (getExprValue env type expr data) s).1 ↔
      (∃ v, Evaluated env s type expr.toList v ∧ CanHold type v) ∨
        Raises env s type expr.toList := by
  obtain ⟨left, hleft, hexec⟩ :
      ∃ left, Left env s type expr.toList left ∧ _ := exec_getExprValue hp expr data
  rw [hexec]
  rcases left with f | formula
  · have hno := not_evaluated_of_raised hleft
    have hraises : Raises env s type expr.toList ↔ f ≠ .undefined := by
      constructor
      · rintro (⟨src, f', hsrc, ha, hne⟩ | ⟨formula, f', hl, -⟩)
        · obtain rfl := Except.error.inj ((hleft.error_iff f').mpr ⟨src, hsrc, ha⟩)
          exact hne
        · simpa using hleft.unique hl
      · intro hne
        obtain ⟨src, hsrc, ha⟩ := (hleft.error_iff f).mp rfl
        exact .inl ⟨src, f, hsrc, ha, hne⟩
    rw [hraises]
    constructor
    · exact fun hh => .inr hh.1
    · rintro (⟨v, hv, -⟩ | hne)
      · exact absurd ⟨v, hv⟩ hno
      · exact ⟨hne, hno⟩
  have hbind : (Except.ok formula >>= fun formula => some <$> computed env type formula data) =
      some <$> computed env type formula data := rfl
  rw [hbind]
  rcases hl : lexeme formula (env.unset formula) with f | x
  · have hno : ¬ ∃ v, Evaluated env s type expr.toList v := by
      rintro ⟨v, hv⟩
      obtain ⟨x, hx⟩ := (evaluated_accepted hleft hv (env.unset formula)).lexeme
      cases hl.symm.trans hx
    rw [computed_raised hl]
    exact iff_of_true ⟨lexeme_fault hp.stod_fault hl, hno⟩ (.inr (.inr ⟨formula, f, hleft, hl⟩))
  · have hraises : ¬ Raises env s type expr.toList := by
      rintro (⟨src, f', hsrc, ha, hne⟩ | ⟨formula', f', hl', hf'⟩)
      · simpa using (hleft.error_iff f').mpr ⟨src, hsrc, ha⟩
      · obtain rfl := Except.ok.inj (hleft.unique hl')
        cases hl.symm.trans hf'
    rw [or_iff_left hraises]
    exact honest_computed hp hleft hl data

/-- **Status**: what the calls report is honest exactly if the formula has a value that the type
holds, or if an exception comes out. -/
theorem honest_iff (hp : Printing R) (env : Env R) (s : Store R) (type : DataType) (expr : String)
    (data : ValueWrap R) :
    (Honest env s type expr.toList (exec (getExprValue env type expr data) s).1 ↔
      (∃ v, Evaluated env s type expr.toList v ∧ CanHold type v) ∨
        Raises env s type expr.toList) ∧
    ∀ pointId, compositeFormula env type pointId = .ok (some expr) →
      (Honest env s type expr.toList (exec (getCompositeValue env type pointId data) s).1 ↔
        (∃ v, Evaluated env s type expr.toList v ∧ CanHold type v) ∨
          Raises env s type expr.toList) := by
  refine ⟨honest_getExprValue hp expr data, fun pointId hfound => ?_⟩
  rw [exec_getCompositeValue, hfound]
  exact honest_getExprValue hp expr data

theorem honest_iff_number :
    Honest ownEnv fivePoint .measure "7".toList
      (exec (getExprValue ownEnv .measure "7" .unknown) fivePoint).1 := by
  refine (honest_iff printing_rational ownEnv fivePoint .measure "7" .unknown).1.mpr
    (.inl ⟨7, ⟨['7'], .done (not_ranged (by decide)), fun value => ?_⟩, trivial⟩)
  let seven : Literal := ⟨['7'], by decide⟩
  have htext : IsText Literal.text (.leaf seven) ['7'] :=
    ⟨_, phrase_leaf seven le_rfl, by simpa [Word.text] using Spaced.flatten [['7']]⟩
  exact ⟨_, htext.denotes (fun l _ => l.stod_value) value, by decide +kernel⟩

/-- A division by zero is reported as the value `0`. -/
theorem division_by_zero_reported :
    ¬ Honest ownEnv fivePoint .measure "1/0".toList
      (exec (getExprValue ownEnv .measure "1/0" .unknown) fivePoint).1 := by
  have hzero : (exec (getExprValue ownEnv .measure "1/0" .unknown) fivePoint).1 =
      .ok (some (.double 0)) := by decide +kernel
  rw [hzero]
  rintro ⟨v, hv, -⟩
  obtain ⟨formula, hleft, hacc⟩ := hv.accepted
  obtain ⟨p, hp, hacc⟩ := hacc 0
  obtain rfl := Except.ok.inj (hleft.unique (.done (not_ranged (by decide))))
  obtain rfl : (construct "1/0".toList (0 : ℚ)).2 = p := by rw [hp]
  have herror : (exec (parseAll ("1/0".toList.length + 2)) (construct "1/0".toList (0 : ℚ)).2).1 =
      .error (.fault .runtimeError) := by decide +kernel
  cases herror.symm.trans hacc

end DataEngine.DataStorage
