import DataEngine.Data.PointMap

/-!
Several transmit points at once.

The loop adds its counter to the base it has already advanced, so the ids it looks up are
apart by 0, 1, 2 and so on. Looking up a point changes nothing that a later one sees.
-/

namespace DataEngine.DataStorage

open Json ConfigParse ExpParser Lib.Effect

variable {R : Type}

/-! ### Programs that only read -/

/-- The program answers by the points alone and leaves them as they are. -/
structure ReadsOnly {α : Type} (m : StoreM R α) : Prop where
  respects : Respects Same m
  same (s : Store R) : Same s (exec m s).2

namespace ReadsOnly

variable {α β : Type}

lemma of (x : Except Fault α) : ReadsOnly (Prog.of x : StoreM R α) :=
  ⟨.of x, fun s => .refl s⟩

lemma pure (a : α) : ReadsOnly (Pure.pure a : StoreM R α) := ⟨.pure a, fun s => .refl s⟩

lemma throw (e : Fault) : ReadsOnly (MonadExcept.throw e : StoreM R α) :=
  ⟨.throw e, fun s => .refl s⟩

lemma bind {m : StoreM R α} {f : α → StoreM R β} (hm : ReadsOnly m)
    (hf : ∀ a, ReadsOnly (f a)) : ReadsOnly (m >>= f) := by
  refine ⟨hm.respects.bind fun a => (hf a).respects, fun s => ?_⟩
  have hs := hm.same s
  rcases he : exec m s with ⟨e | a, t⟩
  · rw [exec_bind_error he]
    rwa [he] at hs
  · rw [exec_bind_ok he]
    rw [he] at hs
    exact hs.trans ((hf a).same t)

end ReadsOnly

lemma getValue_readsOnly (name : String) (type : DataType) (i : ℤ) :
    ReadsOnly (getValue name type i : StoreM R (Option (ValueWrap R))) := by
  refine ⟨fun s t hst => ?_, fun s => ?_⟩
  · obtain ⟨s', hs', hes⟩ := getValue_spec s name type i
    obtain ⟨t', ht', het⟩ := getValue_spec t name type i
    rw [hes, het, hst.cells]
    exact ⟨rfl, hs'.symm.trans (hst.trans ht')⟩
  · obtain ⟨s', hs', hes⟩ := getValue_spec s name type i
    rw [hes]
    exact hs'

lemma replaceLoop_readsOnly {first last : Char} {func : List Char → StoreM R (List Char)}
    (hf : ∀ str, ReadsOnly (func str)) (n : ℕ) (str : List Char) :
    ReadsOnly (replaceLoop first last func n str) := by
  induction n generalizing str with
  | zero => exact .pure str
  | succ n ih =>
    unfold replaceLoop
    split
    · exact .pure str
    · split
      · exact .pure str
      · exact (hf _).bind fun dst => ih _

variable [Double R] (env : Env R)

lemma reference_readsOnly (type : DataType) (str : List Char) :
    ReadsOnly (reference env type str) := by
  unfold reference
  split
  · refine .bind (.of _) fun pointId => (getValue_readsOnly ..).bind fun value => ?_
    cases value with
    | none => exact .pure _
    | some value => exact .bind (.of _) fun dst => .pure _
  · exact .throw _

lemma getExprValue_readsOnly (type : DataType) (expr : String) (data : ValueWrap R) :
    ReadsOnly (getExprValue env type expr data) := by
  unfold getExprValue
  refine (replaceLoop_readsOnly (reference_readsOnly env type) _ _).bind fun formula => ?_
  rw [map_eq_pure_bind]
  exact .bind (.of _) fun x => .pure _

lemma getDotValue_readsOnly (type : DataType) (devName : String) (pointId : ℤ)
    (data : ValueWrap R) : ReadsOnly (getDotValue env type devName pointId data) := by
  unfold getDotValue getCompositeValue
  split_ifs
  · refine .bind (.of _) fun formula => ?_
    cases formula with
    | none => exact .pure none
    | some formula => exact getExprValue_readsOnly env type formula data
  · exact getValue_readsOnly devName type pointId

lemma getTransValue_readsOnly (name : String) (type : DataType) (transId : ℤ)
    (data : ValueWrap R) : ReadsOnly (getTransValue env name type transId data) := by
  unfold getTransValue
  cases typeName type with
  | none => exact .pure none
  | some strType =>
    refine .bind (.of _) fun dot => ?_
    cases dot with
    | none => exact .pure none
    | some dot => exact getDotValue_readsOnly env type dot.1 dot.2 data

/-! ### The ids looked up -/

section Visits

omit [Double R]

/-- What the loop answers, given what it finds at an id. -/
def visits (found : ℤ → Except Fault (Option (ValueWrap R))) :
    ℕ → ℤ → ℤ → List (ValueWrap R) → Except Fault (Bool × List (ValueWrap R))
  | 0, _, _, out => .ok (true, out)
  | n + 1, i, transId, out => do
    let transId ← intAdd transId i
    match ← found transId with
    | none => .ok (false, out)
    | some data => visits found n (i + 1) transId (out ++ [data])

/-- The id of the pass after `k` others, from a counter and a base on. -/
def visitedFrom : ℤ → ℤ → ℕ → ℤ
  | i, transId, 0 => transId + i
  | i, transId, k + 1 => visitedFrom (i + 1) (transId + i) k

/-- The id the pass `k` looks up. -/
def visited (transId : ℤ) (k : ℕ) : ℤ := transId + k * (k + 1) / 2

lemma visitedFrom_eq (i transId : ℤ) (k : ℕ) :
    visitedFrom i transId k = transId + (k + 1) * i + k * (k + 1) / 2 := by
  induction k generalizing i transId with
  | zero => simp [visitedFrom]
  | succ k ih =>
    rw [visitedFrom, ih]
    have hsum : ((k + 1 : ℕ) : ℤ) * ((k + 1 : ℕ) + 1) = k * (k + 1) + 2 * (k + 1) := by
      push_cast
      ring
    rw [hsum, Int.add_mul_ediv_left _ _ (by decide)]
    push_cast
    ring

lemma visitedFrom_zero (transId : ℤ) (k : ℕ) : visitedFrom 0 transId k = visited transId k := by
  rw [visitedFrom_eq, visited]
  ring_nf

def IsInt (x : ℤ) : Prop := intMin ≤ x ∧ x ≤ intMax

variable {found : ℤ → Except Fault (Option (ValueWrap R))}

/-- One pass of the loop that returns. -/
lemma visits_succ_eq_ok {n : ℕ} {i transId : ℤ} {out : List (ValueWrap R)}
    {r : Bool × List (ValueWrap R)} : visits found (n + 1) i transId out = .ok r ↔
      IsInt (transId + i) ∧ ((found (transId + i) = .ok none ∧ (false, out) = r) ∨
        ∃ v, found (transId + i) = .ok (some v) ∧
          visits found n (i + 1) (transId + i) (out ++ [v]) = .ok r) := by
  rw [visits, bind_eq_ok]
  constructor
  · rintro ⟨t, ht, h⟩
    obtain ⟨hmin, hmax, rfl⟩ := intAdd_eq_ok.mp ht
    obtain ⟨x, hx, h⟩ := bind_eq_ok.mp h
    refine ⟨⟨hmin, hmax⟩, ?_⟩
    cases x with
    | none => exact .inl ⟨hx, Except.ok.inj h⟩
    | some v => exact .inr ⟨v, hx, h⟩
  · rintro ⟨⟨hmin, hmax⟩, h⟩
    refine ⟨transId + i, intAdd_eq_ok.mpr ⟨hmin, hmax, rfl⟩, bind_eq_ok.mpr ?_⟩
    rcases h with ⟨hnone, rfl⟩ | ⟨v, hv, h⟩
    · exact ⟨none, hnone, rfl⟩
    · exact ⟨some v, hv, h⟩

/-- The loop answers `true` with the values found at the ids, if there is one at each. -/
lemma visits_true (n : ℕ) (i transId : ℤ) (out out' : List (ValueWrap R)) :
    visits found n i transId out = .ok (true, out') ↔
      ∃ new, out' = out ++ new ∧ (∀ k < n, IsInt (visitedFrom i transId k)) ∧
        new.map (fun v => .ok (some v)) =
          (List.range n).map fun k => found (visitedFrom i transId k) := by
  induction n generalizing i transId out with
  | zero =>
    constructor
    · intro h
      obtain rfl : out = out' := by simpa [visits] using h
      exact ⟨[], by simp⟩
    · rintro ⟨new, rfl, -, hmap⟩
      obtain rfl : new = [] := by simpa using hmap
      simp [visits]
  | succ n ih =>
    rw [visits_succ_eq_ok, List.range_succ_eq_map, List.map_cons, List.map_map]
    constructor
    · rintro ⟨hfirst, ⟨-, h⟩ | ⟨v, hv, h⟩⟩
      · cases h
      obtain ⟨new, rfl, hint, hmap⟩ := (ih (i + 1) (transId + i) (out ++ [v])).mp h
      refine ⟨v :: new, by simp, fun k hk => ?_, ?_⟩
      · cases k with
        | zero => exact hfirst
        | succ k => exact hint k (by omega)
      · rw [List.map_cons, hmap]
        congr 1
        exact hv.symm
    · rintro ⟨new, rfl, hint, hmap⟩
      cases new with
      | nil => simp at hmap
      | cons v new =>
        obtain ⟨hv, hmap⟩ := List.cons.inj hmap
        refine ⟨hint 0 (by omega), .inr ⟨v, hv.symm, ?_⟩⟩
        refine (ih (i + 1) (transId + i) (out ++ [v])).mpr ⟨new, by simp, fun k hk => ?_, hmap⟩
        exact hint (k + 1) (by omega)

/-- The loop answers `false` at the first id without a value. -/
lemma visits_false (n : ℕ) (i transId : ℤ) (out : List (ValueWrap R)) :
    (∃ out', visits found n i transId out = .ok (false, out')) ↔
      ∃ k < n, (∀ j ≤ k, IsInt (visitedFrom i transId j)) ∧
        (∀ j < k, ∃ v, found (visitedFrom i transId j) = .ok (some v)) ∧
        found (visitedFrom i transId k) = .ok none := by
  induction n generalizing i transId out with
  | zero => simp [visits]
  | succ n ih =>
    simp only [visits_succ_eq_ok]
    constructor
    · rintro ⟨out', hfirst, ⟨hnone, -⟩ | ⟨v, hv, h⟩⟩
      · refine ⟨0, by omega, fun j hj => ?_, by simp, hnone⟩
        obtain rfl : j = 0 := by omega
        exact hfirst
      · obtain ⟨k, hk, hint, hsome, hnone⟩ :=
          (ih (i + 1) (transId + i) (out ++ [v])).mp ⟨out', h⟩
        refine ⟨k + 1, by omega, fun j hj => ?_, fun j hj => ?_, hnone⟩
        · cases j with
          | zero => exact hfirst
          | succ j => exact hint j (by omega)
        · cases j with
          | zero => exact ⟨v, hv⟩
          | succ j => exact hsome j (by omega)
    · rintro ⟨k, hk, hint, hsome, hnone⟩
      have hfirst := hint 0 (by omega)
      cases k with
      | zero => exact ⟨out, hfirst, .inl ⟨hnone, rfl⟩⟩
      | succ k =>
        obtain ⟨v, hv⟩ := hsome 0 (by omega)
        obtain ⟨out', hrest⟩ := (ih (i + 1) (transId + i) (out ++ [v])).mpr ⟨k, by omega,
          fun j hj => hint (j + 1) (by omega), fun j hj => hsome (j + 1) (by omega), hnone⟩
        exact ⟨out', hfirst, .inr ⟨v, hv, hrest⟩⟩

/-- What a loop that returns has appended: the values found at the ids, up to the first id
without one. -/
lemma visits_eq_ok (n : ℕ) (i transId : ℤ) (out out' : List (ValueWrap R)) :
    (∃ all, visits found n i transId out = .ok (all, out')) ↔
      ∃ new, out' = out ++ new ∧ new.length ≤ n ∧
        (∀ k < n, k ≤ new.length → IsInt (visitedFrom i transId k)) ∧
        (∀ k (hk : k < new.length), found (visitedFrom i transId k) = .ok (some new[k])) ∧
        (new.length < n → found (visitedFrom i transId new.length) = .ok none) := by
  induction n generalizing i transId out with
  | zero =>
    constructor
    · rintro ⟨all, h⟩
      obtain ⟨rfl, rfl⟩ : true = all ∧ out = out' := by simpa [visits] using h
      exact ⟨[], by simp⟩
    · rintro ⟨new, rfl, hlen, -⟩
      obtain rfl : new = [] := List.length_eq_zero_iff.mp (Nat.le_zero.mp hlen)
      exact ⟨true, by simp [visits]⟩
  | succ n ih =>
    simp only [visits_succ_eq_ok, exists_and_left, exists_or, Prod.mk.injEq, exists_eq_left']
    constructor
    · rintro ⟨hfirst, ⟨hnone, rfl⟩ | ⟨all, v, hv, h⟩⟩
      · refine ⟨[], by simp, Nat.zero_le _, fun k hk hle => ?_, by simp, fun _ => hnone⟩
        obtain rfl : k = 0 := by simpa using hle
        exact hfirst
      · obtain ⟨new, rfl, hlen, hint, hsome, hstop⟩ :=
          (ih (i + 1) (transId + i) (out ++ [v])).mp ⟨all, h⟩
        refine ⟨v :: new, by simp, by simpa using hlen, fun k hk hle => ?_, fun k hk => ?_,
          fun hlt => hstop (by simpa using hlt)⟩
        · cases k with
          | zero => exact hfirst
          | succ k => exact hint k (by omega) (by simpa using hle)
        · cases k with
          | zero => exact hv
          | succ k => exact hsome k (by simpa using hk)
    · rintro ⟨new, rfl, hlen, hint, hsome, hstop⟩
      refine ⟨hint 0 (by omega) (Nat.zero_le _), ?_⟩
      cases new with
      | nil => exact .inl ⟨hstop (by simp), by simp⟩
      | cons v new =>
        obtain ⟨all, h⟩ := (ih (i + 1) (transId + i) (out ++ [v])).mpr
          ⟨new, by simp, by simpa using hlen,
            fun k hk hle => hint (k + 1) (by omega) (by simpa using hle),
            fun k hk => hsome (k + 1) (by simpa using hk),
            fun hlt => hstop (by simpa using hlt)⟩
        exact .inr ⟨all, v, hsome 0 (by simp), h⟩

/-- The values of reads that all get one. -/
lemma exists_values {found : ℕ → Except Fault (Option (ValueWrap R))} {n : ℕ}
    (h : ∀ k < n, ∃ v, found k = .ok (some v)) :
    ∃ new : List (ValueWrap R), new.map (fun v => .ok (some v)) = (List.range n).map found := by
  induction n with
  | zero => exact ⟨[], rfl⟩
  | succ n ih =>
    obtain ⟨new, hnew⟩ := ih fun k hk => h k (by omega)
    obtain ⟨v, hv⟩ := h n (by omega)
    refine ⟨new ++ [v], ?_⟩
    rw [List.map_append, hnew, List.range_succ, List.map_append, List.map_singleton,
      List.map_singleton, hv]

end Visits

/-! ### Several points -/

/-- What `getTransValue` answers for an id. -/
def transValue (name : String) (type : DataType) (s : Store R) (transId : ℤ) :
    Except Fault (Option (ValueWrap R)) :=
  (exec (getTransValue env name type transId .unknown) s).1

lemma exec_getTransValue {type : DataType} {strType : String} (ht : typeName type = some strType)
    (name : String) (transId : ℤ) (data : ValueWrap R) (s : Store R) :
    exec (getTransValue env name type transId data) s =
      match transInfoToDevInfo env.cfg name strType transId with
      | .error e => (.error e, s)
      | .ok none => (.ok none, s)
      | .ok (some (devName, pointId)) => exec (getDotValue env type devName pointId data) s := by
  unfold getTransValue
  simp only [ht]
  rw [exec_of_bind]
  rcases transInfoToDevInfo env.cfg name strType transId with e | _ | ⟨devName, pointId⟩ <;> rfl

/-- The loop reads what single reads get, whatever has been looked up before. -/
lemma exec_transLoop {type : DataType} {strType : String} (ht : typeName type = some strType)
    (name : String) (n : ℕ) (i transId : ℤ) (out : List (ValueWrap R)) {s t : Store R}
    (hst : Same s t) :
    (exec (transLoop env name type strType n i transId out) t).1 =
      visits (transValue env name type s) n i transId out := by
  induction n generalizing i transId out t with
  | zero => rfl
  | succ n ih =>
    unfold transLoop visits
    rw [exec_of_bind]
    rcases intAdd transId i with e | id
    · rfl
    have hvalue : transValue env name type s id =
        (exec (getTransValue env name type id .unknown) t).1 :=
      ((getTransValue_readsOnly env name type id .unknown).respects s t hst).1
    conv_rhs => simp only [bind, Except.bind]
    rw [hvalue, exec_getTransValue env ht]
    simp only
    rw [exec_of_bind]
    rcases transInfoToDevInfo env.cfg name strType id with e | _ | ⟨devName, pointId⟩
    · rfl
    · rfl
    have hsame := hst.trans ((getDotValue_readsOnly env type devName pointId .unknown).same t)
    simp only
    rcases hdot : exec (getDotValue env type devName pointId .unknown) t with ⟨e | _ | v, t'⟩
    · rw [exec_bind_error hdot]
    · rw [exec_bind_ok hdot]
      rfl
    · rw [exec_bind_ok hdot]
      rw [hdot] at hsame
      exact ih (i + 1) id (out ++ [v]) hsame

/-- A bulk read of transmit points does what reads one after another do: if all of them get a
value, it gets these; if one of them answers `false`, so does it. -/
structure TransAgree (name : String) (type : DataType) (transId num : ℤ)
    (out : List (ValueWrap R)) (s : Store R) : Prop where
  all : (∀ k < num.toNat, ∃ v, transValue env name type s (transId + k) = .ok (some v)) →
    ∃ new, (exec (getTransMultiValue env name type transId num out) s).1 = .ok (true, out ++ new) ∧
      new.map (fun v => .ok (some v)) =
        (List.range num.toNat).map fun k : ℕ => transValue env name type s (transId + k)
  failing : (∃ k < num.toNat, transValue env name type s (transId + k) = .ok none) →
    ∃ out', (exec (getTransMultiValue env name type transId num out) s).1 = .ok (false, out')

lemma getTransMultiValue_none {type : DataType} (ht : typeName type = none) (name : String)
    (transId num : ℤ) (out : List (ValueWrap R)) (s : Store R) :
    (exec (getTransMultiValue env name type transId num out) s).1 = .ok (false, out) := by
  unfold getTransMultiValue
  rw [ht]
  rfl

lemma getTransMultiValue_some {type : DataType} (ht : (typeName type).isSome) (name : String)
    (transId num : ℤ) (out : List (ValueWrap R)) (s : Store R) :
    (exec (getTransMultiValue env name type transId num out) s).1 =
      visits (transValue env name type s) num.toNat 0 transId out := by
  obtain ⟨strType, hs⟩ := Option.isSome_iff_exists.mp ht
  unfold getTransMultiValue
  rw [hs]
  exact exec_transLoop env hs name num.toNat 0 transId out (.refl s)

/-- **Bulk reads of transmit points**: a bulk read does what reads one after another do, if and
only if the ids it looks up serve as well as the consecutive ones: where these all get a value,
the type is a known one and every id looked up is an `int` and gets the same value; where one of
these answers `false`, the first id looked up without a value does. -/
theorem transAgree_iff (env : Env R) (name : String) (type : DataType) (transId num : ℤ)
    (out : List (ValueWrap R)) (s : Store R) :
    TransAgree env name type transId num out s ↔
      ((∀ k < num.toNat, ∃ v, transValue env name type s (transId + k) = .ok (some v)) →
        (typeName type).isSome ∧ ∀ k < num.toNat, IsInt (visited transId k) ∧
          transValue env name type s (visited transId k) =
            transValue env name type s (transId + k)) ∧
      ((∃ k < num.toNat, transValue env name type s (transId + k) = .ok none) →
        typeName type = none ∨ ∃ k < num.toNat, (∀ j ≤ k, IsInt (visited transId j)) ∧
          (∀ j < k, ∃ v, transValue env name type s (visited transId j) = .ok (some v)) ∧
          transValue env name type s (visited transId k) = .ok none) := by
  by_cases ht : (typeName type).isSome
  swap
  · have hnone : typeName type = none := by simpa using ht
    have hmulti := getTransMultiValue_none env hnone name transId num out s
    refine ⟨fun h => ⟨fun hall => ?_, fun _ => .inl hnone⟩, fun h => ⟨fun hall => ?_, fun _ => ?_⟩⟩
    · obtain ⟨new, hnew, -⟩ := h.all hall
      simp [hmulti] at hnew
    · exact absurd (h.1 hall).1 ht
    · exact ⟨out, hmulti⟩
  have hne : typeName type ≠ none := Option.isSome_iff_ne_none.mp ht
  have hmulti := getTransMultiValue_some env ht name transId num out s
  refine ⟨fun h => ⟨fun hall => ⟨ht, ?_⟩, fun hfail => .inr ?_⟩,
    fun h => ⟨fun hall => ?_, fun hfail => ?_⟩⟩
  · obtain ⟨new, hnew, hmap⟩ := h.all hall
    rw [hmulti] at hnew
    obtain ⟨new', hnew', hint, hmap'⟩ := (visits_true ..).mp hnew
    obtain rfl : new = new' := List.append_cancel_left hnew'
    rw [hmap] at hmap'
    intro k hk
    rw [← visitedFrom_zero]
    exact ⟨hint k hk, (List.map_inj_left.mp hmap' k (List.mem_range.mpr hk)).symm⟩
  · obtain ⟨out', hout⟩ := h.failing hfail
    rw [hmulti] at hout
    simpa only [visitedFrom_zero] using (visits_false ..).mp ⟨out', hout⟩
  · obtain ⟨-, hsame⟩ := h.1 hall
    obtain ⟨new, hmap⟩ := exists_values hall
    refine ⟨new, ?_, hmap⟩
    rw [hmulti]
    refine (visits_true ..).mpr ⟨new, rfl, fun k hk => ?_, ?_⟩
    · rw [visitedFrom_zero]
      exact (hsame k hk).1
    · rw [hmap]
      refine List.map_congr_left fun k hk => ?_
      rw [visitedFrom_zero, (hsame k (List.mem_range.mp hk)).2]
  · obtain hno | hfirst := h.2 hfail
    · exact absurd hno hne
    · rw [hmulti]
      simpa only [visitedFrom_zero] using (visits_false ..).mpr
        (by simpa only [visitedFrom_zero] using hfirst)

/-- A transmit table `T` that passes the three points of `D` on. -/
def threeTrans : Env ℚ where
  lib := ownType
  unset _ := 0
  cfg :=
    let dot (pointId : ℤ) : Value ℚ :=
      .object [("devName", .string "D"), ("pointId", .int pointId)]
    let table : Value ℚ := .object [("param", .object
      [("signal", .array [dot 0, dot 1, dot 2])])]
    { empty with
      mapTransNameCfg := (∅ : Map _ _).insert "T" ((∅ : Map _ _).insert .pointTable table) }

/-- All three ids have values; the third pass looks up the fourth. -/
theorem third_id_skipped : ¬ TransAgree threeTrans "T" .signal 0 3 [] threePoints := by
  intro h
  obtain ⟨new, hnew, -⟩ := h.all fun k hk => by
    obtain rfl | rfl | rfl : k = 0 ∨ k = 1 ∨ k = 2 := by
      have : k < 3 := hk
      omega
    all_goals exact ⟨.int32 0, rfl⟩
  have hmulti : (exec (getTransMultiValue threeTrans "T" .signal 0 3 []) threePoints).1 =
      .ok (false, [.int32 0, .int32 0]) := rfl
  rw [hmulti] at hnew
  simp at hnew

end DataEngine.DataStorage
