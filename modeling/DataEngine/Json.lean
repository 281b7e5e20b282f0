import DataEngine.Base

/-!
JSON values and the accesses the engine makes to them.

A member of an object that is not there, an element past the end of an array, and everything
inside `null`, read as `null`; an access that does not fit the value, and a negative index,
raise `Json::LogicError`. An access to a member of a value that can be changed adds the member,
as `null`, if it is not there. Most values the engine reads are local copies, which nothing looks
at afterwards; the values it keeps when it parses its configuration are not.
-/

namespace DataEngine.Json

/-- The members of an object stand in a list; the first of several with one name counts. -/
inductive Value (R : Type) where
  | null
  | int (i : ℤ)
  | uint (n : ℕ)
  | real (x : R)
  | string (s : String)
  | bool (b : Bool)
  | array (xs : List (Value R))
  | object (ms : List (String × Value R))

namespace Value

variable {R : Type}

def isObj : Value R → Bool
  | .null | .object _ => true
  | _ => false

def isArr : Value R → Bool
  | .null | .array _ => true
  | _ => false

/-- The member `key`, `null` if there is none. -/
def get : Value R → String → Value R
  | .object ms, key => (ms.lookup key).getD .null
  | _, _ => .null

/-- The element at `i`, `null` if there is none. -/
def nth : Value R → ℤ → Value R
  | .array xs, i => if 0 ≤ i then xs.getD i.toNat .null else .null
  | _, _ => .null

/-- `operator[](const std::string &)` -/
def member (v : Value R) (key : String) : Except Fault (Value R) :=
  if v.isObj then .ok (v.get key) else .error .logicError

lemma member_eq_ok {v w : Value R} {key : String} (h : v.member key = .ok w) :
    v.isObj = true ∧ w = v.get key := by
  unfold member at h
  split_ifs at h with hobj
  exact ⟨hobj, (Except.ok.inj h).symm⟩

/-- `operator[](int)` -/
def elem (v : Value R) (i : ℤ) : Except Fault (Value R) :=
  if 0 ≤ i ∧ v.isArr then .ok (v.nth i) else .error .logicError

def getMemberNames : Value R → Except Fault (List String)
  | .null => .ok []
  | .object ms => .ok (((ms.map Prod.fst).dedup).insertionSort (· ≤ ·))
  | _ => .error .logicError

def size : Value R → ℕ
  | .array xs => xs.length
  | .object ms => (ms.map Prod.fst).dedup.length
  | _ => 0

def empty : Value R → Bool
  | .null => true
  | .array xs => xs.isEmpty
  | .object ms => ms.isEmpty
  | _ => false

/-- The values a range-for over the value visits. -/
def elements : Value R → List (Value R)
  | .array xs => xs
  | .object ms => (((ms.map Prod.fst).dedup).insertionSort (· ≤ ·)).map (Value.object ms).get
  | _ => []

section Conversions

variable [Double R]

def asString : Value R → Except Fault String
  | .null => .ok ""
  | .string s => .ok s
  | .bool b => .ok (if b then "true" else "false")
  | .int i => .ok (toString i)
  | .uint n => .ok (toString n)
  | .real x => .ok (Double.jsonText x)
  | _ => .error .logicError

def asInt : Value R → Except Fault ℤ
  | .null => .ok 0
  | .bool b => .ok (if b then 1 else 0)
  | .int i => if intMin ≤ i ∧ i ≤ intMax then .ok i else .error .logicError
  | .uint n => if (n : ℤ) ≤ intMax then .ok n else .error .logicError
  | .real x =>
    if Double.le (Double.ofInt intMin) x && Double.le x (Double.ofInt intMax) then
      .ok (Double.toInt x)
    else .error .logicError
  | _ => .error .logicError

def asBool : Value R → Except Fault Bool
  | .null => .ok false
  | .bool b => .ok b
  | .int i => .ok (i != 0)
  | .uint n => .ok (n != 0)
  | .real x => .ok (!Double.eq x (Double.ofInt 0))
  | _ => .error .logicError

mutual

/-- `operator==`: values of different types differ, also `2` and `2.0`. -/
def eq : Value R → Value R → Bool
  | .null, .null => true
  | .int a, .int b => a == b
  | .uint a, .uint b => a == b
  | .real a, .real b => Double.eq a b
  | .string a, .string b => a == b
  | .bool a, .bool b => a == b
  | .array xs, .array ys => eqElements xs ys
  | .object ms, .object ns => ms.length == ns.length && eqMembers ms ns
  | _, _ => false

def eqElements : List (Value R) → List (Value R) → Bool
  | [], [] => true
  | x :: xs, y :: ys => eq x y && eqElements xs ys
  | _, _ => false

def eqMembers : List (String × Value R) → List (String × Value R) → Bool
  | [], _ => true
  | (k, v) :: ms, ns =>
    (match ns.lookup k with
      | some w => eq v w
      | none => false) && eqMembers ms ns

end

end Conversions

/-! ### Values that are built -/

def isMember : Value R → String → Except Fault Bool
  | .null, _ => .ok false
  | .object ms, key => .ok (ms.any fun m => m.1 == key)
  | _, _ => .error .logicError

/-- `v[key] = x` -/
def set : Value R → String → Value R → Except Fault (Value R)
  | .null, key, x => .ok (.object [(key, x)])
  | .object ms, key, x => .ok (.object ((key, x) :: ms.filter fun m => m.1 != key))
  | _, _, _ => .error .logicError

def append : Value R → Value R → Except Fault (Value R)
  | .null, x => .ok (.array [x])
  | .array xs, x => .ok (.array (xs ++ [x]))
  | _, _ => .error .logicError

/-! ### Values that an access changes -/

/-- What `v[key]` makes of a value that can be changed. -/
def withMember (v : Value R) (key : String) : Value R :=
  match v with
  | .null => .object [(key, .null)]
  | .object ms => if ms.any fun m => m.1 == key then .object ms else .object ((key, .null) :: ms)
  | v => v

/-- The member `key` is changed by `f`. -/
def mapMember (f : Value R → Value R) (key : String) : Value R → Value R
  | .object ms => .object (ms.map fun m => (m.1, if m.1 = key then f m.2 else m.2))
  | v => v

/-- The values a range-for visits are changed by `f`. -/
def mapElements (f : Value R → Value R) : Value R → Value R
  | .array xs => .array (xs.map f)
  | .object ms => .object (ms.map fun m => (m.1, f m.2))
  | v => v

lemma lookup_cons (m : String × Value R) (ms : List (String × Value R)) (key : String) :
    (m :: ms).lookup key = if key = m.1 then some m.2 else ms.lookup key := by
  rw [List.lookup_cons]
  by_cases hk : key = m.1
  · simp [hk]
  · simp [hk, beq_false_of_ne hk]

/-- An access to a member takes no note of one that was made before. -/
lemma member_withMember (v : Value R) (k key : String) :
    (v.withMember k).member key = v.member key := by
  cases v with
  | null =>
    simp only [withMember, member, isObj, if_true, get, lookup_cons]
    split_ifs <;> rfl
  | object ms =>
    unfold withMember
    by_cases hin : ms.any fun m => m.1 == k
    · simp only [hin, if_true]
    have hnone : ms.lookup k = none := by
      rw [List.lookup_eq_none_iff]
      intro m hm
      have hk : k ≠ m.1 := fun hk => hin (List.any_eq_true.mpr ⟨m, hm, by simp [hk]⟩)
      simpa using hk
    simp only [hin, Bool.false_eq_true, if_false, member, isObj, if_true, get, lookup_cons]
    split_ifs with hk
    · rw [hk, hnone]
      rfl
    · rfl
  | _ => rfl

/-- A member that has been added stays. -/
lemma withMember_of_eq {v : Value R} {k : String} (h : v.withMember k = v) (k' : String) :
    (v.withMember k').withMember k = v.withMember k' := by
  cases v with
  | object ms =>
    have hin : ms.any (fun m => m.1 == k) = true := by
      by_contra hout
      simp [withMember, hout] at h
    by_cases hin' : ms.any fun m => m.1 == k' <;> simp [withMember, hin, hin']
  | null => simp [withMember] at h
  | _ => rfl

lemma withMember_self (v : Value R) (k : String) :
    (v.withMember k).withMember k = v.withMember k := by
  cases v with
  | object ms => by_cases hin : ms.any fun m => m.1 == k <;> simp [withMember, hin]
  | null => simp [withMember]
  | _ => rfl

lemma lookup_map_snd (f : String → Value R → Value R) (ms : List (String × Value R))
    (key : String) :
    (ms.map fun m => (m.1, f m.1 m.2)).lookup key = (ms.lookup key).map (f key) := by
  induction ms with
  | nil => rfl
  | cons m ms ih =>
    rw [List.map_cons, lookup_cons, lookup_cons, ih]
    split_ifs with hk
    · rw [hk]
      rfl
    · rfl

lemma member_mapMember {f : Value R → Value R} (hf : f .null = .null) (v : Value R)
    (k key : String) :
    (v.mapMember f k).member key =
      (fun w => if key = k then f w else w) <$> v.member key := by
  cases v with
  | object ms =>
    simp only [mapMember, member, isObj, if_true, get,
      lookup_map_snd (fun key w => if key = k then f w else w)]
    rcases ms.lookup key with _ | w
    · split_ifs <;> simp [hf]
    · rfl
  | null => split_ifs <;> simp [mapMember, member, isObj, get, hf]
  | _ => rfl

lemma elements_mapElements (f : Value R → Value R) (v : Value R) :
    (v.mapElements f).elements = v.elements.map f := by
  cases v with
  | object ms =>
    have hnames : (ms.map fun m => (m.1, f m.2)).map Prod.fst = ms.map Prod.fst := by simp
    simp only [mapElements, elements, hnames, List.map_map]
    refine List.map_congr_left fun key hkey => ?_
    -- a name that is visited has a value
    have hmem : key ∈ ms.map Prod.fst := List.mem_dedup.mp ((List.mem_insertionSort _).mp hkey)
    have hsome : ms.lookup key ≠ none := by
      rw [Ne, List.lookup_eq_none_iff]
      simpa using hmem
    obtain ⟨w, hw⟩ := Option.ne_none_iff_exists'.mp hsome
    simp only [Function.comp_apply, get, lookup_map_snd fun _ => f, hw]
    rfl
  | _ => rfl

/-! ### Point tables -/

/-- The entry of a point table: `table["param"][section][id]`. -/
def dot (table : Value R) (sec : String) (id : ℤ) : Value R :=
  ((table.get "param").get sec).nth id

/-- The accesses that lead to an entry of a point table fit the table. -/
def Reads (table : Value R) (sec : String) (id : ℤ) : Prop :=
  table.isObj ∧ (table.get "param").isObj ∧ ((table.get "param").get sec).isArr ∧ 0 ≤ id

instance (table : Value R) (sec : String) (id : ℤ) : Decidable (table.Reads sec id) :=
  inferInstanceAs (Decidable (_ ∧ _))

/-- The access `table["param"][section][id]`. -/
def dotAt (table : Value R) (sec : String) (id : ℤ) : Except Fault (Value R) := do
  let param ← table.member "param"
  let dots ← param.member sec
  dots.elem id

lemma dotAt_eq (table : Value R) (sec : String) (id : ℤ) :
    table.dotAt sec id =
      if table.Reads sec id then .ok (table.dot sec id) else .error .logicError := by
  unfold dotAt member elem Reads dot
  by_cases h1 : table.isObj
  · by_cases h2 : (table.get "param").isObj
    · by_cases h3 : 0 ≤ id ∧ ((table.get "param").get sec).isArr
      · simp [h1, h2, h3, bind, Except.bind]
      · simp only [h1, h2, if_true, bind, Except.bind, if_neg h3]
        rw [if_neg fun h => h3 ⟨h.2.2.2, h.2.2.1⟩]
    · simp [h1, h2, bind, Except.bind]
  · simp [h1, bind, Except.bind]

end Value

end DataEngine.Json
