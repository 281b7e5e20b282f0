import DataEngine.Data.PointMap

/-!
Accesses to several points at once.

Both bulk functions take the sum of the index and the count for the number of passes, so from
an index above 0 on they leave the vector or take too much. What they do is compared with the
accesses of single points, one after another.
-/

namespace DataEngine.DataStorage

open Lib.Effect Lib.Memory

variable {R : Type}

/-! ### Vectors -/

lemma PointVec.get?_natCast (v : PointVec R) (i : ℕ) : v.get? i = v.vals[i]? := by
  simp [PointVec.get?]

lemma PointVec.ext_get? {v w : PointVec R} (h : ∀ i, v.get? i = w.get? i) : v = w := by
  have hvals : v.vals = w.vals := by
    refine List.ext_getElem? fun i => ?_
    rw [← PointVec.get?_natCast, ← PointVec.get?_natCast]
    exact h i
  cases v
  cases w
  simp_all

lemma PointVec.get?_eq_none {v : PointVec R} {i : ℤ} :
    v.get? i = none ↔ ¬ (0 ≤ i ∧ i < v.size) := by
  rw [← PointVec.contains_iff, ← PointVec.isSome_get?, Option.not_isSome_iff_eq_none]

/-! ### The loops -/

lemma assign_eq_ok {v w : PointVec R} {i : ℤ} {x : ValueWrap R} :
    v.assign i x = .ok w ↔ v.contains i = true ∧ v.set i x = w := by
  unfold PointVec.assign
  split_ifs with h <;> simp [h]

lemma valueAt_eq_ok {vs : List (ValueWrap R)} {i : ℕ} {x : ValueWrap R} :
    valueAt vs i = .ok x ↔ vs[i]? = some x := by
  unfold valueAt
  cases vs[i]? <;> simp

variable {pointId : ℤ} {vs : List (ValueWrap R)} {v w : PointVec R}

lemma assignLoop_size (n : ℕ) {w : PointVec R} (h : assignLoop pointId vs n v = .ok w) :
    w.size = v.size := by
  refine foldlM_inv (P := fun w => w.size = v.size) (fun b i b' hb hi => ?_) rfl h
  obtain ⟨x, -, hx⟩ := bind_eq_ok.mp hi
  obtain ⟨-, rfl⟩ := assign_eq_ok.mp hx
  rw [PointVec.size_set, hb]

/-- A loop that ends has stayed in both vectors. -/
lemma assignLoop_le {n : ℕ} (hn : 0 < n) (h : assignLoop pointId vs n v = .ok w) :
    n ≤ vs.length ∧ pointId + n ≤ v.size := by
  obtain ⟨m, rfl⟩ : ∃ m, n = m + 1 := ⟨n - 1, by omega⟩
  unfold assignLoop at h
  rw [foldlM_range_succ] at h
  obtain ⟨u, hu, h⟩ := bind_eq_ok.mp h
  obtain ⟨x, hx, h⟩ := bind_eq_ok.mp h
  have hm : m < vs.length := (List.getElem?_eq_some_iff.mp (valueAt_eq_ok.mp hx)).1
  have hin := PointVec.contains_iff.mp (assign_eq_ok.mp h).1
  have hsize : u.size = v.size := assignLoop_size m hu
  omega

/-- What a loop that stays in both vectors does. -/
lemma assignLoop_eq (h0 : 0 ≤ pointId) (n : ℕ) (hn : n ≤ vs.length)
    (hv : pointId + n ≤ v.size) :
    ∃ w, assignLoop pointId vs n v = .ok w ∧
      ∀ i, w.get? i =
        if pointId ≤ i ∧ i < pointId + n then vs[(i - pointId).toNat]? else v.get? i := by
  induction n with
  | zero =>
    refine ⟨v, rfl, fun i => ?_⟩
    rw [if_neg (by omega)]
  | succ n ih =>
    obtain ⟨w, hw, hget⟩ := ih (by omega) (by omega)
    obtain ⟨x, hx⟩ : ∃ x, vs[n]? = some x := by
      rw [← Option.isSome_iff_exists, isSome_getElem?]
      omega
    have hin : w.contains (pointId + n) = true := by
      rw [PointVec.contains_iff, assignLoop_size n hw]
      omega
    refine ⟨w.set (pointId + n) x, ?_, fun i => ?_⟩
    · unfold assignLoop at hw ⊢
      rw [foldlM_range_succ, hw]
      refine bind_eq_ok.mpr ⟨w, rfl, bind_eq_ok.mpr ⟨x, valueAt_eq_ok.mpr hx, ?_⟩⟩
      exact assign_eq_ok.mpr ⟨hin, rfl⟩
    · rw [PointVec.get?_set hin]
      by_cases hi : i = pointId + n
      · rw [if_pos hi, if_pos (by omega), hi, ← hx]
        congr 1
        omega
      · rw [if_neg hi, hget]
        by_cases hlt : pointId ≤ i ∧ i < pointId + n
        · rw [if_pos hlt, if_pos (by omega)]
        · rw [if_neg hlt, if_neg (by omega)]

lemma elem_eq_ok {v : PointVec R} {i : ℤ} {x : ValueWrap R} :
    v.elem i = .ok x ↔ v.get? i = some x := by
  unfold PointVec.elem
  cases v.get? i <;> simp

lemma appendLoop_le {n : ℕ} (hn : 0 < n) {out out' : List (ValueWrap R)}
    (h : appendLoop pointId v n out = .ok out') : pointId + n ≤ v.size := by
  obtain ⟨m, rfl⟩ : ∃ m, n = m + 1 := ⟨n - 1, by omega⟩
  unfold appendLoop at h
  rw [foldlM_range_succ] at h
  obtain ⟨u, -, h⟩ := bind_eq_ok.mp h
  obtain ⟨x, hx, -⟩ := bind_eq_ok.mp h
  have hin : (v.get? (pointId + m)).isSome := by
    rw [elem_eq_ok.mp hx]
    rfl
  rw [PointVec.isSome_get?, PointVec.contains_iff] at hin
  omega

lemma appendLoop_eq (h0 : 0 ≤ pointId) (n : ℕ) (hv : pointId + n ≤ v.size)
    (out : List (ValueWrap R)) :
    ∃ new, appendLoop pointId v n out = .ok (out ++ new) ∧
      new.map some = (List.range n).map fun i : ℕ => v.get? (pointId + i) := by
  induction n with
  | zero => exact ⟨[], by simp [appendLoop, pure, Except.pure], by simp⟩
  | succ n ih =>
    obtain ⟨new, hnew, hmap⟩ := ih (by omega)
    obtain ⟨x, hx⟩ : ∃ x, v.get? (pointId + n) = some x := by
      rw [← Option.isSome_iff_exists, PointVec.isSome_get?, PointVec.contains_iff]
      omega
    refine ⟨new ++ [x], ?_, ?_⟩
    · unfold appendLoop at hnew ⊢
      rw [foldlM_range_succ, hnew, ← List.append_assoc]
      exact bind_eq_ok.mpr ⟨_, rfl, bind_eq_ok.mpr ⟨x, elem_eq_ok.mpr hx, rfl⟩⟩
    · rw [List.range_succ, List.map_append, List.map_append, hmap]
      simp [hx]

/-! ### Reads -/

variable {s : Store R} {name : String} {type : DataType}

lemma exec_getMultiValue (h : (cells s (name, type, pointId)).isSome) (num : ℤ)
    (out : List (ValueWrap R)) :
    (exec (getMultiValue name type pointId num out) s).1 = (do
      let sum ← intAdd num pointId
      let out ← appendLoop pointId (slot s name type) (min (slot s name type).size sum).toNat out
      .ok (true, out)) := by
  unfold getMultiValue
  rw [exec_access_some h, exec_of_bind]
  rcases intAdd num pointId with e | sum
  · rfl
  simp only
  rw [exec_of_bind]
  change _ = appendLoop pointId (slot s name type) (min (slot s name type).size sum).toNat out >>=
    fun out => .ok (true, out)
  cases appendLoop pointId (slot s name type) (min (slot s name type).size sum).toNat out <;>
    rfl

/-- A bulk read does what reads one after another do: it answers as a read at the first index,
and appends what `num` reads get, or as many as there are points. -/
structure ReadsAgree (name : String) (type : DataType) (pointId num : ℤ)
    (out : List (ValueWrap R)) (s : Store R) : Prop where
  answer : Prod.fst <$> (exec (getMultiValue name type pointId num out) s).1 =
    Option.isSome <$> (exec (getValue name type pointId) s).1
  values (out' : List (ValueWrap R)) :
    (exec (getMultiValue name type pointId num out) s).1 = .ok (true, out') →
      ∃ new, out' = out ++ new ∧ new.map (fun x => .ok (some x)) =
        (List.range (min num ((slot s name type).size - pointId)).toNat).map fun i : ℕ =>
          (exec (getValue name type (pointId + i)) s).1

lemma getValue_fst (s : Store R) (name : String) (type : DataType) (i : ℤ) :
    (exec (getValue name type i) s).1 = .ok (cells s (name, type, i)) := by
  obtain ⟨t, -, he⟩ := getValue_spec s name type i
  rw [he]

lemma readsAgree_of_none (h : cells s (name, type, pointId) = none) (num : ℤ)
    (out : List (ValueWrap R)) : ReadsAgree name type pointId num out s := by
  obtain ⟨t, -, he⟩ := exec_access_none h (false, out) fun vec => do
    let sum ← Prog.of (intAdd num pointId)
    let out ← Prog.of (appendLoop pointId vec (min vec.size sum).toNat out)
    pure (true, out)
  have hmulti : (exec (getMultiValue name type pointId num out) s).1 = .ok (false, out) :=
    congrArg Prod.fst he
  refine ⟨?_, fun out' hout => ?_⟩
  · rw [hmulti, getValue_fst, h]
    rfl
  · simp [hmulti] at hout

lemma readsAgree_zero (h : (cells s (name, type, 0)).isSome) {num : ℤ} (h0 : 0 ≤ num)
    (hmax : num ≤ intMax) (out : List (ValueWrap R)) : ReadsAgree name type 0 num out s := by
  obtain ⟨-, -, hsize⟩ := (isSome_cells s name type 0).mp h
  have hsum : intAdd num 0 = .ok num :=
    intAdd_eq_ok.mpr ⟨by unfold intMin; omega, by omega, by omega⟩
  obtain ⟨new, hloop, hmap⟩ := appendLoop_eq (v := slot s name type) le_rfl
    (min (slot s name type).size num).toNat (by omega) out
  have hmulti : (exec (getMultiValue name type 0 num out) s).1 = .ok (true, out ++ new) := by
    rw [exec_getMultiValue h, hsum]
    exact bind_eq_ok.mpr ⟨num, rfl, bind_eq_ok.mpr ⟨_, hloop, rfl⟩⟩
  refine ⟨?_, fun out' hout => ⟨new, ?_, ?_⟩⟩
  · rw [hmulti, getValue_fst]
    simp [h]
  · rw [hmulti] at hout
    simpa using (congrArg Prod.snd (Except.ok.inj hout)).symm
  · rw [sub_zero, min_comm]
    have hsome := congrArg (List.map (Except.ok (ε := Fault))) hmap
    rw [List.map_map, List.map_map] at hsome
    refine hsome.trans (List.map_congr_left fun i _ => ?_)
    rw [getValue_fst]
    rfl

/-- From an index above 0 on, as many passes as the sum of the index and the count. -/
lemma not_readsAgree (h : (cells s (name, type, pointId)).isSome) (hpos : 0 < pointId) {num : ℤ}
    (h0 : 0 ≤ num) (out : List (ValueWrap R)) : ¬ ReadsAgree name type pointId num out s := by
  intro hagree
  obtain ⟨-, -, hsize⟩ := (isSome_cells s name type pointId).mp h
  have hanswer := hagree.answer
  rw [getValue_fst, Except.map_ok, h] at hanswer
  obtain ⟨⟨b, out'⟩, hmulti⟩ :
      ∃ r, (exec (getMultiValue name type pointId num out) s).1 = .ok r := by
    cases hr : (exec (getMultiValue name type pointId num out) s).1 with
    | error e => simp [hr] at hanswer
    | ok r => exact ⟨r, rfl⟩
  obtain rfl : b = true := by simpa [hmulti] using hanswer
  obtain ⟨new, hnew, hlen⟩ := hagree.values out' hmulti
  rw [exec_getMultiValue h] at hmulti
  obtain ⟨sum, hsum, hmulti⟩ := bind_eq_ok.mp hmulti
  obtain ⟨-, -, rfl⟩ := intAdd_eq_ok.mp hsum
  obtain ⟨out'', hloop, hout⟩ := bind_eq_ok.mp hmulti
  have hle := appendLoop_le (by omega) hloop
  obtain ⟨new', hloop', hmap⟩ := appendLoop_eq (by omega) _ hle out
  have hsame : new = new' := by
    have h1 : out'' = out ++ new' := Except.ok.inj (hloop.symm.trans hloop')
    have h2 : out'' = out' := (Prod.mk.inj (Except.ok.inj hout)).2
    exact List.append_cancel_left (hnew.symm.trans (h2.symm.trans h1))
  -- the two counts differ by the index
  have hcount := congrArg List.length hlen
  have hcount' := congrArg List.length hmap
  simp only [List.length_map, List.length_range] at hcount hcount'
  rw [hsame] at hcount
  omega

/-- **Bulk reads**: a bulk read does what reads one after another do, if and only if it does
not begin inside the vector of a device. -/
theorem readsAgree_iff (name : String) (type : DataType) (pointId num : ℤ)
    (out : List (ValueWrap R)) (s : Store R) (h0 : 0 ≤ num) (hmax : num ≤ intMax) :
    ReadsAgree name type pointId num out s ↔
      ¬ (name ∈ s ∧ 0 < pointId ∧ pointId < (slot s name type).size) := by
  by_cases h : (cells s (name, type, pointId)).isSome
  swap
  · refine ⟨fun _ hin => ?_, fun _ => readsAgree_of_none (by simpa using h) num out⟩
    exact h ((isSome_cells s name type pointId).mpr ⟨hin.1, by omega, hin.2.2⟩)
  obtain ⟨hmem, hge, hlt⟩ := (isSome_cells s name type pointId).mp h
  by_cases hpos : 0 < pointId
  · exact ⟨fun hagree => absurd hagree (not_readsAgree h hpos h0 out),
      fun hout => absurd ⟨hmem, hpos, hlt⟩ hout⟩
  · obtain rfl : pointId = 0 := by omega
    exact ⟨fun _ hin => hpos hin.2.1, fun _ => readsAgree_zero h h0 hmax out⟩

theorem readsAgree_first : ReadsAgree "D" .signal 0 2 [] threePoints :=
  (readsAgree_iff "D" .signal 0 2 [] threePoints (by decide) (by decide)).mpr
    fun h => absurd h.2.1 (by decide)

/-- Two values from the second point on: the third read is past the end. -/
theorem read_past_end : ¬ ReadsAgree "D" .signal 1 2 [] threePoints :=
  fun h => absurd h.answer (by decide)

/-! ### Writes -/

/-- `updateValue` for one element after another, from `pointId` on. -/
def updateEach (name : String) (type : DataType) : ℤ → List (ValueWrap R) → StoreM R Unit
  | _, [] => pure ()
  | pointId, x :: vs => do
    let _ ← updateValue name type pointId x
    updateEach name type (pointId + 1) vs

lemma exec_updateEach (h0 : 0 ≤ pointId) (vs : List (ValueWrap R)) (s : Store R)
    (hmem : name ∈ s) (hsize : 0 < (slot s name type).size) :
    ∃ w, (exec (updateEach name type pointId vs) s).2 = setSlot s name type w ∧
      ∀ i, w.get? i = if pointId ≤ i ∧ i < pointId + vs.length ∧ i < (slot s name type).size then
        vs[(i - pointId).toNat]? else (slot s name type).get? i := by
  induction vs generalizing pointId s with
  | nil =>
    refine ⟨slot s name type, (setSlot_slot hsize).symm, fun i => ?_⟩
    rw [if_neg (by simp; omega)]
  | cons x vs ih =>
    unfold updateEach
    by_cases hin : (cells s (name, type, pointId)).isSome
    · obtain ⟨-, -, hlt⟩ := (isSome_cells s name type pointId).mp hin
      have hc : (slot s name type).contains pointId = true := PointVec.contains_iff.mpr ⟨h0, hlt⟩
      rw [exec_bind_ok (exec_updateValue hin x)]
      have hslot : slot (setSlot s name type ((slot s name type).set pointId x)) name type =
          (slot s name type).set pointId x := by
        rw [slot_setSlot, if_pos ⟨rfl, rfl⟩]
      obtain ⟨w, hw, hget⟩ := ih (by omega : 0 ≤ pointId + 1) _ ((mem_setSlot ..).mpr (.inl rfl))
        (by rw [hslot, PointVec.size_set]; exact hsize)
      refine ⟨w, hw.trans (setSlot_setSlot ..), fun i => ?_⟩
      rw [hget, hslot, PointVec.size_set, PointVec.get?_set hc, List.length_cons]
      by_cases hi : i = pointId
      · rw [if_neg (by omega), if_pos hi, if_pos (by omega), hi]
        simp
      · rw [if_neg hi]
        by_cases hrest : pointId + 1 ≤ i ∧ i < pointId + 1 + vs.length ∧ i < (slot s name type).size
        · rw [if_pos hrest, if_pos (by omega)]
          obtain ⟨k, hk⟩ : ∃ k, (i - pointId).toNat = k + 1 := ⟨(i - pointId).toNat - 1, by omega⟩
          rw [hk, List.getElem?_cons_succ]
          congr 1
          omega
        · rw [if_neg hrest, if_neg (by omega)]
    · have hnone : cells s (name, type, pointId) = none := by simpa using hin
      have hge : (slot s name type).size ≤ pointId := by
        by_contra hlt
        exact hin ((isSome_cells s name type pointId).mpr ⟨hmem, h0, by omega⟩)
      have hstay : exec (updateValue name type pointId x) s = (.ok false, s) := by
        unfold updateValue access
        rw [exec_get_bind, if_neg (not_not.mpr hmem), exec_bind_ok (exec_vecData s name type),
          if_pos (.inr hge), setSlot_slot hsize]
        rfl
      rw [exec_bind_ok hstay]
      obtain ⟨w, hw, hget⟩ := ih (by omega : 0 ≤ pointId + 1) s hmem hsize
      refine ⟨w, hw, fun i => ?_⟩
      rw [hget, if_neg (by omega), if_neg (by omega)]

/-- The part of a bulk write after its checks ends if its loop does. -/
lemma exec_assign (name : String) (type : DataType) (pointId k : ℤ) (vs : List (ValueWrap R))
    (v : PointVec R) (s : Store R) :
    let body : StoreM R Bool := do
      let sum ← Prog.of (intAdd k pointId)
      let vec ← Prog.of (assignLoop pointId vs (min v.size sum).toNat v)
      setVecData name type vec
      pure true
    (∃ e, (exec body s).1 = .error e ∧ ∀ sum w, intAdd k pointId = .ok sum →
      assignLoop pointId vs (min v.size sum).toNat v ≠ .ok w) ∨
    ∃ sum w, intAdd k pointId = .ok sum ∧
      assignLoop pointId vs (min v.size sum).toNat v = .ok w ∧
      exec body s = (.ok true, setSlot s name type w) := by
  intro body
  unfold body
  rw [exec_of_bind]
  cases hsum : intAdd k pointId with
  | error e => exact .inl ⟨e, rfl, by simp⟩
  | ok sum =>
    simp only
    rw [exec_of_bind]
    cases hloop : assignLoop pointId vs (min v.size sum).toNat v with
    | error e =>
      refine .inl ⟨e, rfl, fun sum' w h => ?_⟩
      obtain rfl := Except.ok.inj h
      simp [hloop]
    | ok w => exact .inr ⟨sum, w, rfl, hloop, rfl⟩

/-- How a bulk write that is let through ends. -/
lemma exec_updateMultiValue (h : (cells s (name, type, pointId)).isSome)
    (vs : List (ValueWrap R)) :
    (∃ e, (exec (updateMultiValue name type pointId vs) s).1 = .error e ∧
      ∀ sum w, intAdd (intSize vs.length) pointId = .ok sum →
        assignLoop pointId vs (min (slot s name type).size sum).toNat (slot s name type) ≠ .ok w) ∨
    ∃ sum w, intAdd (intSize vs.length) pointId = .ok sum ∧
      assignLoop pointId vs (min (slot s name type).size sum).toNat (slot s name type) = .ok w ∧
      exec (updateMultiValue name type pointId vs) s = (.ok true, setSlot s name type w) := by
  have hbody := exec_assign name type pointId (intSize vs.length) vs
    (slot s name type) (setSlot s name type (slot s name type))
  simp only [setSlot_setSlot] at hbody
  unfold updateMultiValue
  rw [exec_access_some h]
  exact hbody
/-- A bulk write does what writes one after another do: it answers as a write at the first
index, if it is let through it leaves the store as they leave it, and it changes no point
below. -/
structure WritesAgree (name : String) (type : DataType) (pointId : ℤ) (vs : List (ValueWrap R))
    (s : Store R) : Prop where
  answer (x : ValueWrap R) : (exec (updateMultiValue name type pointId vs) s).1 =
    (exec (updateValue name type pointId x) s).1
  store : (exec (updateMultiValue name type pointId vs) s).1 = .ok true →
    (exec (updateMultiValue name type pointId vs) s).2 =
      (exec (updateEach name type pointId vs) s).2
  below (i : ℤ) : i < pointId →
    cells (exec (updateMultiValue name type pointId vs) s).2 (name, type, i) =
      cells s (name, type, i)

lemma updateValue_fst (s : Store R) (name : String) (type : DataType) (i : ℤ) (x : ValueWrap R) :
    (exec (updateValue name type i x) s).1 = .ok (cells s (name, type, i)).isSome := by
  obtain ⟨t, -, -, he⟩ := updateValue_spec s name type i x
  rw [he]

lemma writesAgree_of_none (h : cells s (name, type, pointId) = none) (vs : List (ValueWrap R)) :
    WritesAgree name type pointId vs s := by
  obtain ⟨t, hsame, he⟩ := exec_access_none h false fun vec => do
    let sum ← Prog.of (intAdd (intSize vs.length) pointId)
    let vec ← Prog.of (assignLoop pointId vs (min vec.size sum).toNat vec)
    setVecData name type vec
    pure true
  have hmulti : exec (updateMultiValue name type pointId vs) s = (.ok false, t) := he
  refine ⟨fun x => ?_, fun htrue => ?_, fun i _ => ?_⟩
  · rw [hmulti, updateValue_fst, h]
    rfl
  · simp [hmulti] at htrue
  · rw [hmulti, hsame.cells]

/-- The passes of a bulk write stay in both vectors, and the points they leave out hold their
new values already. -/
structure PassesFit (name : String) (type : DataType) (pointId : ℤ) (vs : List (ValueWrap R))
    (s : Store R) : Prop where
  sum : intSize vs.length + pointId ≤ intMax
  reads : min (slot s name type).size (intSize vs.length + pointId) ≤ vs.length
  writes : pointId + min (slot s name type).size (intSize vs.length + pointId) ≤
    (slot s name type).size
  rest (i : ℕ) (x y : ValueWrap R) : intSize vs.length + pointId ≤ i → vs[i]? = some x →
    cells s (name, type, pointId + i) = some y → y = x

lemma intMin_le_intSize (n : ℕ) : intMin ≤ intSize n := by
  have h := Int.le_bmod (x := n) (m := 2 ^ 32) (by decide)
  unfold intMin intSize
  omega

lemma intSize_eq {n : ℕ} (h : (n : ℤ) ≤ intMax) : intSize n = n := by
  unfold intMax at h
  unfold intSize
  rw [Int.bmod_eq_of_le] <;> omega

lemma passesFit_of_agree (h : (cells s (name, type, pointId)).isSome)
    (hagree : WritesAgree name type pointId vs s) : PassesFit name type pointId vs s := by
  obtain ⟨hmem, h0, hlt⟩ := (isSome_cells s name type pointId).mp h
  have htrue := hagree.answer .unknown
  rw [updateValue_fst, h] at htrue
  have hstore := hagree.store htrue
  obtain ⟨e, he, -⟩ | ⟨sum, w, hsum, hloop, hexec⟩ := exec_updateMultiValue h vs
  · simp [he] at htrue
  obtain ⟨-, hmax, rfl⟩ := intAdd_eq_ok.mp hsum
  -- a loop without passes fits as well
  have hfits : (min (slot s name type).size (intSize vs.length + pointId)).toNat ≤ vs.length ∧
      pointId + (min (slot s name type).size (intSize vs.length + pointId)).toNat ≤
        (slot s name type).size := by
    rcases Nat.eq_zero_or_pos
      (min (slot s name type).size (intSize vs.length + pointId)).toNat with hz | hp
    · omega
    · exact assignLoop_le hp hloop
  refine ⟨hmax, by omega, by omega, fun i x y hi hx hy => ?_⟩
  obtain ⟨w₁, hw₁, hget₁⟩ := assignLoop_eq h0 _ hfits.1 hfits.2
  obtain ⟨w₂, hw₂, hget₂⟩ := exec_updateEach h0 vs s hmem (lt_of_le_of_lt h0 hlt)
  obtain rfl : w = w₁ := Except.ok.inj (hloop.symm.trans hw₁)
  rw [hexec, hw₂] at hstore
  have hslots := congrArg (fun t => slot t name type) hstore
  simp only [slot_setSlot, and_self, if_true] at hslots
  have hrange : pointId + i < (slot s name type).size := by
    by_contra hge
    rw [cells, PointVec.get?_eq_none.mpr fun hr => hge hr.2] at hy
    simp at hy
  have hlen : i < vs.length := (List.getElem?_eq_some_iff.mp hx).1
  have h₁ := hget₁ (pointId + i)
  have h₂ := hget₂ (pointId + i)
  rw [if_neg (by omega)] at h₁
  rw [if_pos (by omega), show (pointId + i - pointId).toNat = i by omega, hx, ← hslots, h₁] at h₂
  exact Option.some.inj (hy.symm.trans h₂)

lemma agree_of_passesFit (h : (cells s (name, type, pointId)).isSome)
    (hfit : PassesFit name type pointId vs s) : WritesAgree name type pointId vs s := by
  obtain ⟨hmem, h0, hlt⟩ := (isSome_cells s name type pointId).mp h
  obtain ⟨sum, hsum⟩ : ∃ sum, intAdd (intSize vs.length) pointId = .ok sum := by
    refine ⟨_, intAdd_eq_ok.mpr ⟨?_, hfit.sum, rfl⟩⟩
    have := intMin_le_intSize vs.length
    omega
  obtain ⟨-, -, hk⟩ := intAdd_eq_ok.mp hsum
  have hreads := hfit.reads
  have hwrites := hfit.writes
  have hrest := hfit.rest
  rw [hk] at hreads hwrites hrest
  obtain ⟨w, hw, hget⟩ := assignLoop_eq h0 (min (slot s name type).size sum).toNat
    (by omega : _ ≤ vs.length) (by omega : _ ≤ (slot s name type).size)
  have hmulti : exec (updateMultiValue name type pointId vs) s =
      (.ok true, setSlot s name type w) := by
    obtain ⟨-, -, hne⟩ | ⟨sum', w', hsum', hw', he⟩ := exec_updateMultiValue h vs
    · exact absurd hw (hne sum w hsum)
    · obtain rfl : sum = sum' := Except.ok.inj (hsum.symm.trans hsum')
      obtain rfl : w = w' := Except.ok.inj (hw.symm.trans hw')
      exact he
  refine ⟨fun x => ?_, fun _ => ?_, fun i hi => ?_⟩
  · rw [hmulti, updateValue_fst, h]
  · obtain ⟨w₂, hw₂, hget₂⟩ := exec_updateEach h0 vs s hmem (lt_of_le_of_lt h0 hlt)
    have hw : w = w₂ := ?_
    · rw [hmulti, hw₂, hw]
    refine PointVec.ext_get? fun i => ?_
    rw [hget, hget₂]
    by_cases hin : pointId ≤ i ∧ i < pointId + vs.length ∧ i < (slot s name type).size
    swap
    · rw [if_neg (by omega), if_neg hin]
    rw [if_pos hin]
    split_ifs with hpass
    · rfl
    -- a point the passes leave out
    obtain ⟨x, hx⟩ : ∃ x, vs[(i - pointId).toNat]? = some x := by
      rw [← Option.isSome_iff_exists, isSome_getElem?]
      omega
    obtain ⟨y, hy⟩ : ∃ y, (slot s name type).get? i = some y := by
      rw [← Option.isSome_iff_exists, PointVec.isSome_get?, PointVec.contains_iff]
      omega
    have hpoint : pointId + ((i - pointId).toNat : ℕ) = i := by omega
    rw [hx, hy, hrest _ x y (by omega) hx (by rw [hpoint]; exact hy)]
  · rw [hmulti]
    simp only [cells, slot_setSlot, and_self, if_true]
    rw [hget, if_neg (by omega)]

/-- **Bulk writes**: of a vector whose elements an `int` counts, a bulk write does what writes
one after another do, if and only if it does not begin inside the vector of a device; of a
longer one, if and only if it is refused or its passes fit. -/
theorem writesAgree_iff (name : String) (type : DataType) (pointId : ℤ)
    (vs : List (ValueWrap R)) (s : Store R) :
    WritesAgree name type pointId vs s ↔
      ((vs.length : ℤ) ≤ intMax →
        ¬ (name ∈ s ∧ 0 < pointId ∧ pointId < (slot s name type).size)) ∧
      (intMax < (vs.length : ℤ) →
        cells s (name, type, pointId) = none ∨ PassesFit name type pointId vs s) := by
  by_cases h : (cells s (name, type, pointId)).isSome
  swap
  · have hnone : cells s (name, type, pointId) = none := by simpa using h
    refine iff_of_true (writesAgree_of_none hnone vs) ⟨fun _ hin => ?_, fun _ => .inl hnone⟩
    exact h ((isSome_cells s name type pointId).mpr ⟨hin.1, by omega, hin.2.2⟩)
  obtain ⟨hmem, h0, hlt⟩ := (isSome_cells s name type pointId).mp h
  have hiff : WritesAgree name type pointId vs s ↔ PassesFit name type pointId vs s :=
    ⟨passesFit_of_agree h, agree_of_passesFit h⟩
  rw [hiff]
  by_cases hlen : (vs.length : ℤ) ≤ intMax
  · have hsize := intSize_eq hlen
    refine ⟨fun hfit => ⟨fun _ hin => ?_, fun hlong => by omega⟩, fun hshort => ?_⟩
    · have hreads := hfit.reads
      have hwrites := hfit.writes
      omega
    · have hzero : ¬ 0 < pointId := fun hpos => hshort.1 hlen ⟨hmem, hpos, hlt⟩
      obtain rfl : pointId = 0 := by omega
      refine ⟨by omega, by omega, by omega, fun i x y hi hx _ => ?_⟩
      rw [List.getElem?_eq_none (by omega)] at hx
      simp at hx
  · refine ⟨fun hfit => ⟨fun hshort => absurd hshort hlen, fun _ => .inr hfit⟩, fun hlong => ?_⟩
    refine (hlong.2 (by omega)).resolve_left ?_
    rw [← ne_eq, ← Option.isSome_iff_ne_none]
    exact h

/-- One value for the second point: the second pass takes a value that is not there. -/
theorem write_past_end : ¬ WritesAgree "D" .signal 1 [.int32 7] threePoints :=
  fun h => absurd (h.answer .unknown) (by decide)

end DataEngine.DataStorage
