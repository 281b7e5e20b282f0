import DataEngine.Data.DataStorage
import DataEngine.Lib.Memory
import DataEngine.Rational

/-!
The store as a map of points.

A point is a device, a type and an index. An access may insert entries without values, which
no later access sees; besides that, a read changes nothing and a write its own point.
-/

namespace DataEngine.DataStorage

open Lib.Effect Lib.Memory

variable {R : Type}

abbrev Point : Type := String × DataType × ℤ

/-- The values of the points. -/
def cells (s : Store R) : Cells Point (ValueWrap R) := fun p => (slot s p.1 p.2.1).get? p.2.2

/-! ### Vectors and entries -/

lemma PointVec.contains_iff {v : PointVec R} {i : ℤ} :
    v.contains i = true ↔ 0 ≤ i ∧ i < v.size := by
  simp [PointVec.contains]

lemma PointVec.isSome_get? (v : PointVec R) (i : ℤ) : (v.get? i).isSome = v.contains i := by
  rw [Bool.eq_iff_iff, PointVec.contains_iff, PointVec.get?, PointVec.size]
  split_ifs with h
  · rw [isSome_getElem?]
    omega
  · simp
    omega

lemma PointVec.get?_set {v : PointVec R} {i : ℤ} (h : v.contains i = true) (j : ℤ)
    (x : ValueWrap R) : (v.set i x).get? j = if j = i then some x else v.get? j := by
  obtain ⟨h0, hlt⟩ := PointVec.contains_iff.mp h
  unfold PointVec.size at hlt
  simp only [PointVec.get?, PointVec.set, List.getElem?_set]
  by_cases hj : j = i
  · subst hj
    rw [if_pos h0, if_pos rfl, if_pos rfl, if_pos (by omega)]
  · rw [if_neg hj]
    split_ifs <;> first | rfl | omega

@[simp] lemma PointVec.size_set (v : PointVec R) (i : ℤ) (x : ValueWrap R) :
    (v.set i x).size = v.size := by
  simp [PointVec.size, PointVec.set]

lemma slot_setSlot (s : Store R) (n m : String) (t u : DataType) (v : PointVec R) :
    slot (setSlot s n t v) m u = if m = n ∧ u = t then v else slot s m u := by
  unfold slot setSlot
  rw [Map.getElem?_insert]
  by_cases hm : m = n
  · subst hm
    rw [if_pos rfl, Option.bind_some, Map.getElem?_insert]
    by_cases hu : u = t
    · simp [hu]
    · cases s[m]? <;> simp [hu]
  · simp [hm]

lemma mem_setSlot (s : Store R) (n m : String) (t : DataType) (v : PointVec R) :
    m ∈ setSlot s n t v ↔ m = n ∨ m ∈ s := Map.mem_insert s n m _

lemma slot_of_not_mem {s : Store R} {n : String} (h : n ∉ s) (t : DataType) :
    slot s n t = .empty := by
  simp [slot, Std.ExtTreeMap.getElem?_eq_none h]

/-! ### Accesses -/

/-- Two stores with the same devices and the same values. -/
structure Same (s t : Store R) : Prop where
  mem (n : String) : n ∈ t ↔ n ∈ s
  slot (n : String) (u : DataType) : slot t n u = slot s n u

/-- Two stores with the same devices and the same numbers of points. -/
structure Shaped (s t : Store R) : Prop where
  mem (n : String) : n ∈ t ↔ n ∈ s
  size (n : String) (u : DataType) : (slot t n u).size = (slot s n u).size

lemma Same.refl (s : Store R) : Same s s := ⟨fun _ => .rfl, fun _ _ => rfl⟩

lemma Same.symm {s t : Store R} (h : Same s t) : Same t s :=
  ⟨fun n => (h.mem n).symm, fun n u => (h.slot n u).symm⟩

lemma Same.trans {s t u : Store R} (h : Same s t) (h' : Same t u) : Same s u :=
  ⟨fun n => (h'.mem n).trans (h.mem n), fun n v => (h'.slot n v).trans (h.slot n v)⟩

lemma Same.cells {s t : Store R} (h : Same s t) : cells t = cells s := by
  funext p
  simp [DataStorage.cells, h.slot]

lemma Same.shaped {s t : Store R} (h : Same s t) : Shaped s t :=
  ⟨h.mem, fun n u => by rw [h.slot]⟩

lemma Shaped.refl (s : Store R) : Shaped s s := (Same.refl s).shaped

lemma Shaped.trans {s t u : Store R} (h : Shaped s t) (h' : Shaped t u) : Shaped s u :=
  ⟨fun n => (h'.mem n).trans (h.mem n), fun n v => (h'.size n v).trans (h.size n v)⟩

lemma same_setSlot {s : Store R} {n : String} (h : n ∈ s) (t : DataType) :
    Same s (setSlot s n t (slot s n t)) := by
  refine ⟨fun m => ?_, fun m u => ?_⟩
  · rw [mem_setSlot]
    exact ⟨fun hm => hm.elim (fun e => e ▸ h) id, .inr⟩
  · rw [slot_setSlot]
    split_ifs with hm
    · rw [hm.1, hm.2]
    · rfl

lemma setSlot_setSlot (s : Store R) (n : String) (t : DataType) (v w : PointVec R) :
    setSlot (setSlot s n t v) n t w = setSlot s n t w := by
  have hentry : (setSlot s n t v)[n]?.getD ∅ = (s[n]?.getD ∅).insert t v := by
    simp [setSlot]
  refine Std.ExtTreeMap.ext_getElem? fun m => ?_
  unfold setSlot at hentry ⊢
  rw [hentry]
  simp only [Map.getElem?_insert]
  split_ifs
  · congr 1
    refine Std.ExtTreeMap.ext_getElem? fun u => ?_
    simp only [Map.getElem?_insert]
    split_ifs <;> rfl
  · rfl

/-- Writing back the values of an entry that holds some changes nothing. -/
lemma setSlot_slot {s : Store R} {n : String} {t : DataType} (h : 0 < (slot s n t).size) :
    setSlot s n t (slot s n t) = s := by
  obtain ⟨dev, hdev⟩ : ∃ dev, s[n]? = some dev := by
    cases hs : s[n]? with
    | none => simp [slot, hs, PointVec.size, PointVec.empty] at h
    | some dev => exact ⟨dev, rfl⟩
  obtain ⟨v, hv⟩ : ∃ v, dev[t]? = some v := by
    cases hd : dev[t]? with
    | none => simp [slot, hdev, hd, PointVec.size, PointVec.empty] at h
    | some v => exact ⟨v, rfl⟩
  have hslot : slot s n t = v := by
    simp [slot, hdev, hv]
  refine Std.ExtTreeMap.ext_getElem? fun m => ?_
  unfold setSlot
  rw [Map.getElem?_insert, hslot, hdev, Option.getD_some]
  split_ifs with hm
  · rw [hm, hdev]
    congr 1
    refine Std.ExtTreeMap.ext_getElem? fun u => ?_
    rw [Map.getElem?_insert]
    split_ifs with hu
    · rw [hu, hv]
    · rfl
  · rfl

/-- The points there are. -/
lemma isSome_cells (s : Store R) (n : String) (t : DataType) (i : ℤ) :
    (cells s (n, t, i)).isSome ↔ n ∈ s ∧ 0 ≤ i ∧ i < (slot s n t).size := by
  unfold cells
  rw [PointVec.isSome_get?, PointVec.contains_iff]
  by_cases hn : n ∈ s
  · simp [hn]
  · rw [slot_of_not_mem hn]
    simp [hn, PointVec.size, PointVec.empty]

lemma exec_vecData (s : Store R) (n : String) (t : DataType) :
    exec (vecData n t) s = (.ok (slot s n t), setSlot s n t (slot s n t)) := rfl

section Access

variable {α : Type} {s : Store R} {n : String} {t : DataType} {i : ℤ}

lemma exec_access_none (h : cells s (n, t, i) = none) (refused : α)
    (f : PointVec R → StoreM R α) :
    ∃ s', Same s s' ∧ exec (access n t i refused f) s = (.ok refused, s') := by
  have hout : ¬ (n ∈ s ∧ 0 ≤ i ∧ i < (slot s n t).size) := by
    rw [← isSome_cells, h]
    simp
  unfold access
  rw [exec_get_bind]
  by_cases hn : n ∈ s
  · have hrange : i < 0 ∨ (slot s n t).size ≤ i := by
      have := not_and.mp hout hn
      omega
    refine ⟨_, same_setSlot hn t, ?_⟩
    rw [if_neg (not_not.mpr hn), exec_bind_ok (exec_vecData s n t), if_pos hrange]
    rfl
  · exact ⟨s, .refl s, by rw [if_pos hn]; rfl⟩

lemma exec_access_some (h : (cells s (n, t, i)).isSome) (refused : α)
    (f : PointVec R → StoreM R α) :
    exec (access n t i refused f) s =
      exec (f (slot s n t)) (setSlot s n t (slot s n t)) := by
  obtain ⟨hn, h0, hlt⟩ := (isSome_cells s n t i).mp h
  unfold access
  rw [exec_get_bind, if_neg (not_not.mpr hn), exec_bind_ok (exec_vecData s n t), if_neg (by omega)]

end Access

/-- A read answers what the point holds and changes nothing. -/
lemma getValue_spec (s : Store R) (n : String) (t : DataType) (i : ℤ) :
    ∃ s', Same s s' ∧ exec (getValue n t i) s = (.ok (cells s (n, t, i)), s') := by
  unfold getValue
  cases h : cells s (n, t, i) with
  | none => exact exec_access_none h _ _
  | some x =>
    have hsome : (cells s (n, t, i)).isSome := by
      rw [h]
      rfl
    obtain ⟨hn, -, -⟩ := (isSome_cells s n t i).mp hsome
    have helem : (slot s n t).elem i = .ok x := by
      unfold cells at h
      simp only at h
      simp only [PointVec.elem, h]
    refine ⟨_, same_setSlot hn t, ?_⟩
    rw [exec_access_some hsome, helem]
    rfl

/-- A write. -/
lemma exec_updateValue {s : Store R} {n : String} {t : DataType} {i : ℤ}
    (h : (cells s (n, t, i)).isSome) (x : ValueWrap R) :
    exec (updateValue n t i x) s = (.ok true, setSlot s n t ((slot s n t).set i x)) := by
  unfold updateValue
  rw [exec_access_some h]
  show (Except.ok true, setSlot (setSlot s n t (slot s n t)) n t ((slot s n t).set i x)) = _
  rw [setSlot_setSlot]

/-- A write succeeds where there is a point, and changes no other. -/
lemma updateValue_spec (s : Store R) (n : String) (t : DataType) (i : ℤ) (x : ValueWrap R) :
    ∃ s', Shaped s s' ∧ cells s' = write (cells s) (n, t, i) x ∧
      exec (updateValue n t i x) s = (.ok (cells s (n, t, i)).isSome, s') := by
  by_cases h : (cells s (n, t, i)).isSome
  · obtain ⟨hn, h0, hlt⟩ := (isSome_cells s n t i).mp h
    refine ⟨_, ⟨fun m => ?_, fun m u => ?_⟩, ?_, by rw [exec_updateValue h, h]⟩
    · rw [mem_setSlot]
      exact ⟨fun hm => hm.elim (fun e => e ▸ hn) id, .inr⟩
    · rw [slot_setSlot]
      split_ifs with hm
      · rw [hm.1, hm.2, PointVec.size_set]
      · rfl
    · funext ⟨m, u, j⟩
      unfold write
      rw [if_pos h, Function.update_apply]
      simp only [cells, slot_setSlot, Prod.mk.injEq]
      by_cases hm : m = n ∧ u = t
      · rw [if_pos hm, PointVec.get?_set (PointVec.contains_iff.mpr ⟨h0, hlt⟩), hm.1, hm.2]
        simp
      · rw [if_neg hm, if_neg fun hp => hm ⟨hp.1, hp.2.1⟩]
  · have hnone : cells s (n, t, i) = none := by simpa using h
    obtain ⟨s', hsame, he⟩ := exec_access_none hnone false _
    refine ⟨s', hsame.shaped, ?_, ?_⟩
    · rw [hsame.cells, write, if_neg h]
    · rw [hnone]
      exact he

/-! ### A small store -/

/-- A device with three signal points. -/
def threePoints : Store ℚ :=
  setSlot ∅ "D" .signal ⟨[.int32 0, .int32 0, .int32 0], by simp [intMax]⟩

/-- Conversions of a value to its own type. -/
def ownType : Conversions ℚ where
  asInt8 := fun v => match v with | .int8 x => .ok x | _ => .error .runtimeError
  asInt := fun v => match v with | .int32 x => .ok x | _ => .error .runtimeError
  asInt64 := fun v => match v with | .int64 x => .ok x | _ => .error .runtimeError
  asUInt8 := fun v => match v with | .uint8 x => .ok x | _ => .error .runtimeError
  asUInt32 := fun v => match v with | .uint32 x => .ok x | _ => .error .runtimeError
  asUInt64 := fun v => match v with | .uint64 x => .ok x | _ => .error .runtimeError
  asFloat := fun v => match v with | .float x => .ok x | _ => .error .runtimeError
  asDouble := fun v => match v with | .double x => .ok x | _ => .error .runtimeError
  asString := fun v => match v with | .string x => .ok x | _ => .error .runtimeError

end DataEngine.DataStorage
