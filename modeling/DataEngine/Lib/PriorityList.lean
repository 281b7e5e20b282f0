import Mathlib

/-!
Lists kept in order of priority, first come first served among equals.

Entries are numbered as they come. An entry is placed before the first one of lower priority;
the mark of a priority is the number of that first entry, if there is one. How the marks of all
priorities change is said for an entry that is placed and for the first entry leaving.
-/

namespace Lib.PriorityList

structure Entry (ι α : Type) where
  number : ℕ
  prio : ι
  item : α
  deriving DecidableEq

variable {ι α : Type} [LinearOrder ι]

/-- Higher priority first, and among equals the lower number. -/
def Before (a b : Entry ι α) : Prop := b.prio < a.prio ∨ a.prio = b.prio ∧ a.number < b.number

lemma Before.prio_le {a b : Entry ι α} (h : Before a b) : b.prio ≤ a.prio := by
  rcases h with h | ⟨h, -⟩
  · exact h.le
  · exact h.ge

/-- Among equals the lower number first. -/
def InTurn (a b : Entry ι α) : Prop := a.prio = b.prio → a.number < b.number

lemma Before.inTurn {a b : Entry ι α} (h : Before a b) : InTurn a b := by
  intro hp
  rcases h with h | ⟨-, h⟩
  · exact absurd hp h.ne'
  · exact h

/-- Before the first entry of lower priority. -/
def place (e : Entry ι α) : List (Entry ι α) → List (Entry ι α)
  | [] => [e]
  | x :: xs => if x.prio < e.prio then e :: x :: xs else x :: place e xs

/-- The number of the first entry whose priority is lower than `p`. -/
def mark (p : ι) : List (Entry ι α) → Option ℕ
  | [] => none
  | x :: xs => if x.prio < p then some x.number else mark p xs

/-- The numbers of the entries are different. -/
def Distinct (xs : List (Entry ι α)) : Prop := (xs.map Entry.number).Nodup

variable {e x : Entry ι α} {xs : List (Entry ι α)} {p k : ι}

omit [LinearOrder ι] in
lemma distinct_cons : Distinct (x :: xs) ↔ (∀ y ∈ xs, y.number ≠ x.number) ∧ Distinct xs := by
  unfold Distinct
  rw [List.map_cons, List.nodup_cons]
  simp [List.mem_map]

lemma place_perm : (place e xs).Perm (e :: xs) := by
  induction xs with
  | nil => exact List.Perm.refl _
  | cons x xs ih =>
    unfold place
    split_ifs
    · exact List.Perm.refl _
    · exact (ih.cons x).trans (List.Perm.swap e x xs)

lemma mem_place {y : Entry ι α} : y ∈ place e xs ↔ y = e ∨ y ∈ xs := by
  rw [place_perm.mem_iff, List.mem_cons]

lemma length_place : (place e xs).length = xs.length + 1 := place_perm.length_eq

/-- A newcomer leaves the list in order. -/
lemma pairwise_place (h : xs.Pairwise Before) (hnew : ∀ y ∈ xs, y.number < e.number) :
    (place e xs).Pairwise Before := by
  induction xs with
  | nil => exact List.pairwise_singleton _ _
  | cons x xs ih =>
    obtain ⟨hx, hxs⟩ := List.pairwise_cons.mp h
    unfold place
    split_ifs with hlt
    · refine List.pairwise_cons.mpr ⟨fun y hy => .inl ?_, h⟩
      rcases List.mem_cons.mp hy with rfl | hy
      · exact hlt
      · exact (hx y hy).prio_le.trans_lt hlt
    · refine List.pairwise_cons.mpr ⟨fun y hy => ?_, ih hxs fun y hy => hnew y (by simp [hy])⟩
      rcases mem_place.mp hy with rfl | hy
      · rcases (not_lt.mp hlt).lt_or_eq with hp | hp
        · exact .inl hp
        · exact .inr ⟨hp.symm, hnew x (by simp)⟩
      · exact hx y hy

lemma distinct_place (h : Distinct xs) (hnew : ∀ y ∈ xs, y.number < e.number) :
    Distinct (place e xs) := by
  unfold Distinct
  rw [(place_perm.map Entry.number).nodup_iff]
  exact distinct_cons.mpr ⟨fun y hy => (hnew y hy).ne, h⟩

/-! ### Marks -/

lemma mem_of_mark {n : ℕ} (h : mark p xs = some n) : ∃ y ∈ xs, y.number = n ∧ y.prio < p := by
  induction xs with
  | nil => simp [mark] at h
  | cons x xs ih =>
    unfold mark at h
    split_ifs at h with hlt
    · exact ⟨x, by simp, by simpa using h, hlt⟩
    · obtain ⟨y, hy, hn⟩ := ih h
      exact ⟨y, by simp [hy], hn⟩

lemma mark_eq_none_iff : mark p xs = none ↔ ∀ y ∈ xs, p ≤ y.prio := by
  induction xs with
  | nil => simp [mark]
  | cons x xs ih =>
    unfold mark
    split_ifs with h
    · simp [h]
    · rw [List.forall_mem_cons, ih, and_iff_right (not_lt.mp h)]

lemma mark_ne_of_distinct (h : Distinct (x :: xs)) : mark p xs ≠ some x.number := by
  intro hm
  obtain ⟨y, hy, hn, -⟩ := mem_of_mark hm
  exact (distinct_cons.mp h).1 y hy hn

/-- Two marks are the same exactly if no entry lies between them. -/
lemma mark_eq_iff (hs : xs.Pairwise Before) (hd : Distinct xs) (hpk : p ≤ k) :
    mark k xs = mark p xs ↔ ∀ y ∈ xs, y.prio < k → y.prio < p := by
  induction xs with
  | nil => simp [mark]
  | cons x xs ih =>
    obtain ⟨hx, hs'⟩ := List.pairwise_cons.mp hs
    obtain ⟨-, hd'⟩ := distinct_cons.mp hd
    unfold mark
    by_cases hp : x.prio < p
    · simp only [if_pos hp, if_pos (hp.trans_le hpk), true_iff]
      intro y hy _
      rcases List.mem_cons.mp hy with rfl | hy
      · exact hp
      · exact (hx y hy).prio_le.trans_lt hp
    · by_cases hk : x.prio < k
      · simp only [if_neg hp, if_pos hk]
        constructor
        · intro h
          exact absurd h.symm (mark_ne_of_distinct hd)
        · intro h
          exact absurd (h x (by simp) hk) hp
      · simp only [if_neg hp, if_neg hk, ih hs' hd', List.forall_mem_cons]
        exact ⟨fun h => ⟨fun hx => absurd hx hk, h⟩, fun h => h.2⟩

/-- Once a mark is past the one of `p`, all higher ones are. -/
lemma mark_eq_of_le (hs : xs.Pairwise Before) (hd : Distinct xs) (hpk : p ≤ k) {l : ι}
    (hkl : k ≤ l) (h : mark l xs = mark p xs) : mark k xs = mark p xs := by
  rw [mark_eq_iff hs hd (hpk.trans hkl)] at h
  exact (mark_eq_iff hs hd hpk).mpr fun y hy hlt => h y hy (hlt.trans_le hkl)

/-- A placed entry is no mark of its own priority or a lower one. -/
lemma mark_place_of_le (h : k ≤ e.prio) : mark k (place e xs) = mark k xs := by
  induction xs with
  | nil => simp [place, mark, not_lt.mpr h]
  | cons x xs ih =>
    unfold place
    split_ifs with hlt
    · rw [mark, if_neg (not_lt.mpr h)]
    · rw [mark, mark, ih]

/-- It takes over the marks of higher priorities that were those of its own. -/
lemma mark_place_of_lt (hd : Distinct xs) (h : e.prio < k) :
    mark k (place e xs) = if mark k xs = mark e.prio xs then some e.number else mark k xs := by
  induction xs with
  | nil => simp [place, mark, h]
  | cons x xs ih =>
    obtain ⟨-, hd'⟩ := distinct_cons.mp hd
    unfold place
    by_cases hlt : x.prio < e.prio
    · rw [if_pos hlt, mark, if_pos h, mark, mark, if_pos (hlt.trans h), if_pos hlt, if_pos rfl]
    · by_cases hk : x.prio < k
      · simp only [mark, if_neg hlt, if_pos hk]
        rw [if_neg fun hm => mark_ne_of_distinct hd hm.symm]
      · simp only [mark, if_neg hlt, if_neg hk]
        exact ih hd'

/-- The first entry is the mark of the priorities above its own. -/
lemma mark_eq_first (hd : Distinct (x :: xs)) : mark k (x :: xs) = some x.number ↔ x.prio < k := by
  unfold mark
  split_ifs with h
  · simp [h]
  · simp only [h, iff_false]
    exact mark_ne_of_distinct hd

/-- When the first entry leaves, its marks pass to the next entry. -/
lemma mark_tail_of_lt (hs : (x :: xs).Pairwise Before) (h : x.prio < k) :
    mark k xs = xs.head?.map Entry.number := by
  cases xs with
  | nil => rfl
  | cons y ys =>
    have hy : y.prio < k := ((List.pairwise_cons.mp hs).1 y (by simp)).prio_le.trans_lt h
    rw [mark, if_pos hy]
    rfl

lemma mark_tail_of_le (h : k ≤ x.prio) : mark k (x :: xs) = mark k xs := by
  rw [mark, if_neg (not_lt.mpr h)]

/-! ### One priority -/

/-- The same entries, in turn, are in the same order as far as they are of one priority. -/
lemma filter_prio_eq_of_perm {ys : List (Entry ι α)} (h : xs.Perm ys) (hx : xs.Pairwise InTurn)
    (hy : ys.Pairwise InTurn) (p : ι) :
    xs.filter (·.prio = p) = ys.filter (·.prio = p) := by
  have hprio {zs : List (Entry ι α)} {a : Entry ι α} (ha : a ∈ zs.filter (·.prio = p)) :
      a.prio = p := of_decide_eq_true (List.mem_filter.mp ha).2
  have hlt {zs : List (Entry ι α)} (hz : zs.Pairwise InTurn) :
      (zs.filter (·.prio = p)).Pairwise fun a b => a.number < b.number :=
    (hz.filter _).imp_of_mem fun ha hb hab => hab ((hprio ha).trans (hprio hb).symm)
  refine (h.filter _).eq_of_pairwise (fun a b _ _ hab hba => ?_) (hlt hx) (hlt hy)
  exact absurd hab hba.asymm

/-! ### Renumbering -/

/-- The entries differ in their numbers at most. -/
def Alike (a b : Entry ι α) : Prop := a.prio = b.prio ∧ a.item = b.item

/-- Where an entry is placed does not depend on the numbers. -/
lemma alike_place {f : Entry ι α} {ys : List (Entry ι α)} (he : Alike e f)
    (h : List.Forall₂ Alike xs ys) :
    List.Forall₂ Alike (place e xs) (place f ys) := by
  induction h with
  | nil => exact .cons he .nil
  | @cons x y xs ys hxy h ih =>
    unfold place
    rw [← hxy.1, ← he.1]
    split_ifs
    · exact .cons he (.cons hxy h)
    · exact .cons hxy ih

end Lib.PriorityList
