import DataEngine.Tool.Tool

/-!
What `splitStr` makes of a string: its pieces between the separators, without the empty ones, or
nothing if there is no separator.
-/

namespace DataEngine.Tool

/-- `splitStr` on the vector it is given -/
def splitStrTo (symbol : Char) (str : List Char) (result : List (List Char)) : List (List Char) :=
  match find symbol str 0 with
  | none => result
  | some pos1 => splitLoop symbol str (str.length + 1) 0 (some pos1) result

lemma splitStr_eq_splitStrTo (symbol : Char) (str : List Char) :
    splitStr symbol str = splitStrTo symbol str [] := rfl

/-- The pieces between the separators, the empty ones left out -/
def pieces (symbol : Char) (str : List Char) : List (List Char) :=
  (str.splitOn symbol).filter (· ≠ [])

lemma push_eq (tmp : List Char) (result : List (List Char)) :
    push tmp result = result ++ [tmp].filter (· ≠ []) := by
  unfold push
  split_ifs with h <;> simp [h]

lemma mem_of_find {c : Char} {str : List Char} {i : ℕ} (h : find c str 0 = some i) : c ∈ str := by
  by_contra hc
  rw [find_eq_none.mpr hc] at h
  cases h

/-- What stands before the separator that is found first does not hold it. -/
lemma exists_split_of_find {c : Char} {str : List Char} {i : ℕ} (h : find c str 0 = some i) :
    ∃ u v, str = u ++ c :: v ∧ c ∉ u ∧ i = u.length := by
  obtain ⟨u, v, rfl, hu⟩ := List.eq_append_cons_of_mem (mem_of_find h)
  refine ⟨u, v, rfl, hu, ?_⟩
  rw [find_append hu] at h
  exact (Option.some.inj h).symm

/-- The loop, at a piece that begins behind `pre`, with a pass for every character left. -/
lemma splitLoop_eq (symbol : Char) (pre post : List Char) (n : ℕ) (hn : post.length < n)
    (result : List (List Char)) :
    splitLoop symbol (pre ++ post) n pre.length (find symbol (pre ++ post) pre.length) result =
      result ++ pieces symbol post := by
  induction n generalizing pre post result with
  | zero => omega
  | succ n ih =>
    rw [find_from]
    rcases hfind : find symbol post 0 with _ | i
    · -- the last piece
      rw [Option.map_none, splitLoop, List.drop_left, push_eq, pieces,
        List.splitOn_eq_singleton (find_eq_none.mp hfind)]
    · obtain ⟨u, v, rfl, hu, rfl⟩ := exists_split_of_find hfind
      have hpiece :
          substr (pre ++ (u ++ symbol :: v)) pre.length (u.length + pre.length - pre.length) =
            u := by
        simp [substr]
      have hcut : pre ++ (u ++ symbol :: v) = (pre ++ (u ++ [symbol])) ++ v := by simp
      have hpos : u.length + pre.length + 1 = (pre ++ (u ++ [symbol])).length := by
        simp only [List.length_append, List.length_singleton]
        omega
      rw [List.length_append, List.length_cons] at hn
      rw [Option.map_some, splitLoop, hpiece, hcut, hpos, ih _ v (by omega), push_eq, pieces,
        pieces, List.splitOn_append_cons_self_of_not_mem hu, List.append_assoc,
        ← List.filter_append]
      rfl

lemma splitStrTo_eq (symbol : Char) (str : List Char) (result : List (List Char)) :
    splitStrTo symbol str result =
      result ++ if symbol ∈ str then pieces symbol str else [] := by
  unfold splitStrTo
  rcases hfind : find symbol str 0 with _ | i
  · rw [if_neg (find_eq_none.mp hfind), List.append_nil]
  · have hloop := splitLoop_eq symbol [] str (str.length + 1) (Nat.lt_succ_self _) result
    rw [List.nil_append, List.length_nil, hfind] at hloop
    rw [if_pos (mem_of_find hfind)]
    exact hloop

/-- A list is joined by what does not occur in its elements. -/
structure Joinable (symbol : Char) (strs : List (List Char)) : Prop where
  nonempty : ∀ str ∈ strs, str ≠ []
  free : ∀ str ∈ strs, symbol ∉ str

lemma pieces_join {symbol : Char} {strs : List (List Char)} (h : Joinable symbol strs)
    (hne : strs ≠ []) : pieces symbol ([symbol].intercalate strs) = strs := by
  rw [pieces, List.splitOn_intercalate symbol h.free hne]
  exact List.filter_eq_self.mpr fun str hstr => by simpa using h.nonempty str hstr

/-- A separator stands between two elements. -/
lemma mem_join {symbol : Char} {strs : List (List Char)} (h : Joinable symbol strs) :
    symbol ∈ [symbol].intercalate strs ↔ 2 ≤ strs.length := by
  rcases strs with _ | ⟨a, _ | ⟨b, strs⟩⟩
  · simp [List.intercalate]
  · simpa [List.intercalate] using h.free a List.mem_cons_self
  · simp [List.intercalate]

/-- What is joined by a separator comes apart again, if there are two elements or more. -/
lemma splitStr_join {symbol : Char} {strs : List (List Char)} (h : Joinable symbol strs) :
    splitStr symbol ([symbol].intercalate strs) = if 2 ≤ strs.length then strs else [] := by
  rw [splitStr_eq_splitStrTo, splitStrTo_eq, List.nil_append]
  simp only [mem_join h]
  split_ifs with hlen
  · exact pieces_join h (by rintro rfl; simp at hlen)
  · rfl

/-- **`splitStr`** appends the non-empty pieces if the separator occurs, and nothing otherwise. It
takes apart what has been joined of two elements or more. -/
theorem splitStr_spec (symbol : Char) :
    (∀ str result, splitStrTo symbol str result =
      result ++ if symbol ∈ str then (str.splitOn symbol).filter (· ≠ []) else []) ∧
    ∀ strs : List (List Char), 2 ≤ strs.length → (∀ str ∈ strs, str ≠ [] ∧ symbol ∉ str) →
      splitStrTo symbol ([symbol].intercalate strs) [] = strs := by
  refine ⟨splitStrTo_eq symbol, fun strs hlen hstrs => ?_⟩
  have hjoin : Joinable symbol strs :=
    ⟨fun str hstr => (hstrs str hstr).1, fun str hstr => (hstrs str hstr).2⟩
  rw [← splitStr_eq_splitStrTo, splitStr_join hjoin, if_pos hlen]

theorem two_joined : splitStrTo '#' "12#ab".toList [] = ["12".toList, "ab".toList] :=
  (splitStr_spec '#').2 ["12".toList, "ab".toList] (by decide) (by decide)

end DataEngine.Tool
