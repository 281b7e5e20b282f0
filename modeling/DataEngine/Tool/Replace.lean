import DataEngine.Tool.ExpParser

/-!
The replacement of references, as what is handed over and what is left in the end.

The first range of a text reaches from its first `<` to the first `>` behind that. As long as
there is one, it is replaced by what the callback makes of the characters between; what the
callback makes of the same characters is always the same.
-/

namespace DataEngine.ExpParser

open Lib.Effect Tool

variable {ε σ : Type}

/-- The first range of a text. -/
structure Range (str pre src post : List Char) : Prop where
  split : str = pre ++ '<' :: (src ++ '>' :: post)
  first : '<' ∉ pre
  last : '>' ∉ src

/-- There is a range. -/
def Ranged (str : List Char) : Prop := ∃ pre src post, Range str pre src post

lemma ranged_iff {str : List Char} :
    Ranged str ↔ ∃ pre rest, str = pre ++ '<' :: rest ∧ '<' ∉ pre ∧ '>' ∈ rest := by
  constructor
  · rintro ⟨pre, src, post, h⟩
    exact ⟨pre, _, h.split, h.first, by simp⟩
  · rintro ⟨pre, rest, hstr, hpre, hrest⟩
    obtain ⟨src, post, rfl, hsrc⟩ := List.eq_append_cons_of_mem hrest
    exact ⟨pre, src, post, hstr, hpre, hsrc⟩

lemma not_ranged {str : List Char} (h : '<' ∉ str) : ¬ Ranged str := fun ⟨_, _, _, hr⟩ =>
  h (by simp [hr.split])

lemma Range.unique {str pre pre' src src' post post' : List Char} (h : Range str pre src post)
    (h' : Range str pre' src' post') : pre = pre' ∧ src = src' ∧ post = post' := by
  obtain ⟨rfl, hrest⟩ := split_unique h.first h'.first (h.split.symm.trans h'.split)
  obtain ⟨rfl, rfl⟩ := split_unique h.last h'.last hrest
  exact ⟨rfl, rfl, rfl⟩

/-- What the code looks for finds the range. -/
lemma Range.find {str pre src post : List Char} (h : Range str pre src post) :
    find '<' str 0 = some pre.length ∧
      find '>' str pre.length = some (pre.length + 1 + src.length) := by
  obtain ⟨rfl, hfirst, hlast⟩ := h
  refine ⟨find_append hfirst, ?_⟩
  rw [find_from, ← List.cons_append, find_append (by simp [hlast])]
  simp
  omega

lemma noRange_iff {str : List Char} : NoRange '<' '>' str ↔ ¬ Ranged str := by
  constructor
  · rintro h ⟨pre, src, post, hr⟩
    have hnone := h _ hr.find.1
    rw [hr.find.2] at hnone
    simp at hnone
  · intro h pos1 hpos
    have hmem : '<' ∈ str := by
      by_contra hmem
      rw [find_eq_none.mpr hmem] at hpos
      simp at hpos
    obtain ⟨pre, rest, rfl, hpre⟩ := List.eq_append_cons_of_mem hmem
    obtain rfl : pre.length = pos1 := Option.some.inj ((find_append hpre).symm.trans hpos)
    rw [find_from, Option.map_eq_none_iff, find_eq_none, List.mem_cons, not_or]
    refine ⟨by decide, fun hrest => h (ranged_iff.mpr ⟨pre, rest, rfl, hpre, hrest⟩)⟩

/-! ### The loop -/

section Loop

variable {func : List Char → Prog ε σ (List Char)}

lemma replaceLoop_range {str pre src post : List Char} (h : Range str pre src post) (n : ℕ) :
    replaceLoop '<' '>' func (n + 1) str =
      func src >>= fun dst => replaceLoop '<' '>' func n (pre ++ dst ++ post) := by
  have hsrc : substr str (pre.length + 1) (pre.length + 1 + src.length - pre.length - 1) = src := by
    have hlen : pre.length + 1 + src.length - pre.length - 1 = src.length := by omega
    rw [hlen, h.split, substr, ← List.drop_drop, List.drop_left, List.drop_one, List.tail_cons,
      List.take_left]
  have hpost : str.drop (pre.length + 1 + src.length + 1) = post := by
    rw [h.split, Nat.add_assoc, Nat.add_assoc, ← List.drop_drop, List.drop_left,
      ← List.drop_drop, List.drop_one, List.tail_cons, ← List.drop_drop, List.drop_left]
    rfl
  have hpre : str.take pre.length = pre := by
    rw [h.split, List.take_left]
  rw [replaceLoop, h.find.1]
  simp only
  rw [h.find.2]
  simp only [hsrc, hpost, hpre]

lemma replaceLoop_done {str : List Char} (h : ¬ Ranged str) (n : ℕ) :
    replaceLoop '<' '>' func n str = pure str := by
  cases n with
  | zero => rfl
  | succ n =>
    have hnone := noRange_iff.mpr h
    rw [replaceLoop]
    rcases h1 : find '<' str 0 with _ | pos1
    · rfl
    · simp only [hnone pos1 h1]

/-- What replacing with the answers `f` comes to: the text that is left, or the exception of a
piece handed over. -/
inductive Replaced (f : List Char → Except ε (List Char)) :
    List Char → Except ε (List Char) → Prop where
  | done {str : List Char} (h : ¬ Ranged str) : Replaced f str (.ok str)
  | raised {str pre src post : List Char} {e : ε} (h : Range str pre src post)
      (he : f src = .error e) : Replaced f str (.error e)
  | step {str pre src post dst : List Char} {r : Except ε (List Char)}
      (h : Range str pre src post) (hd : f src = .ok dst) (hr : Replaced f (pre ++ dst ++ post) r) :
      Replaced f str r

/-- The piece is handed over while the text is replaced. -/
inductive Handed (f : List Char → Except ε (List Char)) : List Char → List Char → Prop where
  | now {str pre src post : List Char} (h : Range str pre src post) : Handed f str src
  | later {str pre src post dst piece : List Char} (h : Range str pre src post)
      (hd : f src = .ok dst) (hp : Handed f (pre ++ dst ++ post) piece) : Handed f str piece

lemma count_range {str pre src post dst : List Char} (h : Range str pre src post)
    (hdst : '<' ∉ dst) : (pre ++ dst ++ post).count '<' < str.count '<' := by
  rw [h.split]
  simp [List.count_eq_zero_of_not_mem hdst]

variable {f : List Char → Except ε (List Char)}

/-- The loop, for a callback that answers `f` and keeps `I`. -/
lemma replaceRangeStr_spec {I : σ → Prop}
    (hf : ∀ src s, I s → (exec (func src) s).1 = f src ∧ I (exec (func src) s).2)
    (hno : ∀ src dst, f src = .ok dst → '<' ∉ dst) {str : List Char} {s : σ} (hs : I s) :
    Replaced f str (exec (replaceRangeStr '<' '>' func str) s).1 ∧
      I (exec (replaceRangeStr '<' '>' func str) s).2 := by
  unfold replaceRangeStr
  have hn : str.count '<' < str.count '<' + 1 := Nat.lt_succ_self _
  generalize str.count '<' + 1 = n at hn
  induction n generalizing str s with
  | zero => omega
  | succ n ih =>
    by_cases hr : Ranged str
    swap
    · rw [replaceLoop_done hr]
      exact ⟨.done hr, hs⟩
    obtain ⟨pre, src, post, hrange⟩ := hr
    rw [replaceLoop_range hrange]
    obtain ⟨hans, hI⟩ := hf src s hs
    rcases he : exec (func src) s with ⟨e | dst, t⟩
    · rw [exec_bind_error he]
      rw [he] at hans hI
      exact ⟨.raised hrange hans.symm, hI⟩
    · rw [exec_bind_ok he]
      rw [he] at hans hI
      have hlt : (pre ++ dst ++ post).count '<' < str.count '<' :=
        count_range hrange (hno src dst hans.symm)
      have hn' : (pre ++ dst ++ post).count '<' < n := by omega
      obtain ⟨hrest, hI'⟩ := ih hI hn'
      exact ⟨.step hrange hans.symm hrest, hI'⟩

end Loop

section Replaced

variable {f : List Char → Except ε (List Char)} {str : List Char}

lemma Replaced.unique {r r' : Except ε (List Char)} (h : Replaced f str r)
    (h' : Replaced f str r') : r = r' := by
  induction h with
  | done hno =>
    cases h' with
    | done => rfl
    | raised hr | step hr => exact absurd ⟨_, _, _, hr⟩ hno
  | raised hr he =>
    cases h' with
    | done hno => exact absurd ⟨_, _, _, hr⟩ hno
    | raised hr' he' =>
      obtain ⟨-, rfl, -⟩ := hr.unique hr'
      rw [← Except.error.inj (he.symm.trans he')]
    | step hr' hd' =>
      obtain ⟨-, rfl, -⟩ := hr.unique hr'
      simp [he] at hd'
  | step hr hd _ ih =>
    cases h' with
    | done hno => exact absurd ⟨_, _, _, hr⟩ hno
    | raised hr' he' =>
      obtain ⟨-, rfl, -⟩ := hr.unique hr'
      simp [hd] at he'
    | step hr' hd' hrest =>
      obtain ⟨rfl, rfl, rfl⟩ := hr.unique hr'
      obtain rfl := Except.ok.inj (hd.symm.trans hd')
      exact ih hrest

/-- An exception is that of a piece handed over. -/
lemma Replaced.error_iff {r : Except ε (List Char)} (h : Replaced f str r) (e : ε) :
    r = .error e ↔ ∃ src, Handed f str src ∧ f src = .error e := by
  constructor
  · rintro rfl
    generalize hr : (Except.error e : Except ε (List Char)) = r at h
    induction h with
    | done => simp at hr
    | raised hrange he => exact ⟨_, .now hrange, by rw [he, ← hr]⟩
    | step hrange hd _ ih =>
      obtain ⟨src, hsrc, he⟩ := ih hr
      exact ⟨src, .later hrange hd hsrc, he⟩
  · rintro ⟨src, hsrc, he⟩
    refine h.unique ?_
    clear h
    induction hsrc with
    | now hrange => exact .raised hrange he
    | later hrange hd _ ih => exact .step hrange hd (ih he)

/-- Answers that agree on what is handed over. -/
lemma Replaced.congr {ε' : Type} {g : List Char → Except ε' (List Char)} {out : List Char}
    (h : Replaced f str (.ok out))
    (hg : ∀ src dst, f src = .ok dst → g src = .ok dst) : Replaced g str (.ok out) := by
  generalize hr : (Except.ok out : Except ε (List Char)) = r at h
  induction h with
  | done hno =>
    obtain rfl := Except.ok.inj hr
    exact .done hno
  | raised => simp at hr
  | step hrange hd _ ih => exact .step hrange (hg _ _ hd) (ih hr)

end Replaced

/-! ### Calls of the callback -/

/-- The callback, with a list of what it has been called with. -/
def recorded (func : List Char → Prog ε σ (List Char)) (src : List Char) :
    Prog ε (σ × List (List Char)) (List Char) :=
  ExceptT.mk fun p => ((exec (func src) p.1).1, (exec (func src) p.1).2, p.2 ++ [src])

/-- Literal pieces with references between them, each with the literal piece behind it. -/
def joined (lit : List Char) (refs : List (List Char × List Char)) : List Char :=
  lit ++ refs.flatMap fun ref => '<' :: (ref.1 ++ '>' :: ref.2)

/-- The literal pieces with texts in the place of the references. -/
def filled (lit : List Char) (refs : List (List Char × List Char)) (dsts : List (List Char)) :
    List Char := lit ++ (refs.zip dsts).flatMap fun p => p.2 ++ p.1.2

section Calls

variable {func : List Char → Prog ε σ (List Char)}

lemma exec_recorded (src : List Char) (s : σ) (calls : List (List Char)) :
    exec (recorded func src) (s, calls) =
      ((exec (func src) s).1, (exec (func src) s).2, calls ++ [src]) := rfl

variable (func) in
/-- The list changes nothing in what the loop does. -/
lemma exec_replaceLoop_recorded (n : ℕ) (str : List Char) (s : σ) (calls : List (List Char)) :
    ∃ srcs, exec (replaceLoop '<' '>' (recorded func) n str) (s, calls) =
      ((exec (replaceLoop '<' '>' func n str) s).1, (exec (replaceLoop '<' '>' func n str) s).2,
        srcs) := by
  induction n generalizing str s calls with
  | zero => exact ⟨calls, rfl⟩
  | succ n ih =>
    by_cases hr : Ranged str
    swap
    · rw [replaceLoop_done hr, replaceLoop_done hr]
      exact ⟨calls, rfl⟩
    obtain ⟨pre, src, post, hrange⟩ := hr
    rw [replaceLoop_range hrange, replaceLoop_range hrange, exec_bind, exec_bind, exec_recorded]
    rcases exec (func src) s with ⟨e | dst, t⟩
    · exact ⟨calls ++ [src], rfl⟩
    · exact ih _ t _

/-- The loop comes to an end, and to the same with every allowance of passes that is no less
than the number of `<`. -/
lemma replaceLoop_end
    (hopen : ∀ src s dst t, exec (func src) s = (.ok dst, t) → '<' ∉ dst) (str : List Char) (s : σ)
    (calls : List (List Char)) :
    ∃ r t srcs, (∀ n, str.count '<' ≤ n →
        exec (replaceLoop '<' '>' (recorded func) n str) (s, calls) = (r, t, calls ++ srcs)) ∧
      srcs.length ≤ str.count '<' ∧ ∀ out, r = .ok out → NoRange '<' '>' out := by
  induction hk : str.count '<' using Nat.strong_induction_on generalizing str s calls with
  | _ k ih =>
    by_cases hr : Ranged str
    swap
    · refine ⟨.ok str, s, [], fun n _ => ?_, by simp, ?_⟩
      · rw [replaceLoop_done hr, exec_pure, List.append_nil]
      · rintro out hout
        obtain rfl := Except.ok.inj hout
        exact noRange_iff.mpr hr
    obtain ⟨pre, src, post, hrange⟩ := hr
    have hpos : 0 < k := by
      rw [← hk, hrange.split]
      simp
    rcases he : exec (func src) s with ⟨e | dst, t⟩
    · -- the exception of the first piece ends the loop
      refine ⟨.error e, t, [src], fun n hn => ?_, hpos, by simp⟩
      obtain ⟨n, rfl⟩ := Nat.exists_eq_succ_of_ne_zero (by omega : n ≠ 0)
      rw [replaceLoop_range hrange]
      refine exec_bind_error ?_
      rw [exec_recorded, he]
    · have hlt : (pre ++ dst ++ post).count '<' < k := by
        rw [← hk]
        exact count_range hrange (hopen src s dst t he)
      obtain ⟨r, u, srcs, hrun, hlen, hend⟩ := ih _ hlt (pre ++ dst ++ post) t (calls ++ [src]) rfl
      refine ⟨r, u, src :: srcs, fun n hn => ?_, by simp only [List.length_cons]; omega, hend⟩
      obtain ⟨n, rfl⟩ := Nat.exists_eq_succ_of_ne_zero (by omega : n ≠ 0)
      rw [replaceLoop_range hrange, exec_bind_ok (a := dst) (t := (t, calls ++ [src])),
        hrun n (by omega), List.append_assoc, List.singleton_append]
      rw [exec_recorded, he]

lemma joined_cons (lit body post : List Char) (refs : List (List Char × List Char)) :
    joined lit ((body, post) :: refs) =
      lit ++ '<' :: (body ++ '>' :: joined post refs) := by
  simp [joined]

lemma length_le_count (lit : List Char) (refs : List (List Char × List Char)) :
    refs.length ≤ (joined lit refs).count '<' := by
  induction refs generalizing lit with
  | nil => simp
  | cons ref refs ih =>
    rw [joined_cons, List.length_cons]
    have h := ih ref.2
    simp
    omega

/-- The references of an alternation are replaced one after the other. -/
lemma replaceLoop_joined
    (hopen : ∀ src s dst t, exec (func src) s = (.ok dst, t) → '<' ∉ dst) {lit : List Char}
    {refs : List (List Char × List Char)} (hlit : '<' ∉ lit)
    (hrefs : ∀ ref ∈ refs, '>' ∉ ref.1 ∧ '<' ∉ ref.2) {n : ℕ} (hn : refs.length ≤ n) (s : σ)
    (calls : List (List Char)) :
    ∃ r t srcs, exec ((refs.map Prod.fst).mapM func) s = (r, t) ∧
      exec (replaceLoop '<' '>' (recorded func) n (joined lit refs)) (s, calls) =
        (filled lit refs <$> r, t, calls ++ srcs) ∧
      srcs <+: refs.map Prod.fst ∧ ∀ dsts, r = .ok dsts → srcs = refs.map Prod.fst := by
  induction refs generalizing lit n s calls with
  | nil =>
    have hno : ¬ Ranged (joined lit []) := not_ranged (by simpa [joined] using hlit)
    refine ⟨.ok [], s, [], rfl, ?_, List.nil_prefix, fun _ _ => rfl⟩
    rw [replaceLoop_done hno, exec_pure, List.append_nil]
    rfl
  | cons ref refs ih =>
    obtain ⟨body, post⟩ := ref
    obtain ⟨⟨hbody, hpost⟩, hrefs⟩ := List.forall_mem_cons.mp hrefs
    obtain ⟨n, rfl⟩ := Nat.exists_eq_succ_of_ne_zero
      (by simp only [List.length_cons] at hn; omega : n ≠ 0)
    have hrange : Range (joined lit ((body, post) :: refs)) lit body (joined post refs) :=
      ⟨joined_cons lit body post refs, hlit, hbody⟩
    rw [replaceLoop_range hrange, List.map_cons, List.mapM_cons]
    rcases he : exec (func body) s with ⟨e | dst, t⟩
    · refine ⟨.error e, t, [body], exec_bind_error he, ?_, ?_, by simp⟩
      · refine exec_bind_error ?_
        rw [exec_recorded, he]
      · exact (List.prefix_append [body] _)
    · have hdst := hopen body s dst t he
      -- what is put in joins the literal pieces on both sides
      have hjoin : lit ++ dst ++ joined post refs = joined (lit ++ dst ++ post) refs := by
        simp [joined]
      have hlit' : '<' ∉ lit ++ dst ++ post := by simp [hlit, hdst, hpost]
      obtain ⟨r, u, srcs, hmap, hrun, hpre, hall⟩ := ih hlit' hrefs
        (by simpa using hn) t (calls ++ [body])
      refine ⟨(dst :: ·) <$> r, u, body :: srcs, ?_, ?_, ?_, ?_⟩
      · rw [exec_bind_ok he, exec_bind, hmap]
        cases r <;> rfl
      · rw [exec_bind_ok (a := dst) (t := (t, calls ++ [body])), hjoin, hrun,
          List.append_assoc calls, List.singleton_append]
        · cases r with
          | error e => rfl
          | ok dsts => simp [filled]
        · rw [exec_recorded, he]
      · exact (List.prefix_cons_inj body).mpr hpre
      · intro dsts hr
        cases r with
        | error e => simp at hr
        | ok dsts => rw [hall dsts rfl]

lemma exec_replaceRangeStr_of_recorded {str : List Char} {s t : σ} {r : Except ε (List Char)}
    {srcs : List (List Char)}
    (h : exec (replaceRangeStr '<' '>' (recorded func) str) (s, []) = (r, t, srcs)) :
    exec (replaceRangeStr '<' '>' func str) s = (r, t) := by
  obtain ⟨srcs', hrun⟩ := exec_replaceLoop_recorded func (str.count '<' + 1) str s []
  obtain ⟨hr, hrest⟩ := Prod.mk.inj (hrun.symm.trans h)
  exact Prod.ext hr (Prod.mk.inj hrest).1

/-- **Replacement in order**: if the callback answers no `<`, the loop ends after at most as many
replacements as there are `<`, whatever more is allowed. In literal pieces with references between
them, it is the references that are replaced: the callback is called with each of them once, from
left to right, up to an exception of its own. -/
theorem replaceRangeStr_calls
    (hopen : ∀ src s dst t, exec (func src) s = (.ok dst, t) → '<' ∉ dst) (str : List Char)
    (s : σ) :
    (∃ r t srcs, exec (replaceRangeStr '<' '>' func str) s = (r, t) ∧
      (∀ n, str.count '<' ≤ n →
        exec (replaceLoop '<' '>' (recorded func) n str) (s, []) = (r, t, srcs)) ∧
      srcs.length ≤ str.count '<' ∧ ∀ out, r = .ok out → NoRange '<' '>' out) ∧
    ∀ lit refs, str = joined lit refs → '<' ∉ lit → (∀ ref ∈ refs, '>' ∉ ref.1 ∧ '<' ∉ ref.2) →
      ∃ r t srcs, exec ((refs.map Prod.fst).mapM func) s = (r, t) ∧
        exec (replaceRangeStr '<' '>' func str) s = (filled lit refs <$> r, t) ∧
        exec (replaceRangeStr '<' '>' (recorded func) str) (s, []) =
          (filled lit refs <$> r, t, srcs) ∧
        srcs <+: refs.map Prod.fst ∧ ∀ dsts, r = .ok dsts → srcs = refs.map Prod.fst := by
  constructor
  · obtain ⟨r, t, srcs, hrun, hlen, hend⟩ := replaceLoop_end hopen str s []
    exact ⟨r, t, srcs, exec_replaceRangeStr_of_recorded (hrun _ (Nat.le_succ _)), hrun, hlen, hend⟩
  · rintro lit refs rfl hlit hrefs
    have hn := (length_le_count lit refs).trans (Nat.le_succ _)
    obtain ⟨r, t, srcs, hmap, hrun, hpre, hall⟩ := replaceLoop_joined hopen hlit hrefs hn s []
    exact ⟨r, t, srcs, hmap, exec_replaceRangeStr_of_recorded hrun, hrun, hpre, hall⟩

end Calls

/-- The two references of `a<b><c>`, with a callback that counts its calls. -/
theorem two_references_replaced :
    let func : List Char → Prog Fault ℕ (List Char) := fun _ => do
      modify (· + 1)
      pure ['7']
    let str := ['a', '<', 'b', '>', '<', 'c', '>']
    (∀ src s dst t, exec (func src) s = (.ok dst, t) → '<' ∉ dst) ∧
      exec (replaceRangeStr '<' '>' func str) 0 = (.ok ['a', '7', '7'], 2) ∧
      exec (replaceRangeStr '<' '>' (recorded func) str) (0, []) =
        (.ok ['a', '7', '7'], 2, [['b'], ['c']]) := by
  intro func str
  have hopen : ∀ src s dst t, exec (func src) s = (.ok dst, t) → '<' ∉ dst := by
    intro src s dst t h
    obtain rfl : ['7'] = dst := Except.ok.inj (congrArg Prod.fst h)
    decide
  obtain ⟨r, t, srcs, hmap, hrun, hrec, -, hall⟩ :=
    (replaceRangeStr_calls hopen str 0).2 ['a'] [(['b'], []), (['c'], [])] rfl (by decide)
      (by decide)
  obtain ⟨rfl, rfl⟩ : Except.ok [['7'], ['7']] = r ∧ 2 = t := Prod.mk.inj hmap
  obtain rfl := hall _ rfl
  exact ⟨hopen, hrun, hrec⟩

end DataEngine.ExpParser
