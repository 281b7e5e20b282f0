import DataEngine.Data.Reference
import DataEngine.Tool.Split

/-!
Formulas over points, evaluated through their text.

The text of a formula is calculated by replacing each reference with the text of its value and
reading what is left. A reference reaches from `<` to `>`, and these are operators too: the
first `<` of the text, whatever it stands for, is taken with the next `>`.
-/

namespace DataEngine.DataStorage

open ExpParser Tool Lib.Effect Lib.Precedence

variable {R : Type}

/-- A reference `<device#index>`. -/
structure Ref where
  device : List Char
  index : List Char
  free : ∀ c ∈ device, c ∉ ['<', '>', '#']
  digits : index ≠ [] ∧ ∀ c ∈ index, c.isDigit = true

namespace Ref

def body (r : Ref) : List Char := r.device ++ '#' :: r.index

def text (r : Ref) : List Char := '<' :: (r.body ++ ['>'])

def pointId (r : Ref) : ℤ := digitsValue r.index

lemma not_mem_index {r : Ref} {c : Char} (hc : c.isDigit = false) : c ∉ r.index := fun h => by
  rw [r.digits.2 c h] at hc
  simp at hc

lemma open_not_mem_body (r : Ref) : '<' ∉ r.body := by
  simp only [body, List.mem_append, List.mem_cons, not_or]
  exact ⟨fun h => r.free _ h (by decide), by decide, not_mem_index (by decide)⟩

lemma close_not_mem_body (r : Ref) : '>' ∉ r.body := by
  simp only [body, List.mem_append, List.mem_cons, not_or]
  exact ⟨fun h => r.free _ h (by decide), by decide, not_mem_index (by decide)⟩

/-- With a device name, the reference is cut in two. -/
lemma splitStr_body (r : Ref) (h : r.device ≠ []) : splitStr '#' r.body = [r.device, r.index] := by
  have hdevice : '#' ∉ r.device := fun hmem => r.free _ hmem (by decide)
  have hindex : '#' ∉ r.index := not_mem_index (by decide)
  have hjoin : Joinable '#' [r.device, r.index] :=
    ⟨by simp [h, r.digits.1], by simp [hdevice, hindex]⟩
  have hbody : r.body = ['#'].intercalate [r.device, r.index] := by simp [body, List.intercalate]
  rw [hbody, splitStr_join hjoin]
  rfl

lemma stoi_index (r : Ref) (h : r.pointId ≤ intMax) : stoi r.index = .ok r.pointId := by
  obtain ⟨c, cs, hcs⟩ := List.exists_cons_of_ne_nil r.digits.1
  have hdigit : c.isDigit = true := r.digits.2 c (by simp [hcs])
  have hspace : isSpace c = false := not_isSpace (isNumberChar_iff.mpr (.inl hdigit))
  have hdrop : r.index.dropWhile isSpace = r.index := by
    rw [hcs, List.dropWhile_cons_of_neg (by simp [hspace])]
  have hsign {d : Char} (hd : d.isDigit = false) : r.index.head? ≠ some d := by
    rw [hcs, List.head?_cons]
    rintro ⟨⟩
    simp [hdigit] at hd
  have htake : r.index.takeWhile Char.isDigit = r.index :=
    List.takeWhile_eq_self_iff.mpr r.digits.2
  have hmin : intMin ≤ r.pointId := by
    have : (0 : ℤ) ≤ r.pointId := Int.natCast_nonneg _
    simp only [intMin]
    omega
  unfold stoi
  simp only [hdrop, hsign (d := '-') (by decide), hsign (d := '+') (by decide), or_self, if_false,
    htake, r.digits.1]
  exact if_pos ⟨hmin, h⟩

end Ref

abbrev Leaf : Type := Literal ⊕ Ref

def leafText : Leaf → List Char := Sum.elim Literal.text Ref.text

/-- The value is a number. -/
def IsNumber : ValueWrap R → Prop
  | .string _ | .bool _ | .unknown | .empty => False
  | _ => True

section Holds

variable [Double R] (env : Env R) (s : Store R)

/-- The reference resolves to the number `x`. -/
def Holds (r : Ref) (x : R) : Prop :=
  ∃ value, cells s (String.ofList r.device, .measure, r.pointId) = some value ∧ IsNumber value ∧
    transValueToDouble env value = .ok x

variable {env s}

lemma transValueToString_number {value : ValueWrap R} {x : R} (hnumber : IsNumber value)
    (hx : transValueToDouble env value = .ok x) :
    transValueToString env .measure value = .ok (some (Double.toText x)) := by
  cases value with
  | string | bool | unknown | empty => exact absurd hnumber id
  | _ =>
    simp only [transValueToString, hx]
    rfl

/-- A number is put in as it is printed. -/
lemma Holds.resolve {r : Ref} {x : R} (h : Holds env s r x) (hr : r.device ≠ []) :
    resolve env s .measure r.body = .ok (Double.toText x).toList := by
  obtain ⟨value, hcell, hnumber, hx⟩ := h
  have hmax : r.pointId ≤ intMax := by
    obtain ⟨-, -, hlt⟩ := (isSome_cells s (String.ofList r.device) .measure r.pointId).mp
      (by rw [hcell]; rfl)
    have := (slot s (String.ofList r.device) .measure).bound
    unfold PointVec.size at hlt
    omega
  unfold DataStorage.resolve
  simp only [r.splitStr_body hr, r.stoi_index hmax, hcell, transValueToString_number hnumber hx]

end Holds

/-! ### Which words of a text delimit -/

/-- The word holds a `<` that begins no reference. -/
def Opens : Word Leaf → Prop
  | .op .lt | .op .le => True
  | _ => False

/-- The word holds a `>`. -/
def Closes : Word Leaf → Prop
  | .op .gt | .op .ge | .leaf (.inr _) => True
  | _ => False

/-- No `<` or `<=` comes before a `>`. -/
def Clear (ws : List (Word Leaf)) : Prop := ws.Pairwise fun w w' => Opens w → ¬ Closes w'

lemma delimiter_not_mem_literal (l : Literal) {c : Char} (hc : isNumberChar c = false) :
    c ∉ l.text := fun h => by
  rw [l.isLiteral.chars c h] at hc
  simp at hc

lemma open_not_mem {w : Word Leaf} (h : ¬ Opens w) (hr : ∀ r, w ≠ .leaf (.inr r)) :
    '<' ∉ w.text leafText := by
  cases w with
  | leaf a =>
    cases a with
    | inl l => exact delimiter_not_mem_literal l (by decide)
    | inr r => exact absurd rfl (hr r)
  | op o => cases o <;> first | exact absurd trivial h | simp [Word.text, BinOp.text]
  | _ => simp [Word.text]

lemma close_not_mem {w : Word Leaf} (h : ¬ Closes w) : '>' ∉ w.text leafText := by
  cases w with
  | leaf a =>
    cases a with
    | inl l => exact delimiter_not_mem_literal l (by decide)
    | inr r => exact absurd trivial h
  | op o => cases o <;> first | exact absurd trivial h | simp [Word.text, BinOp.text]
  | _ => simp [Word.text]

lemma not_mem_blank {sp : List Char} (h : Blank sp) {c : Char} (hc : isSpace c = false) :
    c ∉ sp := fun hmem => by
  rw [h c hmem] at hc
  simp at hc

lemma close_not_mem_text {ws : List (Word Leaf)} {cs : List Char} (h : ∀ w ∈ ws, ¬ Closes w)
    (hs : Spaced (ws.map (Word.text leafText)) cs) : '>' ∉ cs := by
  induction ws generalizing cs with
  | nil =>
    obtain ⟨hsp⟩ := hs
    exact not_mem_blank hsp (by decide)
  | cons w ws ih =>
    obtain _ | ⟨hsp, hs⟩ := hs
    obtain ⟨hw, hws⟩ := List.forall_mem_cons.mp h
    exact List.not_mem_append
      (List.not_mem_append (not_mem_blank hsp (by decide)) (close_not_mem hw)) (ih hws hs)

lemma close_mem_text {ws : List (Word Leaf)} {cs : List Char} (h : ∃ w ∈ ws, Closes w)
    (hs : Spaced (ws.map (Word.text leafText)) cs) : '>' ∈ cs := by
  induction ws generalizing cs with
  | nil => simp at h
  | cons w ws ih =>
    obtain _ | ⟨-, hs⟩ := hs
    obtain ⟨w', hw', hc⟩ := h
    rcases List.mem_cons.mp hw' with rfl | hmem
    · refine List.mem_append_left _ (List.mem_append_right _ ?_)
      cases w' with
      | leaf a =>
        cases a with
        | inl l => exact absurd hc id
        | inr r => simp [Word.text, leafText, Ref.text]
      | op o => cases o <;> first | exact absurd hc id | simp [Word.text, BinOp.text]
      | _ => exact absurd hc id
    · exact List.mem_append_right _ (ih ⟨w', hmem, hc⟩ hs)

/-- The text of a `<` or `<=`. -/
lemma Opens.text {w : Word Leaf} (h : Opens w) :
    ∃ t, w.text leafText = '<' :: t ∧ '>' ∉ t ∧ '#' ∉ t := by
  cases w with
  | op o => cases o <;> first | exact absurd h id | exact ⟨_, rfl, by simp, by simp⟩
  | _ => exact absurd h id

/-- Where no `<` has come before, a reference is the first range. -/
lemma Ref.range (r : Ref) {pre sp cs : List Char} (h : '<' ∉ pre ++ sp) :
    Range (pre ++ (sp ++ r.text ++ cs)) (pre ++ sp) r.body cs :=
  ⟨by simp [Ref.text], h, r.close_not_mem_body⟩

/-- A `<` or `<=` that no `>` follows begins no range. -/
lemma Opens.not_ranged {w : Word Leaf} (hw : Opens w) {pre sp cs : List Char}
    (hpre : '<' ∉ pre ++ sp) (hcs : '>' ∉ cs) :
    ¬ Ranged (pre ++ (sp ++ w.text leafText ++ cs)) := by
  obtain ⟨t, ht, hclose, -⟩ := hw.text
  rintro ⟨a, src, post, hr⟩
  have hsplit : (pre ++ sp) ++ '<' :: (t ++ cs) = a ++ '<' :: (src ++ '>' :: post) := by
    rw [← hr.split, ht]
    simp
  have heq := (split_unique hpre hr.first hsplit).2
  exact List.not_mem_append hclose hcs (by simp [heq])

/-! ### What is put in -/

section Put

variable (pick : Ref → Bool × Literal)

/-- The words a word is replaced by, with what is printed for each reference. -/
def put : Word Leaf → List (Word Literal)
  | .leaf (.inl l) => [.leaf l]
  | .leaf (.inr r) => if (pick r).1 then [.op .sub, .leaf (pick r).2] else [.leaf (pick r).2]
  | .op o => [.op o]
  | .bang => [.bang]
  | .opening => [.opening]
  | .closing => [.closing]
  | .question => [.question]
  | .colon => [.colon]

def putLeaf : Leaf → Formula Literal
  | .inl l => .leaf l
  | .inr r => if (pick r).1 then .sign .neg (.leaf (pick r).2) else .leaf (pick r).2

lemma replaces_put :
    Replaces BinOp.level 7 wordRoles wordRoles (putLeaf pick) fun w us => us = put pick w where
  leaf := by
    rintro w us a rfl rfl
    cases a with
    | inl l => exact .leaf rfl
    | inr r =>
      simp only [put, putLeaf]
      split_ifs
      · exact .sign rfl (.leaf rfl)
      · exact .leaf rfl
  sign := by
    rintro w us u rfl rfl
    cases u <;> exact ⟨_, rfl, rfl⟩
  binary := by
    rintro w us o rfl rfl
    exact ⟨_, rfl, rfl⟩
  opening := by
    rintro w us rfl rfl
    exact ⟨_, rfl, rfl⟩
  closing := by
    rintro w us rfl rfl
    exact ⟨_, rfl, rfl⟩
  question := by
    rintro w us rfl rfl
    exact ⟨_, rfl, rfl⟩
  colon := by
    rintro w us rfl rfl
    exact ⟨_, rfl, rfl⟩

/-- The text of a word that is no reference stays. -/
lemma put_text {w : Word Leaf} (h : ∀ r, w ≠ .leaf (.inr r)) :
    (put pick w).map (Word.text Literal.text) = [w.text leafText] := by
  cases w with
  | leaf a =>
    cases a with
    | inl l => rfl
    | inr r => exact absurd rfl (h r)
  | _ => rfl

lemma spaced_put {ws : List (Word Leaf)} {cs : List Char} (hr : ∀ w ∈ ws, ∀ r, w ≠ .leaf (.inr r))
    (h : Spaced (ws.map (Word.text leafText)) cs) :
    Spaced ((ws.flatMap (put pick)).map (Word.text Literal.text)) cs := by
  have hmap : (ws.flatMap (put pick)).map (Word.text Literal.text) =
      ws.map (Word.text leafText) := by
    induction ws generalizing cs with
    | nil => rfl
    | cons w ws ih =>
      obtain ⟨hw, hws⟩ := List.forall_mem_cons.mp hr
      obtain _ | ⟨-, hs⟩ := h
      rw [List.flatMap_cons, List.map_append, put_text pick hw, ih hws hs]
      rfl
  rwa [hmap]

/-- The text a reference is replaced by. -/
def putText (r : Ref) : List Char :=
  (if (pick r).1 then ['-'] else []) ++ (pick r).2.text

lemma open_not_mem_putText (r : Ref) : '<' ∉ putText pick r := by
  unfold putText
  refine List.not_mem_append ?_ (delimiter_not_mem_literal _ (by decide))
  split_ifs <;> simp

lemma Spaced.append_putText {r : Ref} {sp cs : List Char} {ws : List (Word Literal)}
    (hsp : Blank sp) (h : Spaced (ws.map (Word.text Literal.text)) cs) :
    Spaced ((put pick (.leaf (.inr r)) ++ ws).map (Word.text Literal.text))
      (sp ++ putText pick r ++ cs) := by
  unfold putText
  simp only [put]
  split_ifs
  · have hs := Spaced.cons (w := ['-']) hsp (Spaced.cons (w := (pick r).2.text) blank_nil h)
    simpa [Word.text, BinOp.text] using hs
  · simpa [Word.text] using Spaced.cons (w := (pick r).2.text) hsp h

/-- **Substitution**: in a text in which no `<` or `<=` comes before a `>`, the references are
replaced one after the other, and nothing else is. -/
lemma replaced_put {ε : Type} {f : List Char → Except ε (List Char)} {ws : List (Word Leaf)}
    (hf : ∀ r, .leaf (.inr r) ∈ ws → f r.body = .ok (putText pick r)) (hclear : Clear ws)
    {pre cs : List Char} (hpre : '<' ∉ pre) (h : Spaced (ws.map (Word.text leafText)) cs) :
    ∃ out, Replaced f (pre ++ cs) (.ok (pre ++ out)) ∧
      Spaced ((ws.flatMap (put pick)).map (Word.text Literal.text)) out := by
  induction ws generalizing pre cs with
  | nil =>
    obtain ⟨hsp⟩ := h
    have hopen : '<' ∉ pre ++ cs := List.not_mem_append hpre (not_mem_blank hsp (by decide))
    exact ⟨cs, .done (not_ranged hopen), .nil hsp⟩
  | cons w ws ih =>
    obtain _ | @⟨sp, _, cs, _, hsp, hs⟩ := h
    obtain ⟨hw, hws⟩ := List.pairwise_cons.mp hclear
    have hf' : ∀ r, .leaf (.inr r) ∈ ws → f r.body = .ok (putText pick r) := fun r hr =>
      hf r (List.mem_cons_of_mem _ hr)
    have hstem : '<' ∉ pre ++ sp := List.not_mem_append hpre (not_mem_blank hsp (by decide))
    by_cases hopens : Opens w
    · -- nothing after the operator closes a range
      have hclose : ∀ w' ∈ ws, ¬ Closes w' := fun w' hw' => hw w' hw' hopens
      refine ⟨sp ++ w.text leafText ++ cs,
        .done (hopens.not_ranged hstem (close_not_mem_text hclose hs)),
        spaced_put pick (List.forall_mem_cons.mpr ⟨?_, ?_⟩) (.cons hsp hs)⟩
      · rintro r rfl
        exact hopens
      · rintro w' hw' r rfl
        exact hclose _ hw' trivial
    by_cases href : ∃ r, w = .leaf (.inr r)
    · obtain ⟨r, rfl⟩ := href
      have hstem' : '<' ∉ pre ++ sp ++ putText pick r :=
        List.not_mem_append hstem (open_not_mem_putText pick r)
      obtain ⟨out, hout, hspaced⟩ := ih hf' hws hstem' hs
      refine ⟨sp ++ putText pick r ++ out, ?_, ?_⟩
      · have hstep := Replaced.step (r.range hstem) (hf r List.mem_cons_self) hout
        simpa [Word.text, leafText] using hstep
      · rw [List.flatMap_cons]
        exact Spaced.append_putText pick hsp hspaced
    · have href : ∀ r, w ≠ .leaf (.inr r) := fun r hr => href ⟨r, hr⟩
      have hstem' : '<' ∉ pre ++ sp ++ w.text leafText :=
        List.not_mem_append hstem (open_not_mem hopens href)
      obtain ⟨out, hout, hspaced⟩ := ih hf' hws hstem' hs
      refine ⟨sp ++ w.text leafText ++ out, by simpa using hout, ?_⟩
      rw [List.flatMap_cons, List.map_append, put_text pick href]
      exact .cons hsp hspaced

end Put

/-! ### What else is handed over -/

/-- The references of the words have device names. -/
def Named (ws : List (Word Leaf)) : Prop := ∀ r, .leaf (.inr r) ∈ ws → r.device ≠ []

/-- Every `#` comes behind a `<`. -/
def Behind (cs : List Char) : Prop := ∀ a b, cs = a ++ b → '#' ∈ a → '<' ∈ a

lemma behind_open (cs : List Char) : Behind ('<' :: cs) := by
  intro a b hcut ha
  cases a with
  | nil => simp at ha
  | cons c a =>
    obtain ⟨rfl, -⟩ := List.cons.inj hcut
    simp

lemma behind_append {u v : List Char} (hu : '#' ∉ u) (hv : Behind v) : Behind (u ++ v) := by
  intro a b hcut ha
  rcases List.append_eq_append_iff.mp hcut with ⟨t, rfl, ht⟩ | ⟨t, rfl, -⟩
  · have hmem : '#' ∈ t := (List.mem_append.mp ha).resolve_left hu
    exact List.mem_append_right u (hv t b ht hmem)
  · exact absurd (List.mem_append_left t ha) hu

lemma behind_text {ws : List (Word Leaf)} {cs : List Char}
    (hs : Spaced (ws.map (Word.text leafText)) cs) : Behind cs := by
  induction ws generalizing cs with
  | nil =>
    obtain ⟨hsp⟩ := hs
    have hempty : Behind [] := fun a b hcut ha => by
      obtain ⟨rfl, -⟩ := List.append_eq_nil_iff.mp hcut.symm
      simp at ha
    simpa using behind_append (not_mem_blank hsp (by decide)) hempty
  | cons w ws ih =>
    obtain _ | @⟨sp, _, cs, _, hsp, hs⟩ := hs
    rw [List.append_assoc]
    refine behind_append (not_mem_blank hsp (by decide)) ?_
    cases w with
    | leaf a =>
      cases a with
      | inl l => exact behind_append (delimiter_not_mem_literal l (by decide)) (ih hs)
      | inr r => exact behind_open _
    | op o =>
      refine behind_append ?_ (ih hs)
      cases o <;> simp [Word.text, BinOp.text]
    | _ => exact behind_append (by simp [Word.text]) (ih hs)

/-- The inside of a reference does not have this. -/
lemma Ref.not_behind (r : Ref) {src post : List Char} (h : Behind (src ++ post)) :
    src ≠ r.body := by
  rintro rfl
  exact r.open_not_mem_body (h _ _ rfl (by simp [body]))

section Other

variable {w : Word Leaf} {ws : List (Word Leaf)}

lemma clear_cons (h : ¬ Opens w) : Clear (w :: ws) ↔ Clear ws := by
  unfold Clear
  rw [List.pairwise_cons, and_iff_right fun _ _ ho => absurd ho h]

lemma named_cons (h : ∀ r, w = .leaf (.inr r) → r.device ≠ []) (hws : Named ws) :
    Named (w :: ws) := by
  intro r hr
  rcases List.mem_cons.mp hr with heq | hmem
  · exact h r heq.symm
  · exact hws r hmem

/-- Without a `>` nothing is left to be in the way. -/
lemma clear_of_not_closes (hw : Opens w) (h : ∀ w' ∈ ws, ¬ Closes w') :
    Clear (w :: ws) ∧ Named (w :: ws) := by
  refine ⟨List.pairwise_cons.mpr ⟨fun w' hw' _ => h w' hw', ?_⟩, named_cons ?_ fun r hr => ?_⟩
  · exact List.pairwise_of_forall_mem_list fun _ _ w' hw' _ => h w' hw'
  · rintro r rfl
    exact absurd hw id
  · exact absurd trivial (h _ hr)

/-- What reaches from a `<` or `<=` to a `>` is no reference. -/
lemma Opens.range (hw : Opens w) (hclose : ∃ w' ∈ ws, Closes w') {pre sp cs : List Char}
    (hpre : '<' ∉ pre ++ sp) (hs : Spaced (ws.map (Word.text leafText)) cs) :
    ∃ src post, Range (pre ++ (sp ++ w.text leafText ++ cs)) (pre ++ sp) src post ∧
      ∀ r : Ref, src ≠ r.body := by
  obtain ⟨t, ht, -, hhash⟩ := hw.text
  obtain ⟨src, post, hcut, hsrc⟩ := List.eq_append_cons_of_mem
    (List.mem_append_right t (close_mem_text hclose hs))
  refine ⟨src, post, ⟨?_, hpre, hsrc⟩, fun r => ?_⟩
  · rw [← hcut, ht]
    simp
  · exact r.not_behind (hcut ▸ behind_append hhash (behind_text hs))

/-- The inside of a reference to a device without a name. -/
lemma Ref.body_ne {r r' : Ref} (hr : r.device = []) (hr' : r'.device ≠ []) : r.body ≠ r'.body := by
  intro heq
  obtain ⟨c, ds, hds⟩ := List.exists_cons_of_ne_nil hr'
  obtain ⟨rfl, -⟩ : '#' = c ∧ _ := by simpa [body, hr, hds] using heq
  exact absurd (r'.free '#' (by simp [hds])) (by decide)

/-- **Other ranges**: if a `<` or `<=` comes before a `>`, or a device has no name, something is
handed over that is no reference of a device with a name. -/
lemma handed_other {ε : Type} (pick : Ref → Bool × Literal) {f : List Char → Except ε (List Char)}
    (hf : ∀ r, .leaf (.inr r) ∈ ws → r.device ≠ [] → f r.body = .ok (putText pick r))
    (hws : ¬ (Clear ws ∧ Named ws)) {pre cs : List Char} (hpre : '<' ∉ pre)
    (h : Spaced (ws.map (Word.text leafText)) cs) :
    ∃ src, Handed f (pre ++ cs) src ∧ ∀ r : Ref, r.device ≠ [] → src ≠ r.body := by
  induction ws generalizing pre cs with
  | nil => exact absurd ⟨List.Pairwise.nil, fun r hr => by simp at hr⟩ hws
  | cons w ws ih =>
    obtain _ | @⟨sp, _, cs, _, hsp, hs⟩ := h
    have hf' : ∀ r, .leaf (.inr r) ∈ ws → r.device ≠ [] → f r.body = .ok (putText pick r) :=
      fun r hr => hf r (List.mem_cons_of_mem _ hr)
    have hstem : '<' ∉ pre ++ sp := List.not_mem_append hpre (not_mem_blank hsp (by decide))
    by_cases hopens : Opens w
    · by_cases hclose : ∃ w' ∈ ws, Closes w'
      · obtain ⟨src, post, hrange, hno⟩ := hopens.range hclose hstem hs
        exact ⟨src, .now hrange, fun r _ => hno r⟩
      · exact absurd (clear_of_not_closes hopens fun w' hw' hc => hclose ⟨w', hw', hc⟩) hws
    by_cases hname : ∀ r, w = .leaf (.inr r) → r.device ≠ []
    swap
    · -- a reference to a device without a name is handed over itself
      simp only [not_forall, not_not] at hname
      obtain ⟨r, rfl, hname⟩ := hname
      exact ⟨r.body, .now (r.range hstem), fun r' hr' => Ref.body_ne hname hr'⟩
    have hrest : ¬ (Clear ws ∧ Named ws) := fun ⟨hc, hn⟩ =>
      hws ⟨(clear_cons hopens).mpr hc, named_cons hname hn⟩
    by_cases href : ∃ r, w = .leaf (.inr r)
    · obtain ⟨r, rfl⟩ := href
      have hstem' : '<' ∉ pre ++ sp ++ putText pick r :=
        List.not_mem_append hstem (open_not_mem_putText pick r)
      obtain ⟨src, hsrc, hno⟩ := ih hf' hrest hstem' hs
      exact ⟨src, .later (r.range hstem) (hf r List.mem_cons_self (hname r rfl)) hsrc, hno⟩
    · have href : ∀ r, w ≠ .leaf (.inr r) := fun r hr => href ⟨r, hr⟩
      have hstem' : '<' ∉ pre ++ sp ++ w.text leafText :=
        List.not_mem_append hstem (open_not_mem hopens href)
      obtain ⟨src, hsrc, hno⟩ := ih hf' hrest hstem' hs
      exact ⟨src, by simpa using hsrc, hno⟩

end Other

/-! ### The value of the text -/

variable [Double R]

section Text

variable {value : Literal → R} {env : Env R} {s : Store R} {ws : List (Word Leaf)}
  {e : Formula Leaf} {expr : String} {point : Ref → R}

/-- The references of the words resolve to numbers of at most six decimals. -/
def Resolved (env : Env R) (s : Store R) (ws : List (Word Leaf)) (point : Ref → R) : Prop :=
  ∀ r, .leaf (.inr r) ∈ ws → Holds env s r (point r) ∧ SixDecimals (point r)

/-- What is printed for each reference, as it is put in. -/
lemma Resolved.pick (h : Resolved env s ws point) :
    ∃ pick : Ref → Bool × Literal, ∀ r, .leaf (.inr r) ∈ ws →
      Printed (point r) (pick r).1 (pick r).2 ∧
      (r.device ≠ [] → answer env s .measure r.body = .ok (putText pick r)) := by
  have hprinted : ∀ r, .leaf (.inr r) ∈ ws → ∃ p : Bool × Literal, Printed (point r) p.1 p.2 :=
    fun r hr => by
      obtain ⟨minus, l, hl⟩ := (h r hr).2
      exact ⟨(minus, l), hl⟩
  choose! pick hpick using hprinted
  refine ⟨pick, fun r hr => ⟨hpick r hr, fun hname => ?_⟩⟩
  rw [answer_of_resolve ((h r hr).1.resolve hname), (hpick r hr).text]
  rfl

/-- The literals that are left are those of the text and those that are printed. -/
lemma mem_leaves_put {pick : Ref → Bool × Literal} (hws : Phrase 8 ws e) {l : Literal}
    (hl : l ∈ (e.bind (putLeaf pick)).leaves) :
    .leaf (.inl l) ∈ ws ∨ ∃ r, .leaf (.inr r) ∈ ws ∧ l = (pick r).2 := by
  have hput : Phrase 8 (ws.flatMap (put pick)) (e.bind (putLeaf pick)) :=
    hws.spread (replaces_put pick) (spread_flatMap _ ws)
  obtain ⟨w, hw, hmem⟩ := List.mem_flatMap.mp ((hput.mem_leaves l).mpr hl)
  cases w with
  | leaf a =>
    cases a with
    | inl l' =>
      obtain rfl : l = l' := by simpa [put] using hmem
      exact .inl hw
    | inr r =>
      refine .inr ⟨r, hw, ?_⟩
      simp only [put] at hmem
      split_ifs at hmem <;> simpa using hmem
  | _ => simp [put] at hmem

/-- **Homomorphism**: of a text whose references resolve, in which no `<` or `<=` comes before
a `>` and every device has a name, the value stored is that of the formula with each reference
bound to its value. In any other such text the callback is handed something that is no
reference of a device with a name. -/
theorem getExprValue_text (hp : Printing R) (hws : Phrase 8 ws e)
    (hstod : ∀ l, .leaf (.inl l) ∈ ws → Double.stod l.text = .ok (value l))
    (hexpr : Spaced (ws.map (Word.text leafText)) expr.toList) (hpoint : Resolved env s ws point)
    (data : ValueWrap R) :
    (Clear ws ∧ Named ws → (exec (getExprValue env .measure expr data) s).1 =
      .ok (some (.double ((eval (e.map (Sum.elim value point))).getD (Double.ofInt 0))))) ∧
    (¬ (Clear ws ∧ Named ws) → ∃ src, Handed (answer env s .measure) expr.toList src ∧
      ∀ r : Ref, r.device ≠ [] → src ≠ r.body) := by
  obtain ⟨pick, hpick⟩ := hpoint.pick
  refine ⟨fun ⟨hclear, hname⟩ => ?_, fun hother => ?_⟩
  swap
  · exact handed_other pick (fun r hr => (hpick r hr).2) hother (List.not_mem_nil) hexpr
  obtain ⟨out, hout, hspaced⟩ := replaced_put pick (fun r hr => (hpick r hr).2 (hname r hr)) hclear
    (List.not_mem_nil) hexpr
  -- what is left is a text of the formula with the printed values put in
  have htext : IsText Literal.text (e.bind (putLeaf pick)) out :=
    ⟨_, hws.spread (replaces_put pick) (spread_flatMap _ ws), hspaced⟩
  have hread : ∀ l ∈ (e.bind (putLeaf pick)).leaves, Double.stod l.text = .ok (l.double : R) := by
    intro l hl
    obtain hmem | ⟨r, hr, rfl⟩ := mem_leaves_put hws hl
    · exact Literal.stod_double ⟨_, hstod l hmem⟩
    · obtain ⟨v, hv, -⟩ := (hpick r hr).1.read
      exact Literal.stod_double ⟨v, hv⟩
  have hvalue : eval ((e.bind (putLeaf pick)).map Literal.double) =
      eval (e.map (Sum.elim value point)) := by
    rw [Expr.map, Expr.bind_bind]
    refine hws.eval_congr fun a ha => ?_
    cases a with
    | inl l =>
      have hl : (l.double : R) = value l := by
        rw [Literal.double, hstod l ha]
        rfl
      simp only [putLeaf, Expr.bind, Sum.elim_inl, hl]
    | inr r =>
      obtain ⟨v, hv, hx⟩ := (hpick r ha).1.read
      obtain rfl : (pick r).2.double = v := by
        rw [Literal.double, hv]
        rfl
      simp only [putLeaf, Sum.elim_inr]
      split_ifs at hx ⊢
      all_goals
        rw [← hx]
        rfl
  obtain ⟨left, hleft, hexec⟩ :
      ∃ left, Left env s .measure expr.toList left ∧ _ := exec_getExprValue hp expr data
  obtain rfl := hleft.unique hout
  have hcalculate := (htext.denotes hread (env.unset out)).calculate
  rw [hvalue] at hcalculate
  rw [hexec]
  simp only [List.nil_append, bind, Except.bind, computed, hcalculate]
  rfl

end Text

/-- The reference to the point of `fivePoint`. -/
def five : Ref where
  device := ['D']
  index := ['0']
  free := by simp
  digits := by simp

lemma five_holds : Holds ownEnv fivePoint five 5 := ⟨.double 5, by decide +kernel, trivial, rfl⟩

lemma five_sixDecimals : SixDecimals (5 : ℚ) := sixDecimals_of_int 5 5000000 (by norm_num)

lemma resolved_five {ws : List (Word Leaf)} (h : ∀ r, .leaf (.inr r) ∈ ws → r = five) :
    Resolved ownEnv fivePoint ws fun _ => 5 := by
  intro r hr
  obtain rfl := h r hr
  exact ⟨five_holds, five_sixDecimals⟩

theorem getExprValue_text_sum :
    (exec (getExprValue ownEnv .measure "<D#0>+1" .unknown) fivePoint).1 =
      .ok (some (.double 6)) := by
  let one : Literal := ⟨['1'], by decide⟩
  let ws : List (Word Leaf) := [.leaf (.inr five), .op .add, .leaf (.inl one)]
  have hspaced : Spaced [five.text, ['+'], ['1']] "<D#0>+1".toList := .flatten _
  have hws : Phrase 8 ws _ := phrase_leaves .add (Sum.inr five) (Sum.inl one)
  have hpoint : Resolved ownEnv fivePoint ws fun _ => 5 := resolved_five (by simp [ws])
  have hstod (l : Literal) (_ : .leaf (.inl l) ∈ ws) : Double.stod l.text = .ok l.value :=
    l.stod_value
  have h := (getExprValue_text printing_rational hws hstod hspaced hpoint .unknown).1
    ⟨by simp [ws, Clear, Opens], by simp [ws, Named, five]⟩
  exact h.trans (by decide +kernel)

/-- The `<` of a comparison takes the next reference with it. -/
theorem comparison_lost :
    ¬ ∀ (ws : List (Word Leaf)) (e : Formula Leaf) (expr : String), Phrase 8 ws e →
      Spaced (ws.map (Word.text leafText)) expr.toList →
      Resolved ownEnv fivePoint ws (fun _ => 5) → ∀ v,
      eval (e.map (Sum.elim Literal.value fun _ => 5)) = some v →
      (exec (getExprValue ownEnv .measure expr .unknown) fivePoint).1 =
        .ok (some (.double v)) := by
  intro h
  let two : Literal := ⟨['2'], by decide⟩
  let ws : List (Word Leaf) := [.leaf (.inl two), .op .lt, .leaf (.inr five)]
  have hspaced : Spaced [['2'], ['<'], five.text] "2<<D#0>".toList := .flatten _
  have hpoint : Resolved ownEnv fivePoint ws fun _ => 5 := resolved_five (by simp [ws])
  have hws : Phrase 8 ws _ := phrase_leaves .lt (Sum.inl two) (Sum.inr five)
  have hone := h ws _ "2<<D#0>" hws hspaced hpoint 1 (by decide +kernel)
  have htwo : (exec (getExprValue ownEnv .measure "2<<D#0>" .unknown) fivePoint).1 =
      .ok (some (.double 2)) := by decide +kernel
  rw [htwo] at hone
  simp at hone

end DataEngine.DataStorage
