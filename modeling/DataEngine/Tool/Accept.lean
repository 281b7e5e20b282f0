import DataEngine.Tool.Language

/-!
What the parser accepts beyond its language.

The codes of the operators of two characters are letters, a number and `!=` share one code, and
every other character is a token of its own. So a text may be an expression to the parser that
is none: by a letter, by a number behind an operand, by `!=` in the place of one, by a number
with several points, or by a NUL that ends it early.
-/

namespace DataEngine.ExpParser

open Lib.Effect Lib.Precedence Tool

variable {R : Type}

/-- The token is read from the characters of a number. -/
def NumberRun (src : List Char) : Prop := ∃ c ∈ src.head?, isNumberChar c = true

/-- The token is one that ends an operand. -/
def EndsOperand (src : List Char) : Prop := NumberRun src ∨ src = [')']

/-- The token `src`, which comes behind `prev`, is what the language means by it. -/
structure Plain (prev src : List Char) : Prop where
  letter : src ∉ [['a'], ['o'], ['l'], ['g'], ['e'], ['n']]
  number : NumberRun src → IsLiteral src ∧ ¬ EndsOperand prev
  unequal : src = BinOp.ne.text → EndsOperand prev

/-- Nothing comes before the first token. -/
lemma not_endsOperand_nil : ¬ EndsOperand [] := by simp [EndsOperand, NumberRun]

lemma Literal.numberRun (l : Literal) : NumberRun l.text := by
  obtain ⟨c, cs, hl, hc⟩ := l.head
  exact ⟨c, by simp [hl], hc⟩

/-! ### In the language every token is plain -/

lemma not_endsOperand_before {w : Word Literal} (h : wordRoles.Before w) :
    ¬ EndsOperand (w.text Literal.text) := by
  obtain ⟨u, rfl⟩ | ⟨o, rfl⟩ | rfl | rfl | rfl := h
  · cases u <;> simp [EndsOperand, NumberRun, Word.text, BinOp.text, isNumberChar]
  · cases o <;> simp [EndsOperand, NumberRun, Word.text, BinOp.text, isNumberChar]
  all_goals simp [EndsOperand, NumberRun, Word.text, isNumberChar]

lemma endsOperand_ends {w : Word Literal} (h : wordRoles.Ends w) :
    EndsOperand (w.text Literal.text) := by
  obtain ⟨l, rfl⟩ | rfl := h
  · exact .inl l.numberRun
  · exact .inr rfl

/-- A word that begins an operand is plain where no operand ends. -/
lemma plain_starts {prev : List Char} {w : Word Literal} (hprev : ¬ EndsOperand prev)
    (h : wordRoles.Starts w) : Plain prev (w.text Literal.text) := by
  obtain ⟨l, rfl⟩ | ⟨u, rfl⟩ | rfl := h
  · obtain ⟨c, cs, hl, hc⟩ := l.head
    refine ⟨?_, fun _ => ⟨l.isLiteral, hprev⟩, ?_⟩
    · intro hmem
      simp only [Word.text, hl, List.mem_cons, List.cons.injEq, List.not_mem_nil, or_false] at hmem
      obtain ⟨rfl, -⟩ | ⟨rfl, -⟩ | ⟨rfl, -⟩ | ⟨rfl, -⟩ | ⟨rfl, -⟩ | ⟨rfl, -⟩ := hmem <;>
        simp [isNumberChar] at hc
    · intro hne
      simp only [Word.text, hl, BinOp.text, List.cons.injEq] at hne
      rw [hne.1] at hc
      simp [isNumberChar] at hc
  · cases u <;> constructor <;> simp [Word.text, BinOp.text, NumberRun, isNumberChar]
  · constructor <;> simp [Word.text, BinOp.text, NumberRun, isNumberChar]

/-- A word that comes after an operand is plain there. -/
lemma plain_after {prev : List Char} {w : Word Literal} (hprev : EndsOperand prev)
    (h : wordRoles.After w) : Plain prev (w.text Literal.text) := by
  obtain ⟨o, rfl⟩ | rfl | rfl | rfl := h
  · cases o <;> constructor <;> simp [Word.text, BinOp.text, NumberRun, isNumberChar, hprev]
  all_goals constructor <;> simp [Word.text, BinOp.text, NumberRun, isNumberChar]

lemma Spaced.end_not_mem {ws : List (Word Literal)} {cs : List Char}
    (h : Spaced (ws.map (Word.text Literal.text)) cs) : endToken ∉ cs := by
  have hblank {sp : List Char} (hsp : Blank sp) : endToken ∉ sp := fun hmem => by
    have hspace := hsp _ hmem
    simp [isSpace, endToken] at hspace
  induction ws generalizing cs with
  | nil =>
    obtain ⟨hsp⟩ := h
    exact hblank hsp
  | cons w ws ih =>
    obtain _ | ⟨hsp, hs⟩ := h
    have hw : endToken ∉ w.text Literal.text := by
      cases w with
      | leaf l =>
        intro hmem
        have hnum := l.isLiteral.chars _ hmem
        simp [isNumberChar, endToken] at hnum
      | op o => cases o <;> simp [Word.text, BinOp.text, endToken]
      | _ => simp [Word.text, endToken]
    simp only [List.mem_append, not_or]
    exact ⟨⟨hblank hsp, hw⟩, ih hs⟩

section Accept

variable [Double R]

/-- The tokens of a text of the language are plain, and no NUL is among its characters. -/
lemma InLanguage.plain {expr : List Char} (h : InLanguage expr) {v : R}
    {xs : List (Lexeme R)} (hxs : Lexed expr v xs) :
    endToken ∉ expr ∧ List.IsChain Plain ([] :: xs.map Lexeme.src) := by
  obtain ⟨e, ws, hws, hspaced⟩ := h
  have hsrc := hspaced.src_eq hws.neighbours_apart.chain hxs
  have hplain : Neighbours wordRoles
      (fun w w' => Plain (w.text Literal.text) (w'.text Literal.text)) ws :=
    Derives.neighbours (fun _ _ hb hs => plain_starts (not_endsOperand_before hb) hs)
      (fun _ _ he ha => plain_after (endsOperand_ends he) ha) hws
  refine ⟨hspaced.end_not_mem, List.isChain_cons.mpr ⟨fun s hs => ?_, ?_⟩⟩
  · obtain ⟨w, hw, hstart⟩ := hplain.starts
    rw [hsrc, List.head?_map, Option.mem_map] at hs
    obtain ⟨w', hw', rfl⟩ := hs
    obtain rfl := Option.mem_unique hw hw'
    exact plain_starts not_endsOperand_nil hstart
  · rw [hsrc]
    exact (List.isChain_map _).mpr hplain.chain

/-! ### An expression of plain tokens is in the language -/

/-- Without a NUL the tokens make up the whole text. -/
lemma Lexed.spaced {cs : List Char} {v : R} {xs : List (Lexeme R)} (h : Lexed cs v xs)
    (hcs : endToken ∉ cs) : Spaced (xs.map Lexeme.src) cs ∧ ∀ x ∈ xs, IsLexeme x := by
  have hblank (cs : List Char) : Blank (cs.takeWhile isSpace) := fun _ hc =>
    List.mem_takeWhile_imp hc
  induction h with
  | @stop cs v x hx hend =>
    obtain ⟨hcut, hlex | ⟨hsrc, -, hafter⟩⟩ := lexeme_spec hx
    · exfalso
      cases hlex with
      | number hne h hc => simp [hend, endToken] at hc
      | operator o hs hc => exact o.code_ne_end (hc.symm.trans hend)
      | other c hs hc h h' =>
        obtain rfl : c = endToken := hc.symm.trans hend
        exact hcs (by rw [hcut, hs]; simp)
    · rw [hsrc, hafter, List.append_nil, List.append_nil] at hcut
      rw [hcut]
      exact ⟨.nil (hblank cs), by simp⟩
  | @cons cs v x xs hx hne _ ih =>
    obtain ⟨hcut, hlex | ⟨-, hend, -⟩⟩ := lexeme_spec hx
    swap
    · exact absurd hend hne
    obtain ⟨hspaced, hall⟩ := ih fun hmem => hcs (by rw [hcut]; simp [hmem])
    refine ⟨?_, List.forall_mem_cons.mpr ⟨hlex, hall⟩⟩
    rw [hcut]
    exact .cons (hblank cs) hspaced

end Accept

section Words

/-- The word a plain token is read from, as the parser uses it. -/
lemma word_leaf {prev : List Char} {x : Lexeme R} (hx : IsLexeme x) (hp : Plain prev x.src)
    (hprev : ¬ EndsOperand prev) (hc : x.code = 'n') : IsLiteral x.src := by
  cases hx with
  | number hne h _ =>
    obtain ⟨c, cs, hs⟩ := List.exists_cons_of_ne_nil hne
    exact (hp.number ⟨c, by simp [hs], h c (by simp [hs])⟩).1
  | operator o hs ho =>
    obtain rfl : o = .ne := BinOp.code_inj (ho.symm.trans hc)
    exact absurd (hp.unequal hs) hprev
  | other c hs hcode _ _ =>
    obtain rfl : c = 'n' := hcode.symm.trans hc
    exact absurd hp.letter (by simp [hs])

lemma word_operator {prev : List Char} {x : Lexeme R} (hx : IsLexeme x) (hp : Plain prev x.src)
    (hprev : EndsOperand prev) {o : BinOp} (hc : x.code = o.code) : x.src = o.text := by
  cases hx with
  | number hne h _ =>
    obtain ⟨c, cs, hs⟩ := List.exists_cons_of_ne_nil hne
    exact absurd hprev (hp.number ⟨c, by simp [hs], h c (by simp [hs])⟩).2
  | operator o' hs ho =>
    obtain rfl : o' = o := BinOp.code_inj (ho.symm.trans hc)
    exact hs
  | other c hs hcode hnum hand =>
    obtain rfl : c = o.code := hcode.symm.trans hc
    have hletter := hp.letter
    rw [hs] at hletter ⊢
    cases o <;> first | rfl | simp [BinOp.code] at hletter hand

/-- A character that is no operator stands for itself. -/
lemma word_mark {x : Lexeme R} (hx : IsLexeme x) {c : Char} (hc : x.code = c)
    (h : c ∈ ['!', '(', ')', '?', ':']) : x.src = [c] := by
  cases hx with
  | number _ _ hn =>
    rw [← hc, hn] at h
    simp at h
  | operator o _ ho =>
    rw [← hc, ho] at h
    exact absurd h (by cases o <;> decide)
  | other d hs hd _ _ => rw [hs, ← hc, hd]

lemma word_minus {x : Lexeme R} (hx : IsLexeme x) (hc : x.code = '-') : x.src = ['-'] := by
  cases hx with
  | number _ _ hn =>
    rw [hn] at hc
    simp at hc
  | operator o hs ho =>
    obtain rfl : o = .sub := BinOp.code_inj (ho.symm.trans hc)
    exact hs
  | other d hs hd _ _ => rw [hs, ← hc, hd]

/-- The end of a list that a token and others follow on. -/
lemma isChain_split {r : List Char → List Char → Prop} {a b : List Char}
    {l₁ l₂ : List (List Char)} (h : (a :: (l₁ ++ b :: l₂)).IsChain r) :
    (a :: l₁).IsChain r ∧ (∀ s, (a :: l₁).getLast? = some s → r s b) ∧ (b :: l₂).IsChain r := by
  rw [← List.cons_append, List.isChain_append] at h
  exact ⟨h.1, fun s hs => h.2.2 s hs b rfl, h.2.1⟩

lemma getLast?_split (a b : List Char) (l₁ l₂ : List (List Char)) :
    (a :: (l₁ ++ b :: l₂)).getLast? = (b :: l₂).getLast? := by
  rw [← List.cons_append, List.getLast?_append_cons]

/-- **Plain tokens**: where no operand ends, plain tokens that are an expression to the parser
are words of one. -/
theorem words_of_reading {l : ℕ} {xs : List (Lexeme R)} {e : Formula R}
    (h : Derives BinOp.level 7 (tokRoles.comap Lexeme.toTok) l xs e) {prev : List Char}
    (hprev : ¬ EndsOperand prev) (hlex : ∀ x ∈ xs, IsLexeme x)
    (hplain : (prev :: xs.map Lexeme.src).IsChain Plain) :
    ∃ ws, (∃ e' : Formula Literal, Phrase l ws e') ∧
      ws.map (Word.text Literal.text) = xs.map Lexeme.src ∧
      ∃ s, (prev :: xs.map Lexeme.src).getLast? = some s ∧ EndsOperand s := by
  induction h generalizing prev with
  | @leaf x a hx =>
    have hp := (List.isChain_cons_cons.mp hplain).1
    have hlit := word_leaf (hlex x List.mem_cons_self) hp hprev hx.1
    exact ⟨[.leaf ⟨x.src, hlit⟩], ⟨_, .leaf rfl⟩, rfl, x.src, rfl,
      .inl (Literal.numberRun ⟨x.src, hlit⟩)⟩
  | @sign x u xs e hx _ ih =>
    obtain ⟨hp, hrest⟩ := List.isChain_cons_cons.mp hplain
    obtain ⟨hxlex, hlex⟩ := List.forall_mem_cons.mp hlex
    obtain ⟨w, hw, hsrc⟩ : ∃ w : Word Literal, (wordRoles.sign w u) ∧
        w.text Literal.text = x.src := by
      cases u with
      | neg => exact ⟨.op .sub, rfl, (word_minus hxlex hx).symm⟩
      | not => exact ⟨.bang, rfl, (word_mark hxlex hx (by decide)).symm⟩
    have hnot : ¬ EndsOperand x.src := hsrc ▸ not_endsOperand_before (.inl ⟨u, hw⟩)
    obtain ⟨ws, ⟨e', hws⟩, hmap, s, hs, hends⟩ := ih hnot hlex hrest
    refine ⟨w :: ws, ⟨_, .sign hw hws⟩, by simp [hsrc, hmap], s, ?_, hends⟩
    rw [List.map_cons, List.getLast?_cons_cons]
    exact hs
  | @paren x y xs e hx hy _ ih =>
    rw [List.map_cons, List.map_append, List.map_singleton] at hplain ⊢
    obtain ⟨hp, hrest⟩ := List.isChain_cons_cons.mp hplain
    obtain ⟨hin, -, -⟩ := isChain_split hrest
    obtain ⟨hxlex, hlex⟩ := List.forall_mem_cons.mp hlex
    obtain ⟨hlex, hylex⟩ := List.forall_mem_append.mp hlex
    have hopen : x.src = ['('] := word_mark hxlex hx (by decide)
    have hclose : y.src = [')'] := word_mark (hylex y List.mem_cons_self) hy (by decide)
    have hnot : ¬ EndsOperand x.src := by
      rw [hopen]
      simp [EndsOperand, NumberRun, isNumberChar]
    obtain ⟨ws, ⟨e', hws⟩, hmap, -⟩ := ih hnot hlex hin
    refine ⟨.opening :: (ws ++ [.closing]), ⟨_, .paren (r := .closing) rfl rfl hws⟩, ?_, y.src, ?_,
      .inr hclose⟩
    · simp [hmap, Word.text, hopen, hclose]
    · rw [List.getLast?_cons_cons, getLast?_split]
      rfl
  | lift hl _ ih =>
    obtain ⟨ws, ⟨e', hws⟩, hrest⟩ := ih hprev hlex hplain
    exact ⟨ws, ⟨e', .lift hl hws⟩, hrest⟩
  | @binary l x o xs ys a b hx ho hl _ _ iha ihb =>
    rw [List.map_append, List.map_cons] at hplain ⊢
    obtain ⟨hleft, hmid, hright⟩ := isChain_split hplain
    obtain ⟨hxs, hys⟩ := List.forall_mem_append.mp hlex
    obtain ⟨hxlex, hys⟩ := List.forall_mem_cons.mp hys
    obtain ⟨ws, ⟨a', hws⟩, hwmap, s, hs, hends⟩ := iha hprev hxs hleft
    have hsrc : x.src = o.text := word_operator hxlex (hmid s hs) hends hx
    have hnot : ¬ EndsOperand x.src := by
      rw [hsrc]
      exact not_endsOperand_before (w := .op o) (.inr (.inl ⟨o, rfl⟩))
    obtain ⟨vs, ⟨b', hvs⟩, hvmap, t, ht, htends⟩ := ihb hnot hys hright
    refine ⟨ws ++ .op o :: vs, ⟨_, .binary rfl ho hl hws hvs⟩, ?_, t, ?_, htends⟩
    · simp [hwmap, hvmap, Word.text, hsrc]
    · rw [getLast?_split]
      exact ht
  | @cond x y cs ts fs c t f hx hy _ _ _ ihc iht ihf =>
    rw [List.map_append, List.map_cons, List.map_append, List.map_cons] at hplain ⊢
    obtain ⟨hleft, -, hrest⟩ := isChain_split hplain
    obtain ⟨hmid, -, hright⟩ := isChain_split hrest
    obtain ⟨hcs, hlex⟩ := List.forall_mem_append.mp hlex
    obtain ⟨hxlex, hlex⟩ := List.forall_mem_cons.mp hlex
    obtain ⟨hts, hlex⟩ := List.forall_mem_append.mp hlex
    obtain ⟨hylex, hfs⟩ := List.forall_mem_cons.mp hlex
    have hquestion : x.src = ['?'] := word_mark hxlex hx (by decide)
    have hcolon : y.src = [':'] := word_mark hylex hy (by decide)
    obtain ⟨us, ⟨c', hus⟩, humap, -⟩ := ihc hprev hcs hleft
    obtain ⟨vs, ⟨t', hvs⟩, hvmap, -⟩ :=
      iht (by rw [hquestion]; simp [EndsOperand, NumberRun, isNumberChar]) hts hmid
    obtain ⟨ws, ⟨f', hws⟩, hwmap, s, hs, hends⟩ :=
      ihf (by rw [hcolon]; simp [EndsOperand, NumberRun, isNumberChar]) hfs hright
    refine ⟨us ++ .question :: (vs ++ .colon :: ws), ⟨_, .cond rfl rfl hus hvs hws⟩, ?_, s, ?_,
      hends⟩
    · simp [humap, hvmap, hwmap, Word.text, hquestion, hcolon]
    · rw [getLast?_split, getLast?_split]
      exact hs

end Words

variable [Double R]

/-- **Acceptance**: whatever is in the value member at first, a text is accepted only within the
language if and only if, supposing its tokens are an expression to the parser that has a value,
they are all plain and none is a NUL. -/
theorem accepts_language_iff {expr : List Char} (value : R) :
    (∀ v : R, Accepted expr value v → InLanguage expr) ↔
      ∀ (xs : List (Lexeme R)) (e : Formula R) (v : R), Lexed expr value xs →
        Reading 8 (xs.map Lexeme.toTok) e → eval e = some v →
        endToken ∉ expr ∧ List.IsChain Plain ([] :: xs.map Lexeme.src) := by
  constructor
  · intro h xs e v hxs he hv
    exact (h v (accepted_iff.mpr ⟨e, ⟨xs, hxs, he⟩, hv⟩)).plain hxs
  · intro h v hacc
    obtain ⟨e, ⟨xs, hxs, he⟩, hv⟩ := accepted_iff.mp hacc
    obtain ⟨hend, hplain⟩ := h xs e v hxs he hv
    obtain ⟨hspaced, hlex⟩ := hxs.spaced hend
    obtain ⟨ws, ⟨e', hws⟩, hmap, -⟩ := words_of_reading he.of_map not_endsOperand_nil hlex hplain
    rw [← hmap] at hspaced
    exact ⟨e', ws, hws, hspaced⟩

/-- An exponent is read as a comparison. -/
theorem exponent_accepted :
    (∀ value : ℚ, Accepted ['1', 'e', '2'] value 0) ∧ ¬ InLanguage ['1', 'e', '2'] := by
  have hone (value : ℚ) : lexeme ['1', 'e', '2'] value = .ok ⟨⟨'n', 1⟩, ['1']⟩ := by
    have hstod : (Double.stod ['1'] : Except Fault ℚ) = .ok 1 := by decide +kernel
    change (fun x => (⟨⟨'n', x⟩, ['1']⟩ : Lexeme ℚ)) <$> Double.stod ['1'] = _
    rw [hstod]
    rfl
  have hxs (value : ℚ) : Lexed ['1', 'e', '2'] value
      [⟨⟨'n', 1⟩, ['1']⟩, ⟨⟨'e', 1⟩, ['e']⟩, ⟨⟨'n', 2⟩, ['2']⟩] :=
    .cons (hone value) (by decide) (.cons (by decide +kernel) (by decide)
      (.cons (by decide +kernel) (by decide) (.stop (x := ⟨⟨endToken, 2⟩, []⟩) rfl rfl)))
  have h1 : Reading 0 [⟨'n', (1 : ℚ)⟩] (.leaf 1) := .leaf ⟨rfl, rfl⟩
  have h2 : Reading 0 [⟨'n', (2 : ℚ)⟩] (.leaf 2) := .leaf ⟨rfl, rfl⟩
  have heq : Reading 3 ([⟨'n', (1 : ℚ)⟩] ++ ⟨'e', 1⟩ :: [⟨'n', 2⟩])
      (.binary .eq (.leaf 1) (.leaf 2)) :=
    .binary rfl rfl (by omega) (h1.mono (by omega) (by omega)) (h2.mono (by omega) (by omega))
  refine ⟨fun value => accepted_iff.mpr
    ⟨_, ⟨_, hxs value, heq.mono (by omega) (by omega)⟩, by decide +kernel⟩, fun h => ?_⟩
  have hplain := (h.plain (hxs 0)).2
  have he := (List.isChain_cons_cons.mp (List.isChain_cons_cons.mp hplain).2).1
  exact absurd he.letter (by decide)

end DataEngine.ExpParser
