import DataEngine.Tool.Lexer

/-!
The parser evaluates its grammar, neither more nor less.

The grammar is over the token codes, in which a number and `!=` are one. A level of the parser
that stands before the tokens of an expression of its level comes to the value of the expression
and stands behind them, unless the depth it was allowed runs out.
-/

namespace DataEngine.ExpParser

open Lib.Effect Lib.Precedence Tool

variable {R : Type}

def Sign.code : Sign → Char
  | neg => '-'
  | not => '!'

/-- What the parse functions take a token for. -/
def tokRoles : Roles (Tok R) Sign BinOp R where
  leaf t a := t.code = 'n' ∧ t.value = a
  sign t u := t.code = u.code
  binary t o := t.code = o.code
  opening t := t.code = '('
  closing t := t.code = ')'
  question t := t.code = '?'
  colon t := t.code = ':'

/-- The tokens are an expression of a level; level 8 is the conditional. -/
abbrev Reading : ℕ → List (Tok R) → Formula R → Prop := Derives BinOp.level 7 tokRoles

/-- The token is no operator that goes on with an expression of the level. -/
def Follow (l : ℕ) (c : Char) : Prop := ∀ o : BinOp, c = o.code → l ≤ o.level

lemma Follow.mono {l m : ℕ} {c : Char} (h : Follow l c) (hml : m ≤ l) : Follow m c :=
  fun o ho => hml.trans (h o ho)

lemma follow_code (o : BinOp) : Follow o.level o.code :=
  fun _ ho => (congrArg BinOp.level (BinOp.code_inj ho)).le

/-- What ends an operand otherwise than by an operator. -/
lemma follow_mark {c : Char} (h : c ∈ [')', '?', ':']) (l : ℕ) : Follow l c := by
  rintro o rfl
  exact absurd h (by cases o <;> decide)

variable [Double R]

lemma Follow.levelOps {l : ℕ} {c : Char} (h : Follow (l + 1) c) :
    (levelOps l : Operators R) c = none := by
  rcases ho : (ExpParser.levelOps l : Operators R) c with _ | f
  · rfl
  · obtain ⟨o, rfl, rfl, -⟩ := levelOps_eq_some.mp ho
    have := h o rfl
    omega

/-! ### Completeness -/

/-- A run stops at its depth, or it goes on in `t` as `q` does with the value `x`; without a
value it stops with the exception of a division by zero. -/
def Leads (q : ℕ → R → ParserM R R) (r : Except Stop R × Parser R) (x : Option R)
    (t : Parser R) : Prop :=
  r.1 = .error .depth ∨
    match x with
    | some v => ∃ m, r = exec (q m v) t
    | none => r.1 = .error (.fault .runtimeError)

abbrev Evaluates : Except Stop R × Parser R → Option R → Parser R → Prop :=
  Leads fun _ v => pure v

omit [Double R] in
lemma Leads.bind {q q' : ℕ → R → ParserM R R} {p : ParserM R R} {f : R → ParserM R R}
    {s t u : Parser R} {x y : Option R} (h : Leads q (exec p s) x t)
    (hf : ∀ v m, x = some v → exec p s = exec (q m v) t → Leads q' (exec (p >>= f) s) y u)
    (hnone : x = none → y = none) : Leads q' (exec (p >>= f) s) y u := by
  rcases h with hd | h
  · left
    rcases he : exec p s with ⟨r, t⟩
    rw [he] at hd
    obtain rfl : r = .error .depth := hd
    rw [exec_bind_error he]
  · cases x with
    | some v =>
      obtain ⟨m, hm⟩ := h
      exact hf v m rfl hm
    | none =>
      right
      rw [hnone rfl]
      rcases he : exec p s with ⟨r, t⟩
      rw [he] at h
      obtain rfl : r = .error (.fault .runtimeError) := h
      rw [exec_bind_error he]

omit [Double R] in
/-- Going on after a program that has come to a value. -/
lemma Evaluates.bind {q : ℕ → R → ParserM R R} {p : ParserM R R} {f : R → ParserM R R}
    {s t u : Parser R} {x y : Option R} (h : Evaluates (exec p s) x t)
    (hf : ∀ v, x = some v → Leads q (exec (f v) t) y u) (hnone : x = none → y = none) :
    Leads q (exec (p >>= f) s) y u := by
  refine Leads.bind h (fun v m hx hm => ?_) hnone
  rw [exec_bind_ok (hm.trans (exec_pure v t))]
  exact hf v hx

omit [Double R] in
lemma evaluates_pure {v : R} {t : Parser R} : Evaluates (exec (pure v) t) (some v) t :=
  .inr ⟨0, rfl⟩

omit [Double R] in
lemma leads_depth {q : ℕ → R → ParserM R R} {s t : Parser R} {x : Option R} :
    Leads q (exec (throw .depth) s) x t := .inl rfl

/-- The loop of a level is left at a token that is none of its operators. -/
lemma exec_operators_stop {ops : Operators R} {operand : ParserM R R} {t : Parser R}
    (h : ops t.currentToken = none) (m : ℕ) (v : R) :
    Evaluates (exec (operators ops operand m v) t) (some v) t := by
  cases m with
  | zero => exact leads_depth
  | succ m =>
    unfold operators
    rw [exec_token_bind, h]
    exact evaluates_pure

/-- The level `l + 1` up to its loop. -/
def Enters (k n l : ℕ) (s : Parser R) (x : Option R) (t : Parser R) : Prop :=
  Leads (operators (levelOps (l + 1)) (parseLevel (parseConditional k) n l))
    (exec (parseLevel (parseConditional k) n (l + 1)) s) x t

/-- What a level of the parser has done that has read an expression of value `x`. -/
def Done (l : ℕ) (s : Parser R) (x : Option R) (t : Parser R) : Prop :=
  match l with
  | 0 => ∀ k n, Evaluates (exec (parseFactor (parseConditional k) n) s) x t
  | l + 1 =>
    if l < 7 then ∀ k n, Enters k n l s x t
    else ∀ n, Evaluates (exec (parseConditional n) s) x t

lemma done_succ {l : ℕ} (hl : l < 7) {s t : Parser R} {x : Option R} :
    Done (l + 1) s x t ↔ ∀ k n, Enters k n l s x t := by
  simp [Done, hl]

/-- Before a token that does not go on with the level, its loop is left. -/
lemma Done.operand {l : ℕ} {s t : Parser R} {x : Option R} (h : Done l s x t) (hl : l ≤ 7)
    (ht : Follow (l + 1) t.currentToken) (k n : ℕ) :
    Evaluates (exec (parseLevel (parseConditional k) n l) s) x t := by
  cases l with
  | zero => exact h k n
  | succ l =>
    rcases (done_succ (by omega)).mp h k n with hd | hx
    · exact .inl hd
    · cases x with
      | none => exact .inr hx
      | some v =>
        obtain ⟨m, hm⟩ := hx
        rw [hm]
        exact exec_operators_stop ht.levelOps m v

lemma Done.conditional {s t : Parser R} {x : Option R} (h : Done 8 s x t) (n : ℕ) :
    Evaluates (exec (parseConditional n) s) x t := h n

lemma done_leaf {s t : Parser R} {a : R} (hc : s.currentToken = 'n') (hv : s.value = a)
    (ht : exec nextToken s = (.ok (), t)) : Done 0 s (some a) t := by
  intro k n
  cases n with
  | zero => exact leads_depth
  | succ n =>
    unfold parseFactor
    rw [exec_get_bind, if_pos hc, hv, exec_bind_ok ht]
    exact evaluates_pure

lemma done_sign {s u t : Parser R} {g : Sign} {x : Option R} (hc : s.currentToken = g.code)
    (hu : exec nextToken s = (.ok (), u)) (h : Done 0 u x t) : Done 0 s (g.apply <$> x) t := by
  intro k n
  cases n with
  | zero => exact leads_depth
  | succ n =>
    have hsign : Evaluates (exec (nextToken >>= fun _ =>
        (g.apply : R → R) <$> parseFactor (parseConditional k) n) s) (g.apply <$> x) t := by
      rw [exec_bind_ok hu, map_eq_pure_bind]
      refine (h k n).bind (fun v hv => ?_) fun hx => by rw [hx]; rfl
      rw [hv]
      exact evaluates_pure
    unfold parseFactor
    rw [exec_get_bind, if_neg (by rw [hc]; cases g <;> decide),
      if_neg (by rw [hc]; cases g <;> decide)]
    cases g with
    | neg =>
      have hneg : s.currentToken = '-' := hc
      rw [if_pos hneg]
      exact hsign
    | not =>
      have hnot : s.currentToken = '!' := hc
      rw [if_neg (by rw [hnot]; decide), if_pos hnot]
      exact hsign

lemma done_paren {s u w t : Parser R} {x : Option R} (hs : s.currentToken = '(')
    (hu : exec nextToken s = (.ok (), u)) (h : Done 8 u x w) (hw : w.currentToken = ')')
    (ht : exec nextToken w = (.ok (), t)) : Done 0 s x t := by
  intro k n
  cases n with
  | zero => exact leads_depth
  | succ n =>
    unfold parseFactor
    rw [exec_get_bind, if_neg (by rw [hs]; decide), if_pos hs, exec_bind_ok hu]
    refine (h.conditional k).bind (fun v hv => ?_) id
    rw [exec_token_bind, if_neg (by simp [hw]), exec_bind_ok ht, hv]
    exact evaluates_pure

lemma done_lift {l : ℕ} {s t : Parser R} {x : Option R} (hl : l ≤ 7) (h : Done l s x t)
    (ht : Follow (l + 1) t.currentToken) (hq : l = 7 → t.currentToken ≠ '?') :
    Done (l + 1) s x t := by
  rcases hl.lt_or_eq with h7 | rfl
  · refine (done_succ h7).mpr fun k n => ?_
    change Leads _ (exec (leftLevel _ (parseLevel (parseConditional k) n l) n) s) x t
    unfold leftLevel
    refine (h.operand hl ht k n).bind (fun v hv => ?_) id
    rw [hv]
    exact .inr ⟨n, rfl⟩
  · intro n
    cases n with
    | zero => exact leads_depth
    | succ n =>
      unfold parseConditional
      rw [← parseLevel_top]
      refine (h.operand hl ht n (n + 1)).bind (fun v hv => ?_) id
      rw [exec_token_bind, if_neg (hq rfl), hv]
      exact evaluates_pure

/-- One pass of the loop of a level. -/
lemma done_binary {l : ℕ} {s u w t : Parser R} {o : BinOp} {x y : Option R} (hl : l < 7)
    (ho : o.level = l + 1) (ha : Done (l + 1) s x u) (hu : u.currentToken = o.code)
    (hw : exec nextToken u = (.ok (), w)) (hb : Done l w y t)
    (ht : Follow (l + 1) t.currentToken) :
    Done (l + 1) s (do o.apply (← x) (← y)) t := by
  refine (done_succ hl).mpr fun k n => ?_
  have hops : (levelOps (l + 1) : Operators R) u.currentToken = some o.run := by
    rw [hu, ← ho]
    exact levelOps_code o
  rcases (done_succ hl).mp ha k n with hd | hx
  · exact .inl hd
  cases x with
  | none => exact .inr hx
  | some a =>
    obtain ⟨m, hm⟩ := hx
    unfold Enters
    rw [hm]
    cases m with
    | zero => exact leads_depth
    | succ m =>
      unfold operators
      rw [exec_token_bind, hops]
      simp only
      rw [exec_bind_ok hw]
      refine (hb.operand hl.le ht k n).bind (fun b hb => ?_) fun hy => by rw [hy]; rfl
      rw [hb]
      change Leads _ _ (o.apply a b) t
      unfold BinOp.run
      rcases o.apply a b with _ | v
      · exact .inr rfl
      · exact .inr ⟨m, rfl⟩

lemma done_cond {s s₁ s₂ s₃ s₄ t : Parser R} {x y z : Option R} (hc : Done 7 s x s₁)
    (hq : s₁.currentToken = '?') (hs₂ : exec nextToken s₁ = (.ok (), s₂)) (ht : Done 8 s₂ y s₃)
    (hk : s₃.currentToken = ':') (hs₄ : exec nextToken s₃ = (.ok (), s₄)) (hf : Done 8 s₄ z t) :
    Done 8 s (do
      let cond ← x
      let trueVal ← y
      let falseVal ← z
      some (if isTrue cond then trueVal else falseVal)) t := by
  intro n
  cases n with
  | zero => exact leads_depth
  | succ n =>
    unfold parseConditional
    rw [← parseLevel_top]
    have hfollow : Follow 8 s₁.currentToken := follow_mark (by simp [hq]) 8
    refine (hc.operand le_rfl hfollow n (n + 1)).bind (fun c hx => ?_) fun hx => by rw [hx]; rfl
    rw [exec_token_bind, if_pos hq, exec_bind_ok hs₂]
    refine (ht.conditional n).bind (fun v hy => ?_) fun hy => by rw [hx, hy]; rfl
    rw [exec_token_bind, if_neg (by simp [hk]), exec_bind_ok hs₄]
    refine (hf.conditional n).bind (fun w hz => ?_) fun hz => by rw [hx, hy, hz]; rfl
    rw [hx, hy, hz]
    exact evaluates_pure

/-- **Completeness**: before the tokens of an expression, the parser comes to its value. -/
theorem done_of_reading {l : ℕ} {ts : List (Tok R)} {e : Formula R} (h : Reading l ts e)
    {s t : Parser R} (hp : Past s ts t) (ht : Follow l t.currentToken)
    (hq : l = 8 → t.currentToken ≠ '?') : Done l s (eval e) t := by
  induction h generalizing s t with
  | leaf ha =>
    obtain ⟨rfl, -, u, hu, hp⟩ := Past.cons_iff.mp hp
    obtain rfl := Past.nil_iff.mp hp
    exact done_leaf ha.1 ha.2 hu
  | sign hg _ ih =>
    obtain ⟨rfl, -, u, hu, hp⟩ := Past.cons_iff.mp hp
    exact done_sign hg hu (ih hp ht hq)
  | paren hl hr _ ih =>
    obtain ⟨rfl, -, u, hu, hp⟩ := Past.cons_iff.mp hp
    obtain ⟨w, hw, hp⟩ := hp.of_append
    obtain ⟨rfl, -, v, hv, hp⟩ := Past.cons_iff.mp hp
    obtain rfl := Past.nil_iff.mp hp
    have hclose : w.currentToken = ')' := hr
    refine done_paren hl hu (ih hw ?_ fun _ => ?_) hr hv
    · exact follow_mark (by simp [hclose]) _
    · rw [hclose]
      decide
  | lift hl _ ih =>
    refine done_lift hl (ih hp (ht.mono (by omega)) (by omega)) ht ?_
    intro h7
    exact hq (by omega)
  | @binary l x o ts us a b ho hlev hl _ _ iha ihb =>
    obtain ⟨u, hu, hp⟩ := hp.of_append
    obtain ⟨rfl, -, w, hw, hp⟩ := Past.cons_iff.mp hp
    have hcode : u.currentToken = o.code := ho
    have hfollow : Follow (l + 1) u.currentToken := by
      rw [hcode, ← hlev]
      exact follow_code o
    have ha := iha hu hfollow (by omega)
    exact done_binary hl hlev ha hcode hw (ihb hp (ht.mono (by omega)) (by omega)) ht
  | cond hq' hk _ _ _ ihc iht ihf =>
    obtain ⟨u, hu, hp⟩ := hp.of_append
    obtain ⟨rfl, -, w, hw, hp⟩ := Past.cons_iff.mp hp
    obtain ⟨v, hv, hp⟩ := hp.of_append
    obtain ⟨rfl, -, x, hx, hp⟩ := Past.cons_iff.mp hp
    have hquestion : u.currentToken = '?' := hq'
    have hcolon : v.currentToken = ':' := hk
    have hc := ihc hu (follow_mark (by simp [hquestion]) _) (by omega)
    have ht' := iht hv (follow_mark (by simp [hcolon]) _) fun _ => by
      rw [hcolon]
      decide
    exact done_cond hc hquestion hw ht' hcolon hx (ihf hp ht hq)

/-! ### Soundness -/

/-- The tokens of an expression of a level have been read, whose value is `v`. -/
def ReadTo (l : ℕ) (s : Parser R) (v : R) (t : Parser R) : Prop :=
  ∃ ts e, Past s ts t ∧ Reading l ts e ∧ eval e = some v

/-- Whatever the program answers, it has read an expression of the level with that value. -/
def Sound (l : ℕ) (p : ParserM R R) : Prop := ∀ s v t, exec p s = (.ok v, t) → ReadTo l s v t

/-- The loop of a level, entered behind an expression of the level. -/
lemma sound_operators {l : ℕ} (hl : l < 7) {operand : ParserM R R} (h : Sound l operand)
    (m : ℕ) {r v : R} {s t : Parser R} {ts : List (Tok R)} {e : Formula R}
    (hts : Reading (l + 1) ts e) (he : eval e = some r)
    (hexec : exec (operators (levelOps (l + 1)) operand m r) s = (.ok v, t)) :
    ∃ us e', Past s us t ∧ Reading (l + 1) (ts ++ us) e' ∧ eval e' = some v := by
  induction m generalizing r s ts e with
  | zero => simp [operators] at hexec
  | succ m ih =>
    unfold operators at hexec
    rw [exec_token_bind] at hexec
    rcases hops : (levelOps (l + 1) : Operators R) s.currentToken with _ | op
    · simp only [hops, exec_pure, Prod.mk.injEq, Except.ok.injEq] at hexec
      obtain ⟨rfl, rfl⟩ := hexec
      exact ⟨[], e, .nil s, by rwa [List.append_nil], he⟩
    obtain ⟨o, ho, hcode, rfl⟩ := levelOps_eq_some.mp hops
    simp only [hops] at hexec
    obtain ⟨_, u, hu, hexec⟩ := exec_bind_eq_ok.mp hexec
    obtain ⟨b, w, hw, hexec⟩ := exec_bind_eq_ok.mp hexec
    obtain ⟨us, eb, hp, hus, heb⟩ := h u b w hw
    have hend : s.currentToken ≠ endToken := hcode ▸ o.code_ne_end
    unfold BinOp.run at hexec
    rcases hr : o.apply r b with _ | r'
    · simp [hr, raise] at hexec
    simp only [hr, Option.elim_some] at hexec
    have hbin : Reading (l + 1) (ts ++ s.tok :: us) (.binary o e eb) :=
      .binary hcode.symm ho hl hts hus
    obtain ⟨vs, e', hp', hvs, he'⟩ := ih hbin (by simp [eval, he, heb, hr]) hexec
    refine ⟨s.tok :: us ++ vs, e', (Past.cons hend hu hp).append hp', ?_, he'⟩
    rwa [← List.append_assoc]

/-- A level whose operand is sound. -/
lemma sound_level {l : ℕ} (hl : l < 7) {operand : ParserM R R} (h : Sound l operand) (n : ℕ) :
    Sound (l + 1) (leftLevel (levelOps (l + 1)) operand n) := by
  intro s v t hexec
  obtain ⟨r, u, hu, hexec⟩ := exec_bind_eq_ok.mp hexec
  obtain ⟨ts, e, hp, hts, he⟩ := h s r u hu
  obtain ⟨us, e', hp', hus, he'⟩ := sound_operators hl h n (.lift hl.le hts) he hexec
  exact ⟨ts ++ us, e', hp.append hp', hus, he'⟩

lemma sound_factor {conditional : ParserM R R} (hc : Sound 8 conditional) (n : ℕ) :
    Sound 0 (parseFactor conditional n) := by
  induction n with
  | zero =>
    intro s v t hexec
    simp [parseFactor] at hexec
  | succ n ih =>
    intro s v t hexec
    unfold parseFactor at hexec
    rw [exec_get_bind] at hexec
    by_cases h1 : s.currentToken = 'n'
    · rw [if_pos h1] at hexec
      obtain ⟨_, u, hu, hexec⟩ := exec_bind_eq_ok.mp hexec
      obtain ⟨rfl, rfl⟩ : s.value = v ∧ u = t := by simpa using hexec
      exact ⟨[s.tok], .leaf s.value, .cons (by rw [h1]; decide) hu (.nil u), .leaf ⟨h1, rfl⟩, rfl⟩
    rw [if_neg h1] at hexec
    by_cases h2 : s.currentToken = '('
    · rw [if_pos h2] at hexec
      obtain ⟨_, u, hu, hexec⟩ := exec_bind_eq_ok.mp hexec
      obtain ⟨r, w, hw, hexec⟩ := exec_bind_eq_ok.mp hexec
      rw [exec_token_bind] at hexec
      by_cases h : w.currentToken = ')'
      swap
      · simp [h, raise] at hexec
      rw [if_neg (by simp [h])] at hexec
      obtain ⟨_, x, hx, hexec⟩ := exec_bind_eq_ok.mp hexec
      obtain ⟨rfl, rfl⟩ : r = v ∧ x = t := by simpa using hexec
      obtain ⟨ts, e, hp, hts, he⟩ := hc u r w hw
      have hclose : Past w [w.tok] x := .cons (by rw [h]; decide) hx (.nil x)
      exact ⟨s.tok :: (ts ++ [w.tok]), e, .cons (by rw [h2]; decide) hu (hp.append hclose),
        .paren h2 h hts, he⟩
    rw [if_neg h2] at hexec
    -- a sign and the factor behind it
    have hsign (g : Sign) (hg : s.currentToken = g.code)
        (h : exec (nextToken >>= fun _ => (g.apply : R → R) <$> parseFactor conditional n) s =
          (.ok v, t)) : ReadTo 0 s v t := by
      obtain ⟨_, u, hu, h⟩ := exec_bind_eq_ok.mp h
      rw [map_eq_pure_bind] at h
      obtain ⟨r, w, hw, h⟩ := exec_bind_eq_ok.mp h
      obtain ⟨rfl, rfl⟩ : g.apply r = v ∧ w = t := by simpa using h
      obtain ⟨ts, e, hp, hts, he⟩ := ih u r w hw
      have hend : s.currentToken ≠ endToken := by
        rw [hg]
        cases g <;> decide
      exact ⟨s.tok :: ts, .sign g e, .cons hend hu hp, .sign hg hts, by simp [eval, he]⟩
    by_cases h3 : s.currentToken = '-'
    · rw [if_pos h3] at hexec
      exact hsign .neg h3 hexec
    rw [if_neg h3] at hexec
    by_cases h4 : s.currentToken = '!'
    · rw [if_pos h4] at hexec
      exact hsign .not h4 hexec
    · simp [h4, raise] at hexec

lemma sound_conditional (n : ℕ) : Sound 8 (parseConditional n : ParserM R R) := by
  induction n with
  | zero =>
    intro s v t hexec
    simp [parseConditional] at hexec
  | succ n ih =>
    have hor : Sound 7 (parseLogicalOr (parseConditional n : ParserM R R) (n + 1)) := by
      rw [← parseLevel_top]
      exact sound_level (by omega) (sound_level (by omega) (sound_level (by omega)
        (sound_level (by omega) (sound_level (by omega) (sound_level (by omega)
        (sound_level (by omega) (sound_factor ih _) _) _) _) _) _) _) _
    intro s v t hexec
    unfold parseConditional at hexec
    obtain ⟨c, u, hu, hexec⟩ := exec_bind_eq_ok.mp hexec
    obtain ⟨cs, ec, hpc, hcs, hec⟩ := hor s c u hu
    rw [exec_token_bind] at hexec
    by_cases hq : u.currentToken = '?'
    swap
    · rw [if_neg hq] at hexec
      obtain ⟨rfl, rfl⟩ : c = v ∧ u = t := by simpa using hexec
      exact ⟨cs, ec, hpc, .lift le_rfl hcs, hec⟩
    rw [if_pos hq] at hexec
    obtain ⟨_, w, hw, hexec⟩ := exec_bind_eq_ok.mp hexec
    obtain ⟨a, x, hx, hexec⟩ := exec_bind_eq_ok.mp hexec
    obtain ⟨ts, et, hpt, hts, het⟩ := ih w a x hx
    rw [exec_token_bind] at hexec
    by_cases hk : x.currentToken = ':'
    swap
    · simp [hk, raise] at hexec
    rw [if_neg (by simp [hk])] at hexec
    obtain ⟨_, y, hy, hexec⟩ := exec_bind_eq_ok.mp hexec
    obtain ⟨b, z, hz, hexec⟩ := exec_bind_eq_ok.mp hexec
    obtain ⟨rfl, rfl⟩ : (if isTrue c then a else b) = v ∧ z = t := by simpa using hexec
    obtain ⟨fs, ef, hpf, hfs, hef⟩ := ih y b z hz
    have hpast : Past s (cs ++ u.tok :: (ts ++ x.tok :: fs)) z :=
      hpc.append (.cons (by rw [hq]; decide) hw
        (hpt.append (.cons (by rw [hk]; decide) hy hpf)))
    exact ⟨_, .cond ec et ef, hpast, .cond hq hk hcs hts hfs, by simp [eval, hec, het, hef]⟩

/-! ### What is accepted -/

/-- A new parser, in which `value` happens to be, reaches the end of the text without an error
and answers `v`. -/
def Accepted (expr : List Char) (value v : R) : Prop :=
  ∃ s, construct expr value = (.ok (), s) ∧ (exec (parseAll (expr.length + 2)) s).1 = .ok v

/-- The tokens of the text are those of the formula, to such a parser. -/
def Denotes (expr : List Char) (value : R) (e : Formula R) : Prop :=
  ∃ xs, Lexed expr value xs ∧ Reading 8 (xs.map Lexeme.toTok) e

variable {expr : List Char} {value : R}

/-- A text that denotes a formula comes to its value. -/
theorem Denotes.parseAll {e : Formula R} (h : Denotes expr value e) :
    ∃ s, construct expr value = (.ok (), s) ∧
      (exec (parseAll (expr.length + 2)) s).1 =
        (eval e).elim (.error (.fault .runtimeError)) .ok := by
  obtain ⟨xs, hxs, he⟩ := h
  obtain ⟨s, t, hs, hp, ht⟩ := Lexed.past (s := ⟨expr, 0, endToken, value⟩) hxs
  refine ⟨s, hs, ?_⟩
  have hdone := (done_of_reading he hp ?_ ?_).conditional (expr.length + 2)
  · have hdepth := parseAll_depth expr hs
    have hall : Evaluates (exec (ExpParser.parseAll (expr.length + 2)) s) (eval e) t := by
      unfold ExpParser.parseAll
      refine hdone.bind (fun v hv => ?_) id
      rw [exec_token_bind, if_neg (by simp [ht]), hv]
      exact evaluates_pure
    rcases hall with hd | hx
    · exact absurd hd hdepth
    · cases hv : eval e with
      | none =>
        rw [hv] at hx
        exact hx
      | some v =>
        rw [hv] at hx
        obtain ⟨m, hm⟩ := hx
        exact congrArg Prod.fst hm
  · rw [ht]
    exact fun o ho => absurd ho.symm o.code_ne_end
  · rw [ht]
    decide

/-- **The language**: a text is accepted exactly if it denotes a formula that has a value. -/
theorem accepted_iff {v : R} :
    Accepted expr value v ↔ ∃ e : Formula R, Denotes expr value e ∧ eval e = some v := by
  constructor
  · rintro ⟨s, hs, hexec⟩
    rcases hall : exec (parseAll (expr.length + 2)) s with ⟨r, t⟩
    rw [hall] at hexec
    obtain rfl : r = .ok v := hexec
    unfold parseAll at hall
    obtain ⟨r, u, hu, hall⟩ := exec_bind_eq_ok.mp hall
    rw [exec_token_bind] at hall
    by_cases hend : u.currentToken = endToken
    swap
    · simp [hend, raise] at hall
    obtain ⟨rfl, rfl⟩ : r = v ∧ u = t := by simpa [hend] using hall
    obtain ⟨ts, e, hp, hts, he⟩ := sound_conditional _ s r u hu
    obtain ⟨xs, hxs, rfl⟩ := hp.lexed hs hend
    exact ⟨e, ⟨xs, hxs, hts⟩, he⟩
  · rintro ⟨e, h, he⟩
    obtain ⟨s, hs, hall⟩ := h.parseAll
    exact ⟨s, hs, by rw [hall, he, Option.elim_some]⟩

/-- What `calculate` answers for a text that denotes a formula: `0` without a value. -/
lemma Denotes.calculate {e : Formula R} (h : Denotes expr value e) :
    calculate expr value = .ok ((eval e).getD (Double.ofInt 0)) := by
  obtain ⟨s, hs, hall⟩ := h.parseAll
  have hparser : parser expr value = .ok s := by rw [parser, hs]
  unfold ExpParser.calculate
  rw [hparser]
  simp only [bind, Except.bind]
  rw [hall]
  cases eval e <;> rfl

lemma Accepted.calculate {v : R} (h : Accepted expr value v) : calculate expr value = .ok v := by
  obtain ⟨e, he, hv⟩ := accepted_iff.mp h
  rw [he.calculate, hv, Option.getD_some]

/-- An accepted text begins with a token. -/
lemma Accepted.lexeme {v : R} (h : Accepted expr value v) : ∃ x, lexeme expr value = .ok x := by
  obtain ⟨e, ⟨xs, hxs, -⟩, -⟩ := accepted_iff.mp h
  cases hxs with
  | stop hx _ => exact ⟨_, hx⟩
  | cons hx _ _ => exact ⟨_, hx⟩

end DataEngine.ExpParser
