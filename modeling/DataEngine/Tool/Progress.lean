import DataEngine.Lib.Unbounded
import DataEngine.Tool.ExpParser

/-!
The parser of formulas as it stands, without a bound on its loops or on its depth.

It is in step with the one that has a bound, which for every text is enough; so it ends.
On the way it reads the text from front to back, and whatever is parsed is made of a token at
least.
-/

namespace DataEngine.CExpParser

open ExpParser Tool Lib.Effect Lib.Unbounded

variable {R : Type} [Double R]

abbrev LoopM (R α : Type) : Type := Loop Fault (Parser R) α

/-! ### The functions -/

omit [Double R] in
/-- `while (m_pos < m_expr.size() && p(m_expr[m_pos])) ++m_pos;` -/
def skip (p : Char → Bool) (s : Parser R) : Parser R :=
  if h : s.pos < s.expr.length then
    if p s.expr[s.pos] then skip p { s with pos := s.pos + 1 } else s
  else s
termination_by s.expr.length - s.pos

def nextToken : LoopM R Unit := do
  modify (skip isSpace)
  let s ← get
  match s.expr[s.pos]? with
  | none => set { s with currentToken := endToken }
  | some c =>
    if isNumberChar c then
      modify (skip isNumberChar)
      let t ← get
      match (Double.stod (substr s.expr s.pos (t.pos - s.pos)) : Except Fault R) with
      | .error e => throw e
      | .ok v => set { t with value := v, currentToken := 'n' }
    else
      match operatorToken c s.expr[s.pos + 1]? with
      | .error e => throw e
      | .ok (token, n) => set { s with pos := s.pos + n, currentToken := token }

omit [Double R] in
def token : LoopM R Char := do return (← get).currentToken

/-- The left-associative levels. -/
inductive Level where
  | term
  | addSub
  | comparison
  | bitAnd
  | bitOr
  | logicalAnd
  | logicalOr

def Level.ops : Level → Operators R
  | .term => termOps
  | .addSub => addSubOps
  | .comparison => comparisonOps
  | .bitAnd => bitAndOps
  | .bitOr => bitOrOps
  | .logicalAnd => andOps
  | .logicalOr => orOps

/-- A function of the parser that is called, with what it is given. -/
inductive Call (R : Type) where
  | parseConditional
  /-- A left-associative level: an operand, then operators with an operand each. -/
  | leftLevel (l : Level)
  /-- The loop of a left-associative level. -/
  | operators (l : Level) (result : R)
  | parseFactor

omit [Double R] in
/-- What the operators of a level stand between. -/
def Level.operand : Level → Call R
  | .term => .parseFactor
  | .addSub => .leftLevel .term
  | .comparison => .leftLevel .addSub
  | .bitAnd => .leftLevel .comparison
  | .bitOr => .leftLevel .bitAnd
  | .logicalAnd => .leftLevel .bitOr
  | .logicalOr => .leftLevel .logicalAnd

def Call.run : Call R → LoopM R R
  | .parseConditional => do
    let cond ← Call.leftLevel .logicalOr |>.run
    if (← token) = '?' then
      nextToken
      let trueVal ← Call.parseConditional |>.run
      if (← token) ≠ ':' then throw .runtimeError
      else
        nextToken
        let falseVal ← Call.parseConditional |>.run
        pure (if isTrue cond then trueVal else falseVal)
    else pure cond
  | .leftLevel l => do
    let result ← l.operand |>.run
    Call.operators l result |>.run
  | .operators l result => do
    match l.ops (← token) with
    | none => pure result
    | some op =>
      nextToken
      let rhs ← l.operand |>.run
      match op result rhs with
      | .error e => throw e
      | .ok r => Call.operators l r |>.run
  | .parseFactor => do
    let s ← get
    if s.currentToken = 'n' then
      nextToken
      pure s.value
    else if s.currentToken = '(' then
      nextToken
      let result ← Call.parseConditional |>.run
      if (← token) ≠ ')' then throw .runtimeError
      else
        nextToken
        pure result
    else if s.currentToken = '-' then
      nextToken
      Double.neg <$> (Call.parseFactor |>.run)
    else if s.currentToken = '!' then
      nextToken
      (fun v => ofBool (!isTrue v)) <$> (Call.parseFactor |>.run)
    else throw .runtimeError
partial_fixpoint

def parseConditional : LoopM R R := Call.run .parseConditional
def parseLogicalOr : LoopM R R := Call.run (.leftLevel .logicalOr)
def parseLogicalAnd : LoopM R R := Call.run (.leftLevel .logicalAnd)
def parseBitOr : LoopM R R := Call.run (.leftLevel .bitOr)
def parseBitAnd : LoopM R R := Call.run (.leftLevel .bitAnd)
def parseComparison : LoopM R R := Call.run (.leftLevel .comparison)
def parseAddSub : LoopM R R := Call.run (.leftLevel .addSub)
def parseTerm : LoopM R R := Call.run (.leftLevel .term)
def parseFactor : LoopM R R := Call.run .parseFactor

/-- What `calculate` parses. -/
def parseAll : LoopM R R := do
  let result ← parseConditional
  if (← token) ≠ endToken then throw .runtimeError else pure result

/-- `calculate` on a new parser, which holds `value` where its number comes to be. The exceptions
of the constructor are not caught. -/
def calculate (expr : List Char) (value : R) : Option (Except Fault R) := do
  match ← outcome nextToken ⟨expr, 0, endToken, value⟩ with
  | (.error e, _) => some (.error e)
  | (.ok _, s) =>
    match ← outcome parseAll s with
    | (.ok result, _) => some (.ok result)
    | (.error .undefined, _) => some (.error .undefined)
    | (.error _, _) => some (.ok (Double.ofInt 0))

/-! ### In step with the parser that has a bound -/

omit [Double R] in
lemma drop_eq_cons {s : Parser R} {c : Char} {cs : List Char} (h : s.expr.drop s.pos = c :: cs) :
    s.expr[s.pos]? = some c ∧ s.expr.drop (s.pos + 1) = cs := by
  constructor
  · rw [← List.head?_drop, h]
    rfl
  · rw [← List.drop_drop, h]
    rfl

omit [Double R] in
lemma skip_eq (p : Char → Bool) (s : Parser R) :
    skip p s = { s with pos := s.pos + ((s.expr.drop s.pos).takeWhile p).length } := by
  generalize hd : s.expr.drop s.pos = cs
  induction cs generalizing s with
  | nil =>
    have hend : ¬ s.pos < s.expr.length := not_lt.mpr (List.drop_eq_nil_iff.mp hd)
    rw [skip, dif_neg hend]
    rfl
  | cons c cs ih =>
    obtain ⟨hget, hdrop⟩ := drop_eq_cons hd
    obtain ⟨hlt, rfl⟩ := List.getElem?_eq_some_iff.mp hget
    rw [skip, dif_pos hlt]
    by_cases hc : p s.expr[s.pos] = true
    · rw [if_pos hc, ih { s with pos := s.pos + 1 } hdrop, List.takeWhile_cons_of_pos hc,
        List.length_cons]
      simp only [Nat.add_assoc, Nat.add_comm 1]
    · rw [if_neg hc, List.takeWhile_cons_of_neg hc]
      rfl

lemma nextToken_inStep : InStep .fault .depth (ExpParser.nextToken (R := R)) nextToken := by
  intro s
  right
  unfold ExpParser.nextToken nextToken
  rw [exec_modify_bind, exec_get_bind, outcome_modify_bind, skip_eq, outcome_get_bind]
  set s' : Parser R := { s with
    pos := s.pos + ((s.expr.drop s.pos).takeWhile isSpace).length } with hs'
  rcases hd : s'.expr.drop s'.pos with _ | ⟨c, cs⟩
  · have hnone : s'.expr[s'.pos]? = none := List.getElem?_eq_none (List.drop_eq_nil_iff.mp hd)
    simp only [hnone]
    exact ⟨_, _, rfl, rfl⟩
  obtain ⟨hget, hdrop⟩ := drop_eq_cons hd
  simp only [hget]
  by_cases hc : isNumberChar c = true
  · have hnum : substr s'.expr s'.pos
        (s'.pos + ((c :: cs).takeWhile isNumberChar).length - s'.pos) =
          (c :: cs).takeWhile isNumberChar := by
      rw [Nat.add_sub_cancel_left, substr, hd]
      exact List.prefix_iff_eq_take.mp (List.takeWhile_prefix _) |>.symm
    simp only [if_pos hc]
    rw [outcome_modify_bind, skip_eq, outcome_get_bind, exec_bind_ok (exec_set _ _), hd]
    simp only [hnum]
    rcases (Double.stod ((c :: cs).takeWhile isNumberChar) : Except Fault R) with e | v
    · exact ⟨_, _, rfl, rfl⟩
    · exact ⟨_, _, rfl, rfl⟩
  · have hnext : s'.expr[s'.pos + 1]? = cs.head? := by
      rw [← List.head?_drop, hdrop]
    simp only [if_neg hc, hnext]
    rcases operatorToken c cs.head? with e | ⟨tok, n⟩
    · exact ⟨_, _, rfl, rfl⟩
    · exact ⟨_, _, rfl, rfl⟩

omit [Double R] in
lemma token_inStep : InStep .fault .depth (ExpParser.token (R := R)) token :=
  InStep.get.bind fun s => .pure s.currentToken

lemma operators_inStep {l : Level} {below : ParserM R R} (hbelow : InStep .fault .depth below
    l.operand.run) (n : ℕ) (result : R) :
    InStep .fault .depth (ExpParser.operators l.ops below n result)
      (Call.run (.operators l result)) := by
  induction n generalizing result with
  | zero => exact .bounded _
  | succ n ih =>
    rw [Call.run, ExpParser.operators]
    refine token_inStep.bind fun c => ?_
    cases l.ops (R := R) c with
    | none => exact .pure result
    | some op =>
      refine nextToken_inStep.bind fun _ => hbelow.bind fun rhs => ?_
      rcases op result rhs with e | r
      · exact .throw e
      · exact ih r

lemma leftLevel_inStep {l : Level} {below : ParserM R R} (hbelow : InStep .fault .depth below
    l.operand.run) (n : ℕ) :
    InStep .fault .depth (ExpParser.leftLevel l.ops below n) (Call.run (.leftLevel l)) := by
  rw [Call.run, ExpParser.leftLevel]
  exact hbelow.bind fun result => operators_inStep hbelow n result

section Levels

variable {conditional : ParserM R R}
  (hc : InStep .fault .depth conditional parseConditional) (n : ℕ)

include hc

lemma parseFactor_inStep :
    InStep .fault .depth (ExpParser.parseFactor conditional n) parseFactor := by
  induction n with
  | zero => exact .bounded _
  | succ n ih =>
    rw [parseFactor, Call.run, ExpParser.parseFactor]
    refine InStep.get.bind fun s => ?_
    split_ifs
    · exact nextToken_inStep.bind fun _ => .pure s.value
    · refine nextToken_inStep.bind fun _ => hc.bind fun result => token_inStep.bind fun c => ?_
      split_ifs
      · exact .throw _
      · exact (nextToken_inStep (R := R)).bind fun _ => .pure result
    · exact nextToken_inStep.bind fun _ => ih.map _
    · exact nextToken_inStep.bind fun _ => ih.map _
    · exact .throw _

end Levels

/-! ### Tokens consumed -/

/-- The text stays, and the position does not go back nor beyond its end. -/
structure Kept (s t : Parser R) : Prop where
  expr : t.expr = s.expr
  pos_le : s.pos ≤ t.pos
  le_length : t.pos ≤ s.expr.length

/-- A token that is not the end is consumed. -/
def Next (s t : Parser R) : Prop :=
  s.currentToken ≠ endToken ∧ outcome nextToken s = some (.ok (), t)

omit [Double R] in
lemma Kept.trans {s t u : Parser R} (h : Kept s t) (h' : Kept t u) : Kept s u where
  expr := h'.expr.trans h.expr
  pos_le := h.pos_le.trans h'.pos_le
  le_length := by
    have := h'.le_length
    rwa [h.expr] at this

lemma kept_nextToken {s : Parser R} (h : s.pos ≤ s.expr.length) :
    Kept s (exec ExpParser.nextToken s).2 := by
  unfold ExpParser.nextToken
  rw [exec_modify_bind, exec_get_bind]
  set s' : Parser R := { s with
    pos := s.pos + ((s.expr.drop s.pos).takeWhile isSpace).length } with hs'
  have hblank : s'.pos ≤ s.expr.length := by
    have := (List.takeWhile_prefix (p := isSpace) (l := s.expr.drop s.pos)).length_le
    rw [List.length_drop] at this
    show s.pos + _ ≤ _
    omega
  have hread {n : ℕ} (hn : s'.pos + n ≤ s.expr.length) (tok : Char) (v : R) :
      Kept s { s' with pos := s'.pos + n, currentToken := tok, value := v } :=
    ⟨rfl, by show s.pos ≤ s.pos + _ + n; omega, hn⟩
  rcases hd : s'.expr.drop s'.pos with _ | ⟨c, cs⟩
  · exact hread (n := 0) hblank endToken s'.value
  have hlength := congrArg List.length hd
  rw [List.length_drop, List.length_cons] at hlength
  have hexpr : s'.expr.length = s.expr.length := rfl
  by_cases hc : isNumberChar c = true
  · have hn : s'.pos + ((c :: cs).takeWhile isNumberChar).length ≤ s.expr.length := by
      have := (List.takeWhile_prefix (p := isNumberChar) (l := c :: cs)).length_le
      rw [List.length_cons] at this
      omega
    simp only [if_pos hc]
    rw [exec_bind_ok (exec_set _ _)]
    rcases (Double.stod ((c :: cs).takeWhile isNumberChar) : Except Fault R) with e | v
    · exact hread hn s'.currentToken s'.value
    · exact hread hn 'n' v
  · simp only [if_neg hc]
    rcases ho : operatorToken c cs.head? with e | ⟨tok, n⟩
    · exact hread (n := 0) hblank s'.currentToken s'.value
    · refine hread ?_ tok s'.value
      rcases operatorToken_length ho with rfl | ⟨rfl, hnext⟩
      · omega
      · have : 0 < cs.length := List.length_pos_iff.mpr fun hnil => hnext (by rw [hnil]; rfl)
        omega

/-- From `s` on, the position is kept in bounds, and an answer comes when `P` has been done. -/
def Takes {α : Type} (P : Parser R → Parser R → Prop) (m : ParserM R α) (s : Parser R) : Prop :=
  s.pos ≤ s.expr.length → Kept s (exec m s).2 ∧ ∀ v, (exec m s).1 = .ok v → P s (exec m s).2

section Takes

variable {α β : Type} {P Q W : Parser R → Parser R → Prop} {s : Parser R}

omit [Double R] in
lemma Takes.imp {m : ParserM R α} (h : Takes P m s) (hPQ : ∀ t, P s t → Q s t) : Takes Q m s :=
  fun hs => ⟨(h hs).1, fun v hv => hPQ _ ((h hs).2 v hv)⟩

omit [Double R] in
lemma kept_self (h : s.pos ≤ s.expr.length) : Kept s s := ⟨rfl, le_rfl, h⟩

omit [Double R] in
lemma takes_pure (v : α) : Takes (Relation.ReflTransGen P) (pure v) s :=
  fun h => ⟨kept_self h, fun _ _ => .refl⟩

omit [Double R] in
lemma takes_raise (f : Fault) : Takes P (raise f : ParserM R α) s :=
  fun h => ⟨kept_self h, fun _ hv => absurd hv (by simp [raise])⟩

omit [Double R] in
lemma takes_depth : Takes P (throw .depth : ParserM R α) s :=
  fun h => ⟨kept_self h, fun _ hv => absurd hv (by simp)⟩

omit [Double R] in
lemma Takes.bind {m : ParserM R α} {f : α → ParserM R β} (hm : Takes P m s)
    (hf : ∀ v t, Takes Q (f v) t) (hcomp : ∀ t u, P s t → Q t u → W s u) :
    Takes W (m >>= f) s := by
  intro hs
  obtain ⟨hkept, hok⟩ := hm hs
  rcases h : exec m s with ⟨e | v, t⟩
  · rw [exec_bind_error h]
    rw [h] at hkept
    exact ⟨hkept, fun _ hv => by cases hv⟩
  · rw [exec_bind_ok h]
    rw [h] at hkept hok
    obtain ⟨hkept', hok'⟩ := hf v t (by rw [hkept.expr]; exact hkept.le_length)
    exact ⟨hkept.trans hkept', fun w hw => hcomp t _ (hok v rfl) (hok' w hw)⟩

omit [Double R] in
lemma takes_token_bind {f : Char → ParserM R α} (h : Takes P (f s.currentToken) s) :
    Takes P (ExpParser.token >>= f) s := by
  unfold Takes
  rw [exec_token_bind]
  exact h

lemma takes_nextToken (h : s.currentToken ≠ endToken) : Takes Next ExpParser.nextToken s := by
  refine fun hs => ⟨kept_nextToken hs, fun v hv => ⟨h, ?_⟩⟩
  rcases nextToken_inStep s with hbound | ⟨r, t, hout, hexec⟩
  · rw [hv] at hbound
    cases hbound
  · rw [hexec] at hv ⊢
    rw [hout]
    cases r with
    | error e => cases hv
    | ok u => rfl

/-- A token is consumed, and then there may be more. -/
lemma takes_nextToken_bind {f : ParserM R α} (h : s.currentToken ≠ endToken)
    (hf : ∀ t, Takes (Relation.ReflTransGen Next) f t) :
    Takes (Relation.TransGen Next) (ExpParser.nextToken >>= fun _ => f) s :=
  (takes_nextToken h).bind (fun _ => hf) fun _ _ hst htu => .head' hst htu

/-- Something is parsed, and then there may be more. -/
lemma Takes.then {m : ParserM R α} {f : α → ParserM R β}
    (hm : Takes (Relation.TransGen Next) m s)
    (hf : ∀ v t, Takes (Relation.ReflTransGen Next) (f v) t) :
    Takes (Relation.TransGen Next) (m >>= f) s :=
  hm.bind hf fun _ _ hst htu => hst.trans_left htu

lemma Takes.some {m : ParserM R α} (hm : Takes (Relation.TransGen Next) m s) :
    Takes (Relation.ReflTransGen Next) m s :=
  hm.imp fun _ h => h.to_reflTransGen

end Takes

/-! ### The levels -/

/-- The loop consumes what it consumes a token or more at a time. -/
lemma takes_operators {ops : Operators R} (hops : ops endToken = none) {below : ParserM R R}
    (hbelow : ∀ s, Takes (Relation.TransGen Next) below s) (n : ℕ) (result : R) (s : Parser R) :
    Takes (Relation.ReflTransGen Next) (ExpParser.operators ops below n result) s := by
  induction n generalizing result s with
  | zero => exact takes_depth
  | succ n ih =>
    unfold ExpParser.operators
    refine takes_token_bind ?_
    cases ho : ops s.currentToken with
    | none => exact takes_pure result
    | some op =>
      have hend : s.currentToken ≠ endToken := by
        intro he
        rw [he, hops] at ho
        cases ho
      refine (takes_nextToken_bind hend fun t => ((hbelow t).then fun rhs u => ?_).some).some
      rcases op result rhs with e | r
      · exact takes_raise e
      · exact ih r u

lemma takes_leftLevel {ops : Operators R} (hops : ops endToken = none) {below : ParserM R R}
    (hbelow : ∀ s, Takes (Relation.TransGen Next) below s) (n : ℕ) (s : Parser R) :
    Takes (Relation.TransGen Next) (ExpParser.leftLevel ops below n) s :=
  (hbelow s).then fun result t => takes_operators hops hbelow n result t

lemma takes_parseFactor {conditional : ParserM R R}
    (hc : ∀ s, Takes (Relation.TransGen Next) conditional s) (n : ℕ) (s : Parser R) :
    Takes (Relation.TransGen Next) (ExpParser.parseFactor conditional n) s := by
  induction n generalizing s with
  | zero => exact takes_depth
  | succ n ih =>
    unfold ExpParser.parseFactor Takes
    rw [exec_get_bind]
    change Takes _ _ s
    by_cases h1 : s.currentToken = 'n'
    · rw [if_pos h1]
      exact takes_nextToken_bind (by rw [h1]; decide) fun t => takes_pure s.value
    rw [if_neg h1]
    by_cases h2 : s.currentToken = '('
    · rw [if_pos h2]
      refine takes_nextToken_bind (by rw [h2]; decide) fun t => ?_
      refine ((hc t).then fun v u => takes_token_bind ?_).some
      by_cases h : u.currentToken = ')'
      · rw [if_neg (by simp [h])]
        exact (takes_nextToken_bind (by rw [h]; decide) fun x => takes_pure v).some
      · rw [if_pos h]
        exact takes_raise _
    rw [if_neg h2]
    -- the two signs read a factor
    have hsign (g : R → R) (h : s.currentToken ≠ endToken) : Takes (Relation.TransGen Next)
        (ExpParser.nextToken >>= fun _ => g <$> ExpParser.parseFactor conditional n) s := by
      refine takes_nextToken_bind h fun t => ?_
      rw [map_eq_pure_bind]
      exact ((ih t).then fun v u => takes_pure (g v)).some
    by_cases h3 : s.currentToken = '-'
    · rw [if_pos h3]
      exact hsign _ (by rw [h3]; decide)
    rw [if_neg h3]
    by_cases h4 : s.currentToken = '!'
    · rw [if_pos h4]
      exact hsign _ (by rw [h4]; decide)
    · rw [if_neg h4]
      exact takes_raise _

/-- The function `m`, which has a bound, parses like `q`; it consumes a token before it answers,
and its bound is enough where less than `n` is left. -/
structure Follows (n : ℕ) (m : ParserM R R) (q : LoopM R R) : Prop where
  inStep : InStep .fault .depth m q
  takes : ∀ s, Takes (Relation.TransGen Next) m s
  parses : ∀ k < n, Parses m k

lemma Follows.leftLevel {n : ℕ} {l : Level} {below : ParserM R R}
    (h : Follows n below l.operand.run) (hops : l.ops (R := R) endToken = none) :
    Follows n (ExpParser.leftLevel l.ops below n) (Call.run (.leftLevel l)) where
  inStep := leftLevel_inStep h.inStep n
  takes := takes_leftLevel hops h.takes n
  parses _ hk := leftLevel_parses hops hk (h.parses _ hk)

section Levels

variable {conditional : ParserM R R} {n : ℕ} (hc : Follows n conditional parseConditional)

include hc

lemma Follows.factor : Follows (n + 1) (ExpParser.parseFactor conditional (n + 1)) parseFactor where
  inStep := parseFactor_inStep hc.inStep (n + 1)
  takes := takes_parseFactor hc.takes (n + 1)
  parses _ hk := parseFactor_parses (fun j hj => hc.parses j (by omega)) (n + 1) hk

/-- The seven levels, each on top of the one before. -/
lemma Follows.level (l : Level) : ∃ m, Follows (n + 1) m (Call.run (.leftLevel l)) ∧
    (l = .logicalOr → m = ExpParser.parseLogicalOr conditional (n + 1)) := by
  have hterm := Follows.leftLevel (R := R) (l := .term) hc.factor rfl
  have haddSub := Follows.leftLevel (R := R) (l := .addSub) hterm rfl
  have hcomparison := Follows.leftLevel (R := R) (l := .comparison) haddSub rfl
  have hbitAnd := Follows.leftLevel (R := R) (l := .bitAnd) hcomparison rfl
  have hbitOr := Follows.leftLevel (R := R) (l := .bitOr) hbitAnd rfl
  have hlogicalAnd := Follows.leftLevel (R := R) (l := .logicalAnd) hbitOr rfl
  have hlogicalOr := Follows.leftLevel (R := R) (l := .logicalOr) hlogicalAnd rfl
  cases l with
  | term => exact ⟨_, hterm, nofun⟩
  | addSub => exact ⟨_, haddSub, nofun⟩
  | comparison => exact ⟨_, hcomparison, nofun⟩
  | bitAnd => exact ⟨_, hbitAnd, nofun⟩
  | bitOr => exact ⟨_, hbitOr, nofun⟩
  | logicalAnd => exact ⟨_, hlogicalAnd, nofun⟩
  | logicalOr => exact ⟨_, hlogicalOr, fun _ => rfl⟩

lemma Follows.logicalOr :
    Follows (n + 1) (ExpParser.parseLogicalOr conditional (n + 1)) parseLogicalOr := by
  obtain ⟨m, h, hm⟩ := hc.level .logicalOr
  obtain rfl := hm rfl
  exact h

end Levels

lemma takes_parseConditional {n : ℕ}
    (ih : Follows n (ExpParser.parseConditional (R := R) n) parseConditional) (s : Parser R) :
    Takes (Relation.TransGen Next) (ExpParser.parseConditional (n + 1)) s := by
  unfold ExpParser.parseConditional
  refine (ih.logicalOr.takes s).then fun cond t => takes_token_bind ?_
  by_cases hq : t.currentToken = '?'
  swap
  · rw [if_neg hq]
    exact takes_pure cond
  rw [if_pos hq]
  refine (takes_nextToken_bind (by rw [hq]; decide) fun u => ?_).some
  refine ((ih.takes u).then fun trueVal x => takes_token_bind ?_).some
  by_cases hcolon : x.currentToken = ':'
  swap
  · rw [if_pos hcolon]
    exact takes_raise _
  rw [if_neg (by simp [hcolon])]
  refine (takes_nextToken_bind (by rw [hcolon]; decide) fun y => ?_).some
  exact ((ih.takes y).then fun falseVal z => takes_pure _).some

lemma parseConditional_inStep {n : ℕ}
    (ih : Follows n (ExpParser.parseConditional (R := R) n) parseConditional) :
    InStep .fault .depth (ExpParser.parseConditional (R := R) (n + 1)) parseConditional := by
  rw [parseConditional, Call.run, ExpParser.parseConditional]
  refine ih.logicalOr.inStep.bind fun cond => token_inStep.bind fun c => ?_
  by_cases hq : c = '?'
  swap
  · rw [if_neg hq, if_neg hq]
    exact .pure cond
  rw [if_pos hq, if_pos hq]
  refine nextToken_inStep.bind fun _ => ih.inStep.bind fun trueVal => token_inStep.bind fun d => ?_
  by_cases hcolon : d ≠ ':'
  · rw [if_pos hcolon, if_pos hcolon]
    exact .throw _
  · rw [if_neg hcolon, if_neg hcolon]
    exact nextToken_inStep.bind fun _ => ih.inStep.bind fun falseVal => .pure _

/-- Whatever the depth allowed, by induction on it. -/
lemma follows_parseConditional (n : ℕ) :
    Follows n (ExpParser.parseConditional (R := R) n) parseConditional := by
  induction n with
  | zero => exact ⟨.bounded _, fun _ => takes_depth, nofun⟩
  | succ n ih =>
    exact ⟨parseConditional_inStep ih, takes_parseConditional ih,
      fun k hk => parseConditional_parses (n + 1) k hk⟩

/-! ### Every text -/

/-- From every state in bounds the function ends, in bounds, and answers behind a token. -/
def Progresses (q : LoopM R R) : Prop :=
  ∀ s : Parser R, s.pos ≤ s.expr.length → ∃ r t, outcome q s = some (r, t) ∧ Kept s t ∧
    ∀ v, r = .ok v → Relation.TransGen Next s t

/-- A bound that is enough for what is left. -/
lemma Follows.ends {n : ℕ} {m : ParserM R R} {q : LoopM R R} (h : Follows n m q) {s : Parser R}
    (hs : s.pos ≤ s.expr.length) (hn : s.left < n) : ∃ r t, outcome q s = some (r, t) ∧
      exec m s = (r.mapError .fault, t) ∧ Kept s t ∧
        ∀ v, r = .ok v → Relation.TransGen Next s t := by
  obtain ⟨hdepth, -⟩ := h.parses s.left hn s le_rfl
  obtain ⟨r, t, hout, hexec⟩ := (h.inStep s).resolve_left hdepth
  obtain ⟨hkept, hok⟩ := h.takes s hs
  rw [hexec] at hkept hok
  refine ⟨r, t, hout, hexec, hkept, ?_⟩
  rintro v rfl
  exact hok v rfl

lemma progresses {q : LoopM R R} (h : ∀ n, ∃ m, Follows (n + 1) m q) : Progresses q := by
  intro s hs
  obtain ⟨m, hm⟩ := h s.left
  obtain ⟨r, t, hout, -, hkept, hok⟩ := hm.ends hs (Nat.lt_succ_self _)
  exact ⟨r, t, hout, hkept, hok⟩

lemma progresses_leftLevel (l : Level) : Progresses (Call.run (.leftLevel l) : LoopM R R) :=
  progresses fun n => by
    obtain ⟨m, h, -⟩ := (follows_parseConditional (R := R) n).level l
    exact ⟨m, h⟩

lemma nextToken_ends {s : Parser R} (hs : s.pos ≤ s.expr.length) :
    ∃ r t, outcome nextToken s = some (r, t) ∧ Kept s t := by
  have hkept := kept_nextToken hs
  obtain ⟨r, t, hout, hexec⟩ := (nextToken_inStep s).resolve_left (nextToken_left (R := R) s).1
  rw [hexec] at hkept
  exact ⟨r, t, hout, hkept⟩

omit [Double R] in
lemma outcome_token_bind {α : Type} (f : Char → LoopM R α) (s : Parser R) :
    outcome (token >>= f) s = outcome (f s.currentToken) s := outcome_bind_ok rfl

lemma parseAll_ends {s : Parser R} (hs : s.pos ≤ s.expr.length) :
    ∃ r t, outcome parseAll s = some (r, t) := by
  obtain ⟨r, t, hout, -⟩ :=
    progresses (fun n => ⟨_, follows_parseConditional (R := R) (n + 1)⟩) s hs
  cases r with
  | error e => exact ⟨_, _, outcome_bind_error hout⟩
  | ok v =>
    unfold parseAll
    rw [outcome_bind_ok hout, outcome_token_bind]
    split_ifs
    · exact ⟨_, _, outcome_throw _ t⟩
    · exact ⟨_, _, outcome_pure v t⟩

/-- The nine parse functions -/
def functions : List (LoopM R R) :=
  [parseConditional, parseLogicalOr, parseLogicalAnd, parseBitOr, parseBitAnd, parseComparison,
    parseAddSub, parseTerm, parseFactor]

/-- **The parser makes progress**: each of its functions ends on whatever is left to read, does
not go back, nor beyond the end of the text, and answers only behind a token; so `calculate`
ends on every text. -/
theorem parser_progresses :
    (∀ q ∈ (functions : List (LoopM R R)), Progresses q) ∧
      (∀ s : Parser R, s.pos ≤ s.expr.length →
        ∃ r t, outcome nextToken s = some (r, t) ∧ Kept s t) ∧
      ∀ (expr : List Char) (value : R), ∃ r, calculate expr value = some r := by
  refine ⟨fun q hq => ?_, fun s hs => nextToken_ends hs, fun expr value => ?_⟩
  · simp only [functions, List.mem_cons, List.not_mem_nil, or_false] at hq
    obtain rfl | rfl | rfl | rfl | rfl | rfl | rfl | rfl | rfl := hq
    · exact progresses fun n => ⟨_, follows_parseConditional (n + 1)⟩
    · exact progresses_leftLevel .logicalOr
    · exact progresses_leftLevel .logicalAnd
    · exact progresses_leftLevel .bitOr
    · exact progresses_leftLevel .bitAnd
    · exact progresses_leftLevel .comparison
    · exact progresses_leftLevel .addSub
    · exact progresses_leftLevel .term
    · exact progresses fun n => ⟨_, (follows_parseConditional n).factor⟩
  · obtain ⟨r, s, hout, hkept⟩ :=
      nextToken_ends (s := (⟨expr, 0, endToken, value⟩ : Parser R)) (Nat.zero_le _)
    unfold calculate
    rw [hout]
    cases r with
    | error e => exact ⟨.error e, rfl⟩
    | ok u =>
      obtain ⟨r, t, hall⟩ := parseAll_ends (s := s) (by rw [hkept.expr]; exact hkept.le_length)
      simp only [Option.bind_eq_bind, Option.bind_some, hall]
      rcases r with e | v
      · cases e <;> exact ⟨_, rfl⟩
      · exact ⟨_, rfl⟩

lemma parseAll_inStep (n : ℕ) :
    InStep .fault .depth (ExpParser.parseAll (R := R) n) parseAll := by
  unfold ExpParser.parseAll parseAll
  refine (follows_parseConditional n).inStep.bind fun result => token_inStep.bind fun c => ?_
  split_ifs
  · exact .throw _
  · exact .pure result

/-- The depth that is allowed is no limit. -/
theorem calculate_eq (expr : List Char) (value : R) :
    calculate expr value = some (ExpParser.calculate expr value) := by
  obtain ⟨r, s, hout, hexec⟩ := (nextToken_inStep ⟨expr, 0, endToken, value⟩).resolve_left
    (nextToken_left _).1
  have hconstruct : construct expr value = (r.mapError .fault, s) := hexec
  unfold calculate ExpParser.calculate parser
  rw [hout, hconstruct]
  cases r with
  | error e => rfl
  | ok u =>
    obtain ⟨r, t, hall, hexec'⟩ := (parseAll_inStep (expr.length + 2) s).resolve_left
      (parseAll_depth expr hconstruct)
    simp only [Option.bind_some, hall, Except.mapError, bind, Except.bind, hexec']
    rcases r with e | v
    · cases e <;> rfl
    · rfl

end DataEngine.CExpParser
