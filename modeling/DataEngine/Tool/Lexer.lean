import DataEngine.Tool.Formula

/-!
The tokens of a text.

A token is read off what is left of the text. The value member goes with it, since a number
sets it and any other token leaves it as it is.
-/

namespace DataEngine.ExpParser

open Lib.Effect Tool

variable {R : Type}

/-- What the parse functions see of a token: its code, and the value member. -/
structure Tok (R : Type) where
  code : Char
  value : R
  deriving DecidableEq

/-- A token and the characters it was read from. -/
structure Lexeme (R : Type) extends Tok R where
  src : List Char
  deriving DecidableEq

def Parser.tok (s : Parser R) : Tok R := ⟨s.currentToken, s.value⟩

def Parser.rest (s : Parser R) : List Char := s.expr.drop s.pos

/-- What follows a token in the text it was read from. -/
def Lexeme.after (x : Lexeme R) (cs : List Char) : List Char :=
  (cs.dropWhile isSpace).drop x.src.length

variable [Double R]

/-- The first token of a text, for a value member that holds `v`. -/
def lexeme (cs : List Char) (v : R) : Except Fault (Lexeme R) :=
  match cs.dropWhile isSpace with
  | [] => .ok ⟨⟨endToken, v⟩, []⟩
  | c :: cs =>
    if isNumberChar c then
      let numStr := (c :: cs).takeWhile isNumberChar
      (fun x => ⟨⟨'n', x⟩, numStr⟩) <$> Double.stod numStr
    else (fun t => ⟨⟨t.1, v⟩, (c :: cs).take t.2⟩) <$> operatorToken c cs.head?

/-- `nextToken` reads the first token of what is left. -/
lemma exec_nextToken (s : Parser R) :
    match lexeme s.rest s.value with
    | .error f => (exec nextToken s).1 = .error (.fault f)
    | .ok x => ∃ t, exec nextToken s = (.ok (), t) ∧ t.tok = x.toTok ∧
        t.rest = x.after s.rest := by
  unfold nextToken lexeme Lexeme.after
  rw [exec_modify_bind, exec_get_bind]
  have hrest : s.expr.drop (s.pos + ((s.expr.drop s.pos).takeWhile isSpace).length) =
      s.rest.dropWhile isSpace := by
    rw [← List.drop_drop]
    nth_rewrite 2 [← List.takeWhile_append_dropWhile (p := isSpace) (l := s.expr.drop s.pos)]
    rw [List.drop_left]
    rfl
  simp only [hrest]
  rcases hd : s.rest.dropWhile isSpace with _ | ⟨c, cs⟩
  · exact ⟨_, rfl, rfl, hrest.trans hd⟩
  by_cases hc : isNumberChar c = true
  · simp only [hc, if_true]
    rw [exec_bind_ok (exec_set _ _)]
    rcases (Double.stod ((c :: cs).takeWhile isNumberChar) : Except Fault R) with e | v
    · rfl
    · refine ⟨_, rfl, rfl, ?_⟩
      simp only [Parser.rest] at hrest ⊢
      rw [← List.drop_drop, hrest, ← Parser.rest, hd]
  · simp only [hc, Bool.false_eq_true, if_false]
    rcases ho : operatorToken c cs.head? with e | ⟨tok, n⟩
    · rfl
    · refine ⟨_, rfl, rfl, ?_⟩
      have hn : min n (c :: cs).length = n := by
        obtain rfl | ⟨rfl, hnext⟩ := operatorToken_length ho
        · simp
        · cases cs with
          | nil => exact absurd rfl hnext
          | cons => simp
      simp only [Parser.rest] at hrest ⊢
      rw [← List.drop_drop, hrest, ← Parser.rest, hd, List.length_take, hn]

/-- What a token before the end is read from. -/
inductive IsLexeme (x : Lexeme R) : Prop where
  | number (hne : x.src ≠ []) (h : ∀ c ∈ x.src, isNumberChar c = true) (hc : x.code = 'n')
  | operator (o : BinOp) (hs : x.src = o.text) (hc : x.code = o.code)
  | other (c : Char) (hs : x.src = [c]) (hc : x.code = c) (h : isNumberChar c = false)
      (h' : c ∉ ['&', '|'])

omit [Double R] in
lemma isLexeme_operator {c : Char} {cs : List Char} (hc : isNumberChar c = false) {token : Char}
    {n : ℕ} (h : operatorToken c cs.head? = .ok (token, n)) (v : R) :
    IsLexeme ⟨⟨token, v⟩, (c :: cs).take n⟩ := by
  have htake {d : Char} (hd : cs.head? = some d) : (c :: cs).take 2 = [c, d] := by
    cases cs with
    | nil => simp at hd
    | cons => simpa using hd
  unfold operatorToken at h
  split at h
  case h_1 =>
    split_ifs at h with hnext <;> obtain ⟨rfl, rfl⟩ := Prod.mk.inj (Except.ok.inj h)
    · exact .operator .and (htake hnext) rfl
    · exact .operator .bitAnd rfl rfl
  case h_2 =>
    split_ifs at h with hnext <;> obtain ⟨rfl, rfl⟩ := Prod.mk.inj (Except.ok.inj h)
    · exact .operator .or (htake hnext) rfl
    · exact .operator .bitOr rfl rfl
  case h_3 =>
    split_ifs at h with hnext <;> obtain ⟨rfl, rfl⟩ := Prod.mk.inj (Except.ok.inj h)
    · exact .operator .le (htake hnext) rfl
    · exact .operator .lt rfl rfl
  case h_4 =>
    split_ifs at h with hnext <;> obtain ⟨rfl, rfl⟩ := Prod.mk.inj (Except.ok.inj h)
    · exact .operator .ge (htake hnext) rfl
    · exact .operator .gt rfl rfl
  case h_5 =>
    split_ifs at h with hnext <;> obtain ⟨rfl, rfl⟩ := Prod.mk.inj (Except.ok.inj h)
    · exact .operator .ne (htake hnext) rfl
    · exact .other '!' rfl rfl hc (by decide)
  case h_6 =>
    split_ifs at h with hnext
    obtain ⟨rfl, rfl⟩ := Prod.mk.inj (Except.ok.inj h)
    exact .operator .eq (htake hnext) rfl
  case h_7 hand hor _ _ _ _ =>
    obtain ⟨rfl, rfl⟩ := Prod.mk.inj (Except.ok.inj h)
    exact .other c rfl rfl hc (by simpa using ⟨hand, hor⟩)

/-- A text begins with its first token, behind white space. -/
lemma lexeme_spec {cs : List Char} {v : R} {x : Lexeme R} (h : lexeme cs v = .ok x) :
    cs = cs.takeWhile isSpace ++ x.src ++ x.after cs ∧
      (IsLexeme x ∨ x.src = [] ∧ x.code = endToken ∧ x.after cs = []) := by
  -- what is taken off the front of what is left
  have hcut (hsrc : x.src <+: cs.dropWhile isSpace) :
      cs = cs.takeWhile isSpace ++ x.src ++ x.after cs := by
    have happend := List.prefix_iff_eq_append.mp hsrc
    rw [List.append_assoc, Lexeme.after, happend, List.takeWhile_append_dropWhile]
  unfold lexeme at h
  rcases hd : cs.dropWhile isSpace with _ | ⟨c, ds⟩
  · rw [hd] at h
    obtain rfl := Except.ok.inj h
    exact ⟨hcut (List.nil_prefix), .inr ⟨rfl, rfl, by simp [Lexeme.after, hd]⟩⟩
  rw [hd] at h hcut
  by_cases hc : isNumberChar c = true
  · simp only [hc, if_true] at h
    rcases hs : (Double.stod ((c :: ds).takeWhile isNumberChar) : Except Fault R) with e | a
    · simp [hs] at h
    · rw [hs] at h
      obtain rfl := Except.ok.inj h
      refine ⟨hcut (List.takeWhile_prefix _), .inl (.number ?_ ?_ rfl)⟩
      · simp [hc]
      · exact fun d hd => (List.mem_takeWhile_imp hd)
  · simp only [hc, Bool.false_eq_true, if_false] at h
    rcases ho : operatorToken c ds.head? with e | ⟨token, n⟩
    · simp [ho] at h
    · rw [ho] at h
      obtain rfl := Except.ok.inj h
      exact ⟨hcut (List.take_prefix _ _), .inl (isLexeme_operator (by simpa using hc) ho v)⟩

/-! ### Reading over tokens -/

/-- From `s` on the tokens `ts` are read, and then `t` is reached. -/
inductive Past : Parser R → List (Tok R) → Parser R → Prop where
  | nil (s : Parser R) : Past s [] s
  | cons {s u t : Parser R} {ts : List (Tok R)} (hs : s.currentToken ≠ endToken)
      (hu : exec nextToken s = (.ok (), u)) (ht : Past u ts t) : Past s (s.tok :: ts) t

lemma Past.append {s u t : Parser R} {ts us : List (Tok R)} (h : Past s ts u)
    (h' : Past u us t) : Past s (ts ++ us) t := by
  induction h with
  | nil => exact h'
  | cons hs hu _ ih => exact .cons hs hu (ih h')

lemma Past.of_append {s t : Parser R} {ts us : List (Tok R)} (h : Past s (ts ++ us) t) :
    ∃ u, Past s ts u ∧ Past u us t := by
  induction ts generalizing s with
  | nil => exact ⟨s, .nil s, h⟩
  | cons x ts ih =>
    obtain _ | ⟨hs, hu, ht⟩ := h
    obtain ⟨w, hw, hw'⟩ := ih ht
    exact ⟨w, .cons hs hu hw, hw'⟩

lemma Past.nil_iff {s t : Parser R} : Past s [] t ↔ s = t := by
  constructor
  · rintro ⟨⟩
    rfl
  · rintro rfl
    exact .nil s

lemma Past.cons_iff {s t : Parser R} {x : Tok R} {ts : List (Tok R)} :
    Past s (x :: ts) t ↔ s.tok = x ∧ s.currentToken ≠ endToken ∧
      ∃ u, exec nextToken s = (.ok (), u) ∧ Past u ts t := by
  constructor
  · rintro (_ | ⟨hs, hu, ht⟩)
    exact ⟨rfl, hs, _, hu, ht⟩
  · rintro ⟨rfl, hs, u, hu, ht⟩
    exact .cons hs hu ht

/-- The tokens of a text, up to the first end. -/
inductive Lexed : List Char → R → List (Lexeme R) → Prop where
  | stop {cs : List Char} {v : R} {x : Lexeme R} (h : lexeme cs v = .ok x)
      (hx : x.code = endToken) : Lexed cs v []
  | cons {cs : List Char} {v : R} {x : Lexeme R} {xs : List (Lexeme R)}
      (h : lexeme cs v = .ok x) (hx : x.code ≠ endToken) (hs : Lexed (x.after cs) x.value xs) :
      Lexed cs v (x :: xs)

lemma Lexed.unique {cs : List Char} {v : R} {xs ys : List (Lexeme R)} (h : Lexed cs v xs)
    (h' : Lexed cs v ys) : xs = ys := by
  induction h generalizing ys with
  | stop hx hend =>
    cases h' with
    | stop => rfl
    | cons hy hne =>
      obtain rfl := Except.ok.inj (hx.symm.trans hy)
      exact absurd hend hne
  | cons hx hne _ ih =>
    cases h' with
    | stop hy hend =>
      obtain rfl := Except.ok.inj (hx.symm.trans hy)
      exact absurd hend hne
    | cons hy _ hs =>
      obtain rfl := Except.ok.inj (hx.symm.trans hy)
      rw [ih hs]

/-- What is read to the end are the tokens of what was left. -/
lemma Past.lexed {s u t : Parser R} {ts : List (Tok R)} (hu : exec nextToken s = (.ok (), u))
    (h : Past u ts t) (ht : t.currentToken = endToken) :
    ∃ xs, Lexed s.rest s.value xs ∧ xs.map Lexeme.toTok = ts := by
  induction h generalizing s with
  | nil u =>
    have hs := exec_nextToken s
    rw [hu] at hs
    split at hs
    · simp at hs
    next x hx =>
      obtain ⟨t, ht', htok, -⟩ := hs
      obtain rfl : u = t := congrArg Prod.snd ht'
      exact ⟨[], .stop hx ((congrArg Tok.code htok).symm.trans ht), rfl⟩
  | @cons u w t ts hne hw _ ih =>
    have hs := exec_nextToken s
    rw [hu] at hs
    split at hs
    · simp at hs
    next x hx =>
      obtain ⟨t', ht', htok, hrest⟩ := hs
      obtain rfl : u = t' := congrArg Prod.snd ht'
      obtain ⟨xs, hxs, rfl⟩ := ih hw ht
      have hcode : u.currentToken = x.code := congrArg Tok.code htok
      have hvalue : u.value = x.value := congrArg Tok.value htok
      rw [hrest, hvalue] at hxs
      exact ⟨x :: xs, .cons hx (hcode ▸ hne) hxs, by rw [List.map_cons, ← htok]⟩

/-- The tokens of what is left can be read to the end. -/
lemma Lexed.past {s : Parser R} {xs : List (Lexeme R)} (h : Lexed s.rest s.value xs) :
    ∃ u t, exec nextToken s = (.ok (), u) ∧ Past u (xs.map Lexeme.toTok) t ∧
      t.currentToken = endToken := by
  generalize hr : s.rest = cs at h
  generalize hv : s.value = v at h
  induction h generalizing s with
  | stop hx hend =>
    have hs := exec_nextToken s
    rw [hr, hv, hx] at hs
    obtain ⟨t, ht, htok, -⟩ := hs
    exact ⟨t, t, ht, .nil t, (congrArg Tok.code htok).trans hend⟩
  | @cons cs v x xs hx hne _ ih =>
    have hs := exec_nextToken s
    rw [hr, hv, hx] at hs
    obtain ⟨u, hu, htok, hrest⟩ := hs
    obtain ⟨w, t, hw, hp, ht⟩ := ih hrest (congrArg Tok.value htok)
    have hcode : u.currentToken = x.code := congrArg Tok.code htok
    refine ⟨u, t, hu, ?_, ht⟩
    rw [List.map_cons, ← htok]
    exact .cons (hcode ▸ hne) hw hp

/-! ### The first token of a new parser -/

/-- A new parser stands behind the first token of the text. -/
lemma parser_eq (expr : List Char) (value : R) :
    match lexeme expr value with
    | .error f => parser expr value = .error f
    | .ok _ => ∃ p : Parser R, construct expr value = (.ok (), p) ∧ parser expr value = .ok p := by
  have h := exec_nextToken (⟨expr, 0, endToken, value⟩ : Parser R)
  unfold parser construct
  rcases hl : lexeme expr value with f | x
  · simp only [Parser.rest, List.drop_zero, hl] at h
    rcases he : exec nextToken (⟨expr, 0, endToken, value⟩ : Parser R) with ⟨r, t⟩
    rw [he] at h
    obtain rfl : r = .error (.fault f) := h
    rfl
  · simp only [Parser.rest, List.drop_zero, hl] at h
    obtain ⟨t, ht, -⟩ := h
    exact ⟨t, ht, by rw [ht]⟩

/-- A token that cannot be read is refused by an exception. -/
lemma lexeme_fault
    (hstod : ∀ (cs : List Char) f, (Double.stod cs : Except Fault R) = .error f → f ≠ .undefined)
    {cs : List Char} {v : R} {f : Fault} (h : lexeme cs v = .error f) :
    f ≠ .undefined := by
  unfold lexeme at h
  split at h
  · simp at h
  rename_i c cs _
  by_cases hc : isNumberChar c = true
  · simp only [hc, if_true] at h
    rcases hs : (Double.stod ((c :: cs).takeWhile isNumberChar) : Except Fault R) with e | a
    · rw [hs] at h
      obtain rfl : e = f := Except.error.inj h
      exact hstod _ _ hs
    · simp [hs] at h
  · simp only [hc, Bool.false_eq_true, if_false] at h
    rcases ho : operatorToken c cs.head? with e | t
    · rw [ho] at h
      obtain rfl : e = f := Except.error.inj h
      unfold operatorToken at ho
      split at ho
      case h_6 =>
        split_ifs at ho
        obtain rfl := Except.error.inj ho
        decide
      all_goals cases ho
    · simp [ho] at h

/-! ### Nothing undefined

`stod` refuses what it cannot read by an exception, and the parser has no other fault that is not
one. -/

/-- Wherever it is started, the program does nothing the language leaves undefined. -/
def Defined {α : Type} (p : ParserM R α) : Prop :=
  ∀ s, Ensures (· ≠ Stop.fault .undefined) (fun _ => True) p s

section Defined

variable {α : Type}

omit [Double R] in
lemma defined_pure (a : α) : Defined (pure a : ParserM R α) := fun _ => .pure trivial

omit [Double R] in
lemma defined_raise {f : Fault} (h : f ≠ .undefined) : Defined (raise f : ParserM R α) :=
  fun _ => .throw (by simpa using h)

omit [Double R] in
lemma defined_depth : Defined (throw .depth : ParserM R α) := fun _ => .throw (by simp)

omit [Double R] in
lemma defined_token : Defined (token : ParserM R Char) := fun _ => trivial

omit [Double R] in
lemma Defined.bind {β : Type} {p : ParserM R α} {f : α → ParserM R β} (hp : Defined p)
    (hf : ∀ a, Defined (f a)) : Defined (p >>= f) :=
  fun s => (hp s).bind fun a t _ => hf a t

omit [Double R] in
lemma Defined.map {β : Type} {p : ParserM R α} (g : α → β) (hp : Defined p) :
    Defined (g <$> p) := by
  rw [map_eq_pure_bind]
  exact hp.bind fun a => defined_pure (g a)

variable (hstod : ∀ (cs : List Char) f, (Double.stod cs : Except Fault R) = .error f →
  f ≠ .undefined)

include hstod

lemma defined_nextToken : Defined (nextToken : ParserM R Unit) := by
  intro s
  have hs := exec_nextToken s
  unfold Ensures
  rcases hl : lexeme s.rest s.value with f | x
  · rcases he : exec nextToken s with ⟨r, t⟩
    rw [hl, he] at hs
    obtain rfl : r = .error (.fault f) := hs
    simpa using lexeme_fault hstod hl
  · rw [hl] at hs
    obtain ⟨t, ht, -⟩ := hs
    rw [ht]
    exact trivial

lemma defined_parseFactor {conditional : ParserM R R} (hc : Defined conditional) (n : ℕ) :
    Defined (parseFactor conditional n) := by
  have hnext := defined_nextToken hstod
  induction n with
  | zero => exact defined_depth
  | succ n ih =>
    intro s
    unfold parseFactor Ensures
    rw [exec_get_bind]
    change Ensures _ _ _ s
    split_ifs
    · exact hnext.bind (fun _ => defined_pure s.value) s
    · refine hnext.bind (fun _ => hc.bind fun result => defined_token.bind fun c => ?_) s
      split_ifs
      · exact defined_raise (by decide)
      · exact hnext.bind fun _ => defined_pure result
    · exact hnext.bind (fun _ => ih.map _) s
    · exact hnext.bind (fun _ => ih.map _) s
    · exact defined_raise (by decide) s

lemma defined_operators (l : ℕ) {operand : ParserM R R} (h : Defined operand) (n : ℕ)
    (result : R) : Defined (operators (levelOps l) operand n result) := by
  induction n generalizing result with
  | zero => exact defined_depth
  | succ n ih =>
    unfold operators
    refine defined_token.bind fun c => ?_
    cases ho : (levelOps l : Operators R) c with
    | none => exact defined_pure result
    | some op =>
      obtain ⟨o, -, -, rfl⟩ := levelOps_eq_some.mp ho
      refine (defined_nextToken hstod).bind fun _ => h.bind fun rhs => ?_
      unfold BinOp.run
      cases o.apply result rhs with
      | none => exact defined_raise (by decide)
      | some r => exact ih r

lemma defined_parseLevel {conditional : ParserM R R} (hc : Defined conditional) (n l : ℕ) :
    Defined (parseLevel conditional n l) := by
  induction l with
  | zero => exact defined_parseFactor hstod hc n
  | succ l ih => exact ih.bind fun result => defined_operators hstod (l + 1) ih n result

lemma defined_parseConditional (n : ℕ) : Defined (parseConditional n : ParserM R R) := by
  induction n with
  | zero => exact defined_depth
  | succ n ih =>
    unfold parseConditional
    rw [← parseLevel_top]
    refine (defined_parseLevel hstod ih (n + 1) 7).bind fun cond => defined_token.bind fun c => ?_
    by_cases hq : c = '?'
    swap
    · rw [if_neg hq]
      exact defined_pure cond
    rw [if_pos hq]
    refine (defined_nextToken hstod).bind fun _ => ih.bind fun trueVal => defined_token.bind
      fun d => ?_
    by_cases hk : d = ':'
    · rw [if_neg (by simp [hk])]
      exact (defined_nextToken hstod).bind fun _ => ih.bind fun falseVal => defined_pure _
    · rw [if_pos hk]
      exact defined_raise (by decide)

/-- Once the first token is read, there is an answer: the value, or `0` for an exception. -/
theorem calculate_answers {expr : List Char} {value : R} {x : Lexeme R}
    (hx : lexeme expr value = .ok x) :
    ∃ p r, construct expr value = (.ok (), p) ∧ (exec (parseAll (expr.length + 2)) p).1 = r ∧
      calculate expr value = .ok (r.toOption.getD (Double.ofInt 0)) := by
  have hparser := parser_eq expr value
  rw [hx] at hparser
  obtain ⟨p, hc, hp⟩ := hparser
  have hdepth := parseAll_depth expr hc
  have hdefined : Defined (parseAll (expr.length + 2) : ParserM R R) := by
    unfold parseAll
    refine (defined_parseConditional hstod _).bind fun r => defined_token.bind fun c => ?_
    split_ifs
    · exact defined_raise (by decide)
    · exact defined_pure r
  have hends := hdefined p
  refine ⟨p, _, hc, rfl, ?_⟩
  unfold calculate Ensures at *
  rw [hp]
  simp only [bind, Except.bind]
  rcases hall : exec (parseAll (expr.length + 2)) p with ⟨(f | -) | v, t⟩
  · rw [hall] at hends
    cases f with
    | undefined => exact absurd rfl hends
    | _ => rfl
  · rw [hall] at hdepth
    exact absurd rfl hdepth
  · rfl

end Defined

end DataEngine.ExpParser
