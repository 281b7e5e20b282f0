import Mathlib

/-!
Expressions with binary operators on levels of precedence, over any tokens.

A level is left-associative; below all of them stand leaves, prefix signs and parentheses, above
them the right-associative conditional. Which token may stand for what is a parameter, so one
expression can be derived from words of a text, from the codes of a lexer, or from either with
something put in for its leaves.
-/

namespace Lib.Precedence

variable {υ ο α β T T' : Type}

/-- Expressions over leaves `α`, prefix signs `υ` and binary operators `ο`. -/
inductive Expr (υ ο α : Type) where
  | leaf (a : α)
  | sign (u : υ) (e : Expr υ ο α)
  | binary (o : ο) (a b : Expr υ ο α)
  | cond (c t f : Expr υ ο α)

namespace Expr

/-- An expression with expressions put in for its leaves. -/
def bind (g : α → Expr υ ο β) : Expr υ ο α → Expr υ ο β
  | leaf a => g a
  | sign u e => sign u (e.bind g)
  | binary o a b => binary o (a.bind g) (b.bind g)
  | cond c t f => cond (c.bind g) (t.bind g) (f.bind g)

def map (g : α → β) : Expr υ ο α → Expr υ ο β := bind fun a => leaf (g a)

lemma bind_bind {γ : Type} (g : α → Expr υ ο β) (h : β → Expr υ ο γ) (e : Expr υ ο α) :
    (e.bind g).bind h = e.bind fun a => (g a).bind h := by
  induction e <;> simp [bind, *]

/-- The leaves of an expression, from left to right. -/
def leaves : Expr υ ο α → List α
  | leaf a => [a]
  | sign _ e => e.leaves
  | binary _ a b => a.leaves ++ b.leaves
  | cond c t f => c.leaves ++ t.leaves ++ f.leaves

@[simp] lemma bind_leaf (e : Expr υ ο α) : e.bind leaf = e := by
  induction e <;> simp [bind, *]

end Expr

/-- Which tokens stand for what. A token may stand for several things. -/
structure Roles (T υ ο α : Type) where
  leaf : T → α → Prop
  sign : T → υ → Prop
  binary : T → ο → Prop
  opening : T → Prop
  closing : T → Prop
  question : T → Prop
  colon : T → Prop

/-- The tokens `ts` are an expression of a level: `0` binds tightest, `top + 1` is the
conditional. -/
inductive Derives (level : ο → ℕ) (top : ℕ) (G : Roles T υ ο α) :
    ℕ → List T → Expr υ ο α → Prop where
  | leaf {t : T} {a : α} (h : G.leaf t a) : Derives level top G 0 [t] (.leaf a)
  | sign {t : T} {u : υ} {ts : List T} {e : Expr υ ο α} (h : G.sign t u)
      (he : Derives level top G 0 ts e) : Derives level top G 0 (t :: ts) (.sign u e)
  | paren {l r : T} {ts : List T} {e : Expr υ ο α} (hl : G.opening l) (hr : G.closing r)
      (he : Derives level top G (top + 1) ts e) : Derives level top G 0 (l :: (ts ++ [r])) e
  | lift {l : ℕ} {ts : List T} {e : Expr υ ο α} (hl : l ≤ top) (he : Derives level top G l ts e) :
      Derives level top G (l + 1) ts e
  | binary {l : ℕ} {t : T} {o : ο} {ts us : List T} {a b : Expr υ ο α} (h : G.binary t o)
      (ho : level o = l + 1) (hl : l < top) (ha : Derives level top G (l + 1) ts a)
      (hb : Derives level top G l us b) :
      Derives level top G (l + 1) (ts ++ t :: us) (.binary o a b)
  | cond {q k : T} {cs ts fs : List T} {c t f : Expr υ ο α} (hq : G.question q) (hk : G.colon k)
      (hc : Derives level top G top cs c) (ht : Derives level top G (top + 1) ts t)
      (hf : Derives level top G (top + 1) fs f) :
      Derives level top G (top + 1) (cs ++ q :: (ts ++ k :: fs)) (.cond c t f)

variable {level : ο → ℕ} {top : ℕ} {G : Roles T υ ο α}

/-- An expression of a level is one of every looser level. -/
lemma Derives.mono {l m : ℕ} {ts : List T} {e : Expr υ ο α} (h : Derives level top G l ts e)
    (hlm : l ≤ m) (hm : m ≤ top + 1) : Derives level top G m ts e := by
  induction m, hlm using Nat.le_induction with
  | base => exact h
  | succ m _ ih => exact .lift (by omega) (ih (by omega))

/-- The roles of tokens that stand for others. -/
def Roles.comap (f : T' → T) (G : Roles T υ ο α) : Roles T' υ ο α where
  leaf t := G.leaf (f t)
  sign t := G.sign (f t)
  binary t := G.binary (f t)
  opening t := G.opening (f t)
  closing t := G.closing (f t)
  question t := G.question (f t)
  colon t := G.colon (f t)

lemma Derives.of_map {f : T' → T} {l : ℕ} {ts : List T'} {e : Expr υ ο α}
    (h : Derives level top G l (ts.map f) e) : Derives level top (G.comap f) l ts e := by
  generalize hmap : ts.map f = us at h
  induction h generalizing ts with
  | leaf h =>
    obtain ⟨t, rfl, rfl⟩ := List.map_eq_singleton_iff.mp hmap
    exact .leaf h
  | sign h _ ih =>
    obtain ⟨t, ts, rfl, rfl, rfl⟩ := List.map_eq_cons_iff.mp hmap
    exact .sign h (ih rfl)
  | paren hl hr _ ih =>
    obtain ⟨t, us, rfl, rfl, hus⟩ := List.map_eq_cons_iff.mp hmap
    obtain ⟨ts, rs, rfl, rfl, hrs⟩ := List.map_eq_append_iff.mp hus
    obtain ⟨r, rfl, rfl⟩ := List.map_eq_singleton_iff.mp hrs
    exact .paren hl hr (ih rfl)
  | lift hl _ ih => exact .lift hl (ih hmap)
  | binary h ho hl _ _ iha ihb =>
    obtain ⟨ts, us, rfl, rfl, hus⟩ := List.map_eq_append_iff.mp hmap
    obtain ⟨t, us, rfl, rfl, rfl⟩ := List.map_eq_cons_iff.mp hus
    exact .binary h ho hl (iha rfl) (ihb rfl)
  | cond hq hk _ _ _ ihc iht ihf =>
    obtain ⟨cs, us, rfl, rfl, hus⟩ := List.map_eq_append_iff.mp hmap
    obtain ⟨q, vs, rfl, rfl, hvs⟩ := List.map_eq_cons_iff.mp hus
    obtain ⟨ts, ws, rfl, rfl, hws⟩ := List.map_eq_append_iff.mp hvs
    obtain ⟨k, fs, rfl, rfl, rfl⟩ := List.map_eq_cons_iff.mp hws
    exact .cond hq hk (ihc rfl) (iht rfl) (ihf rfl)

/-! ### Neighbours -/

namespace Roles

/-- The token can begin an expression. -/
def Starts (G : Roles T υ ο α) (t : T) : Prop :=
  (∃ a, G.leaf t a) ∨ (∃ u, G.sign t u) ∨ G.opening t

/-- The token can end an expression. -/
def Ends (G : Roles T υ ο α) (t : T) : Prop := (∃ a, G.leaf t a) ∨ G.closing t

/-- The token can come before an expression that is part of a greater one. -/
def Before (G : Roles T υ ο α) (t : T) : Prop :=
  (∃ u, G.sign t u) ∨ (∃ o, G.binary t o) ∨ G.opening t ∨ G.question t ∨ G.colon t

/-- The token can come after such an expression. -/
def After (G : Roles T υ ο α) (t : T) : Prop :=
  (∃ o, G.binary t o) ∨ G.closing t ∨ G.question t ∨ G.colon t

end Roles

/-- What neighbours in an expression, and its two ends, look like. -/
structure Neighbours (G : Roles T υ ο α) (next : T → T → Prop) (ts : List T) : Prop where
  chain : ts.IsChain next
  starts : ∃ t ∈ ts.head?, G.Starts t
  ends : ∃ t ∈ ts.getLast?, G.Ends t

lemma Neighbours.infix {next : T → T → Prop} {ts us : List T} {t : T}
    (hba : ∀ a b, G.Before a → G.Starts b → next a b)
    (hea : ∀ a b, G.Ends a → G.After b → next a b) (hb : G.Before t) (ha : G.After t)
    (hts : Neighbours G next ts) (hus : Neighbours G next us) :
    Neighbours G next (ts ++ t :: us) := by
  obtain ⟨x, hx, hxs⟩ := hts.starts
  obtain ⟨y, hy, hye⟩ := hts.ends
  obtain ⟨z, hz, hzs⟩ := hus.starts
  obtain ⟨w, hw, hwe⟩ := hus.ends
  refine ⟨hts.chain.append ?_ ?_, ⟨x, ?_, hxs⟩, ⟨w, ?_, hwe⟩⟩
  · refine List.isChain_cons.mpr ⟨fun v hv => ?_, hus.chain⟩
    obtain rfl : z = v := Option.mem_unique hz hv
    exact hba t z hb hzs
  · intro v hv u hu
    obtain rfl : y = v := Option.mem_unique hy hv
    obtain rfl : t = u := by simpa using hu
    exact hea y t hye ha
  · rw [List.head?_append, hx]
    rfl
  · rw [List.getLast?_append_cons]
    cases us with
    | nil => simp at hz
    | cons a us => simpa [List.getLast?_cons_cons] using hw

lemma Neighbours.prefix {next : T → T → Prop} {ts : List T} {t : T}
    (hba : ∀ a b, G.Before a → G.Starts b → next a b) (hs : G.Starts t) (hb : G.Before t)
    (hts : Neighbours G next ts) : Neighbours G next (t :: ts) := by
  obtain ⟨x, hx, hxs⟩ := hts.starts
  obtain ⟨y, hy, hye⟩ := hts.ends
  refine ⟨List.isChain_cons.mpr ⟨fun v hv => ?_, hts.chain⟩, ⟨t, rfl, hs⟩, ⟨y, ?_, hye⟩⟩
  · obtain rfl : x = v := Option.mem_unique hx hv
    exact hba t x hb hxs
  · cases ts with
    | nil => simp at hx
    | cons a ts => simpa [List.getLast?_cons_cons] using hy

/-- In an expression a relation holds between neighbours that holds between what comes before
an operand and what begins it, and between what ends it and what comes after it. -/
theorem Derives.neighbours {next : T → T → Prop}
    (hba : ∀ a b, G.Before a → G.Starts b → next a b)
    (hea : ∀ a b, G.Ends a → G.After b → next a b) {l : ℕ} {ts : List T} {e : Expr υ ο α}
    (h : Derives level top G l ts e) : Neighbours G next ts := by
  induction h with
  | @leaf t a h => exact ⟨by simp, ⟨t, rfl, .inl ⟨a, h⟩⟩, ⟨t, rfl, .inl ⟨a, h⟩⟩⟩
  | @sign t u ts e h _ ih => exact ih.prefix hba (.inr (.inl ⟨u, h⟩)) (.inl ⟨u, h⟩)
  | @paren l r ts e hl hr _ ih =>
    obtain ⟨x, hx, hxs⟩ := ih.starts
    obtain ⟨y, hy, hye⟩ := ih.ends
    have hsnoc : Neighbours G next (ts ++ [r]) := by
      refine ⟨ih.chain.append (by simp) ?_, ⟨x, ?_, hxs⟩, ⟨r, by simp, .inr hr⟩⟩
      · intro v hv u hu
        obtain rfl : y = v := Option.mem_unique hy hv
        obtain rfl : r = u := by simpa using hu
        exact hea y r hye (.inr (.inl hr))
      · rw [List.head?_append, hx]
        rfl
    exact hsnoc.prefix hba (.inr (.inr hl)) (.inr (.inr (.inl hl)))
  | lift _ _ ih => exact ih
  | @binary l t o ts us a b h _ _ _ _ iha ihb =>
    exact iha.infix hba hea (.inr (.inl ⟨o, h⟩)) (.inl ⟨o, h⟩) ihb
  | @cond q k cs ts fs c t f hq hk _ _ _ ihc iht ihf =>
    refine ihc.infix hba hea (.inr (.inr (.inr (.inl hq)))) (.inr (.inr (.inl hq))) ?_
    exact iht.infix hba hea (.inr (.inr (.inr (.inr hk)))) (.inr (.inr (.inr hk))) ihf

/-! ### Other tokens for the same expression -/

/-- The second list puts tokens in for each token of the first. -/
inductive Spread (rel : T → List T' → Prop) : List T → List T' → Prop where
  | nil : Spread rel [] []
  | cons {t : T} {us vs : List T'} {ts : List T} (h : rel t us) (hs : Spread rel ts vs) :
      Spread rel (t :: ts) (us ++ vs)

lemma Spread.of_append {rel : T → List T' → Prop} {ts us : List T} {vs : List T'}
    (h : Spread rel (ts ++ us) vs) :
    ∃ xs ys, vs = xs ++ ys ∧ Spread rel ts xs ∧ Spread rel us ys := by
  induction ts generalizing vs with
  | nil => exact ⟨[], vs, rfl, .nil, h⟩
  | cons t ts ih =>
    obtain _ | ⟨ht, hs⟩ := h
    obtain ⟨xs, ys, rfl, hx, hy⟩ := ih hs
    exact ⟨_, ys, (List.append_assoc ..).symm, .cons ht hx, hy⟩

lemma spread_flatMap (g : T → List T') (ts : List T) :
    Spread (fun t us => us = g t) ts (ts.flatMap g) := by
  induction ts with
  | nil => exact .nil
  | cons t ts ih =>
    rw [List.flatMap_cons]
    exact .cons rfl ih

/-- What each token may be replaced by: a leaf by what derives what is put in for it, any other
token by one of the same role. -/
structure Replaces (level : ο → ℕ) (top : ℕ) (G : Roles T υ ο α) (G' : Roles T' υ ο β)
    (g : α → Expr υ ο β) (rel : T → List T' → Prop) : Prop where
  leaf : ∀ t us a, rel t us → G.leaf t a → Derives level top G' 0 us (g a)
  sign : ∀ t us u, rel t us → G.sign t u → ∃ t', us = [t'] ∧ G'.sign t' u
  binary : ∀ t us o, rel t us → G.binary t o → ∃ t', us = [t'] ∧ G'.binary t' o
  opening : ∀ t us, rel t us → G.opening t → ∃ t', us = [t'] ∧ G'.opening t'
  closing : ∀ t us, rel t us → G.closing t → ∃ t', us = [t'] ∧ G'.closing t'
  question : ∀ t us, rel t us → G.question t → ∃ t', us = [t'] ∧ G'.question t'
  colon : ∀ t us, rel t us → G.colon t → ∃ t', us = [t'] ∧ G'.colon t'

/-- **Substitution**: putting in for the leaves of an expression what they derive. -/
theorem Derives.spread {G' : Roles T' υ ο β} {g : α → Expr υ ο β} {rel : T → List T' → Prop}
    (hrel : Replaces level top G G' g rel) {l : ℕ} {ts : List T} {e : Expr υ ο α}
    (h : Derives level top G l ts e) {us : List T'} (hs : Spread rel ts us) :
    Derives level top G' l us (e.bind g) := by
  induction h generalizing us with
  | leaf h =>
    obtain _ | ⟨ht, hs⟩ := hs
    obtain _ | _ := hs
    rw [List.append_nil]
    exact hrel.leaf _ _ _ ht h
  | sign h _ ih =>
    obtain _ | ⟨ht, hs⟩ := hs
    obtain ⟨t', rfl, ht'⟩ := hrel.sign _ _ _ ht h
    exact .sign ht' (ih hs)
  | paren hl hr _ ih =>
    obtain _ | ⟨ht, hs⟩ := hs
    obtain ⟨l', rfl, hl'⟩ := hrel.opening _ _ ht hl
    obtain ⟨xs, ys, rfl, hx, hy⟩ := hs.of_append
    obtain _ | ⟨hy, hnil⟩ := hy
    obtain _ | _ := hnil
    obtain ⟨r', rfl, hr'⟩ := hrel.closing _ _ hy hr
    exact .paren hl' hr' (ih hx)
  | lift hl _ ih => exact .lift hl (ih hs)
  | binary h ho hl _ _ iha ihb =>
    obtain ⟨xs, ys, rfl, hx, hy⟩ := hs.of_append
    obtain _ | ⟨ht, hy⟩ := hy
    obtain ⟨t', rfl, ht'⟩ := hrel.binary _ _ _ ht h
    exact .binary ht' ho hl (iha hx) (ihb hy)
  | cond hq hk _ _ _ ihc iht ihf =>
    obtain ⟨xs, ys, rfl, hx, hy⟩ := hs.of_append
    obtain _ | ⟨hq', hy⟩ := hy
    obtain ⟨q', rfl, hqr⟩ := hrel.question _ _ hq' hq
    obtain ⟨zs, ws, rfl, hz, hw⟩ := hy.of_append
    obtain _ | ⟨hk', hw⟩ := hw
    obtain ⟨k', rfl, hkr⟩ := hrel.colon _ _ hk' hk
    exact .cond hqr hkr (ihc hx) (iht hz) (ihf hw)

end Lib.Precedence
