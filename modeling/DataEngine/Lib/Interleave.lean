import DataEngine.Lib.Effect

/-!
Programs of threads that share a state and are interrupted between their accesses to it.

A script is a program as the accesses it makes, one at a time. Made at once they are a program
over the state; made by one of several threads, others may come between. What a call answers then
are the answers its accesses got, each at its own moment.
-/

namespace Lib.Interleave

open Lib.Effect

variable {ε σ Q α β : Type} {A : Q → Type}

/-- A program that ends, or makes an access and goes on with what this answers. -/
inductive Script (ε : Type) {Q : Type} (A : Q → Type) (α : Type) : Type where
  | done (r : Except ε α)
  | ask (q : Q) (next : A q → Script ε A α)

namespace Script

/-- A program without an access. -/
def of (x : Except ε α) : Script ε A α := done x

/-- A program of a single access. -/
def access (q : Q) : Script ε A (A q) := ask q fun a => done (.ok a)

protected def bind : Script ε A α → (α → Script ε A β) → Script ε A β
  | done (.ok a), f => f a
  | done (.error e), _ => done (.error e)
  | ask q next, f => ask q fun a => (next a).bind f

instance : Monad (Script ε A) where
  pure a := done (.ok a)
  bind := Script.bind

/-- All accesses at once. -/
def run (act : (q : Q) → Prog ε σ (A q)) : Script ε A α → Prog ε σ α
  | done r => Prog.of r
  | ask q next => act q >>= fun a => (next a).run act

variable (act : (q : Q) → Prog ε σ (A q))

@[simp] lemma run_of (x : Except ε α) : (of x : Script ε A α).run act = Prog.of x := rfl

@[simp] lemma run_pure (a : α) : (pure a : Script ε A α).run act = pure a := rfl

@[simp] lemma run_access (q : Q) : (access q : Script ε A (A q)).run act = act q :=
  bind_pure (act q)

@[simp] lemma run_bind (m : Script ε A α) (f : α → Script ε A β) :
    (m >>= f).run act = m.run act >>= fun a => (f a).run act := by
  induction m with
  | done r => cases r <;> rfl
  | ask q next ih =>
    show act q >>= (fun a => (next a >>= f).run act) = (act q >>= fun a => (next a).run act) >>= _
    rw [bind_assoc]
    exact congrArg _ (funext ih)

@[simp] lemma run_map (g : α → β) (m : Script ε A α) : (g <$> m).run act = g <$> m.run act := by
  show (m >>= fun a => pure (g a)).run act = _
  rw [run_bind, map_eq_pure_bind]
  rfl

end Script

/-! ### Accesses at their own moments -/

/-- How a script goes on after an access. -/
def Script.resume {q : Q} (next : A q → Script ε A α) : Except ε (A q) → Script ε A α
  | .ok a => next a
  | .error e => .done (.error e)

section Goes

variable (act : (q : Q) → Prog ε σ (A q))

/-- From a script on, the accesses are made in the states they stand with, and another script is
left to do. -/
inductive Goes : Script ε A α → List (Q × σ) → Script ε A α → Prop where
  | here (m : Script ε A α) : Goes m [] m
  | ask {q : Q} {next : A q → Script ε A α} {s : σ} {xs : List (Q × σ)} {m : Script ε A α}
      (h : Goes (Script.resume next (exec (act q) s).1) xs m) : Goes (.ask q next) ((q, s) :: xs) m

variable {act}

/-- One more access. -/
lemma Goes.snoc {m : Script ε A α} {xs : List (Q × σ)} {q : Q} {next : A q → Script ε A α}
    (h : Goes act m xs (.ask q next)) (s : σ) :
    Goes act m (xs ++ [(q, s)]) (Script.resume next (exec (act q) s).1) := by
  generalize hm : Script.ask q next = m' at h
  induction h with
  | here =>
    subst hm
    exact .ask (.here _)
  | ask _ ih => exact .ask (ih hm)

lemma goes_done {r r' : Except ε α} {xs : List (Q × σ)} :
    Goes act (.done r) xs (.done r') ↔ xs = [] ∧ r = r' := by
  constructor
  · rintro ⟨⟩
    exact ⟨rfl, rfl⟩
  · rintro ⟨rfl, rfl⟩
    exact .here _

lemma goes_ask {q : Q} {next : A q → Script ε A α} {xs : List (Q × σ)} {b : α} :
    Goes act (.ask q next) xs (.done (.ok b)) ↔ ∃ s a ys, xs = (q, s) :: ys ∧
      (exec (act q) s).1 = .ok a ∧ Goes act (next a) ys (.done (.ok b)) := by
  constructor
  · rintro (_ | ⟨h⟩)
    rename_i s ys
    rcases hr : (exec (act q) s).1 with e | a
    · rw [hr] at h
      obtain ⟨-, he⟩ := goes_done.mp h
      cases he
    · rw [hr] at h
      exact ⟨s, a, ys, rfl, hr, h⟩
  · rintro ⟨s, a, ys, rfl, hr, h⟩
    refine .ask ?_
    rw [hr]
    exact h

lemma goes_access {q : Q} {xs : List (Q × σ)} {a : A q} :
    Goes act (.access q) xs (.done (.ok a)) ↔ ∃ s, xs = [(q, s)] ∧ (exec (act q) s).1 = .ok a := by
  unfold Script.access
  rw [goes_ask]
  constructor
  · rintro ⟨s, b, ys, rfl, hr, h⟩
    obtain ⟨rfl, hb⟩ := goes_done.mp h
    obtain rfl := Except.ok.inj hb
    exact ⟨s, rfl, hr⟩
  · rintro ⟨s, rfl, hr⟩
    exact ⟨s, a, [], rfl, hr, .here _⟩

/-- A program that answers answers after its parts. -/
lemma goes_bind {m : Script ε A α} {f : α → Script ε A β} {xs : List (Q × σ)} {b : β} :
    Goes act (m >>= f) xs (.done (.ok b)) ↔ ∃ ys zs a, xs = ys ++ zs ∧
      Goes act m ys (.done (.ok a)) ∧ Goes act (f a) zs (.done (.ok b)) := by
  induction m generalizing xs with
  | done r =>
    rcases r with e | a
    · show Goes act (.done (.error e)) xs _ ↔ _
      simp [goes_done]
    · show Goes act (f a) xs _ ↔ _
      simp only [goes_done]
      constructor
      · exact fun h => ⟨[], xs, a, rfl, ⟨rfl, rfl⟩, h⟩
      · rintro ⟨ys, zs, a', rfl, ⟨rfl, ha⟩, h⟩
        obtain rfl := Except.ok.inj ha
        exact h
  | ask q next ih =>
    show Goes act (.ask q fun a => next a >>= f) xs _ ↔ _
    simp only [goes_ask, ih]
    constructor
    · rintro ⟨s, a, _, rfl, hr, ys, zs, c, rfl, hy, hz⟩
      exact ⟨(q, s) :: ys, zs, c, rfl, ⟨s, a, ys, rfl, hr, hy⟩, hz⟩
    · rintro ⟨_, zs, c, rfl, ⟨s, a, ys, rfl, hr, hy⟩, hz⟩
      exact ⟨s, a, ys ++ zs, rfl, hr, ys, zs, c, rfl, hy, hz⟩

lemma goes_of_bind {x : Except ε α} {f : α → Script ε A β} {xs : List (Q × σ)} {b : β} :
    Goes act (Script.of x >>= f) xs (.done (.ok b)) ↔
      ∃ a, x = .ok a ∧ Goes act (f a) xs (.done (.ok b)) := by
  rw [goes_bind]
  constructor
  · rintro ⟨ys, zs, a, rfl, hy, hz⟩
    obtain ⟨rfl, hx⟩ := goes_done.mp hy
    exact ⟨a, hx, hz⟩
  · rintro ⟨a, rfl, h⟩
    exact ⟨[], xs, a, rfl, .here _, h⟩

lemma goes_map {m : Script ε A α} {g : α → β} {xs : List (Q × σ)} {b : β} :
    Goes act (g <$> m) xs (.done (.ok b)) ↔
      ∃ a, g a = b ∧ Goes act m xs (.done (.ok a)) := by
  show Goes act (m >>= fun a => pure (g a)) xs _ ↔ _
  rw [goes_bind]
  constructor
  · rintro ⟨ys, zs, a, rfl, hy, hz⟩
    obtain ⟨rfl, hb⟩ := goes_done.mp hz
    rw [List.append_nil]
    exact ⟨a, Except.ok.inj hb, hy⟩
  · rintro ⟨a, rfl, h⟩
    exact ⟨xs, [], a, (List.append_nil xs).symm, h, .here _⟩

/-- Where the accesses answer alike in all states of a kind, and lead from one to another, they
answer as if they were made at once. -/
lemma Goes.at_once {P : σ → Prop} {m : Script ε A α} {xs : List (Q × σ)} {r : Except ε α}
    (h : Goes act m xs (.done r))
    (halike : ∀ x ∈ xs, ∀ t, P t →
      (exec (act x.1) t).1 = (exec (act x.1) x.2).1 ∧ P (exec (act x.1) t).2)
    {s : σ} (hs : P s) : (exec (m.run act) s).1 = r := by
  generalize hm : Script.done r = m' at h
  induction h generalizing s with
  | here =>
    subst hm
    rfl
  | @ask q next s' xs m _ ih =>
    obtain ⟨heq, hnext⟩ := halike (q, s') (by simp) s hs
    have hrest := ih (fun x hx => halike x (by simp [hx])) hnext hm
    show (exec (act q >>= fun a => (next a).run act) s).1 = r
    rcases hq : exec (act q) s with ⟨e | a, t⟩
    · rw [exec_bind_error hq]
      rwa [← heq, hq] at hrest
    · rw [exec_bind_ok hq]
      rwa [← heq, hq] at hrest

/-- Every access the script may come to meets `P`. -/
inductive Script.Asks (P : Q → Prop) : Script ε A α → Prop where
  | done (r : Except ε α) : Asks P (.done r)
  | ask {q : Q} {next : A q → Script ε A α} (h : P q) (hnext : ∀ a, Asks P (next a)) :
      Asks P (.ask q next)

namespace Script.Asks

variable {P : Q → Prop}

lemma access {q : Q} (h : P q) : (Script.access q : Script ε A (A q)).Asks P :=
  .ask h fun _ => .done _

lemma bind {m : Script ε A α} {f : α → Script ε A β} (hm : m.Asks P) (hf : ∀ a, (f a).Asks P) :
    (m >>= f).Asks P := by
  induction hm with
  | done r =>
    cases r with
    | error e => exact .done _
    | ok a => exact hf a
  | ask h _ ih => exact .ask h ih

lemma map {m : Script ε A α} (hm : m.Asks P) (g : α → β) : (g <$> m).Asks P :=
  hm.bind fun _ => .done _

end Script.Asks

lemma Goes.asks {P : Q → Prop} {m m' : Script ε A α} {xs : List (Q × σ)} (h : Goes act m xs m')
    (hm : m.Asks P) : ∀ x ∈ xs, P x.1 := by
  induction h with
  | here => simp
  | @ask q next s xs m' _ ih =>
    obtain _ | ⟨hq, hnext⟩ := hm
    refine List.forall_mem_cons.mpr ⟨hq, ih ?_⟩
    rcases (exec (act q) s).1 with e | a
    · exact .done _
    · exact hnext a

end Goes

/-! ### Threads -/

/-- What happens, in order: a thread starts a call, its access is answered, its call ends. -/
inductive Entry (ε : Type) {Q : Type} (A : Q → Type) (α C : Type) : Type where
  | started (thread : ℕ) (c : C)
  | accessed (thread : ℕ) (q : Q) (r : Except ε (A q))
  | ended (thread : ℕ) (c : C) (r : Except ε α)

/-- The shared state, the call each thread is in with what is left of it to do, and what has
happened, newest last. -/
structure Threads (ε σ : Type) {Q : Type} (A : Q → Type) (α C : Type) where
  shared : σ
  running : ℕ → Option (C × Script ε A α)
  log : List (Entry ε A α C)

inductive Move (C : Type) where
  | start (thread : ℕ) (c : C)
  | go (thread : ℕ)

variable {C : Type} (act : (q : Q) → Prog ε σ (A q)) (prog : C → Script ε A α)

/-- A thread starts no call while it is in one. Each of its other moves is an access, or the end
of the call. -/
def step (m : Threads ε σ A α C) : Move C → Threads ε σ A α C
  | .start thread c =>
    match m.running thread with
    | some _ => m
    | none =>
      { m with
        running := Function.update m.running thread (some (c, prog c))
        log := m.log ++ [.started thread c] }
  | .go thread =>
    match m.running thread with
    | none => m
    | some (c, .done r) =>
      { m with
        running := Function.update m.running thread none
        log := m.log ++ [.ended thread c r] }
    | some (c, .ask q next) =>
      let r := exec (act q) m.shared
      { shared := r.2
        running := Function.update m.running thread (some (c, Script.resume next r.1))
        log := m.log ++ [.accessed thread q r.1] }

/-- From a state on, with no thread in a call. -/
def run (s : σ) (moves : List (Move C)) : Threads ε σ A α C :=
  moves.foldl (step act prog) ⟨s, fun _ => none, []⟩

@[simp] lemma run_nil (s : σ) : run act prog s [] = ⟨s, fun _ => none, []⟩ := rfl

lemma run_snoc (s : σ) (moves : List (Move C)) (move : Move C) :
    run act prog s (moves ++ [move]) = step act prog (run act prog s moves) move := by
  simp [run, List.foldl_append]

/-- What an entry does to the shared state. -/
def applied (s : σ) : Entry ε A α C → σ
  | .accessed _ q _ => (exec (act q) s).2
  | _ => s

/-- The shared state after some entries. -/
def sharedAfter (s : σ) (log : List (Entry ε A α C)) : σ := log.foldl (applied act) s

/-- The shared state at a moment, which is the number of entries made before. -/
def sharedAt (s : σ) (log : List (Entry ε A α C)) (k : ℕ) : σ := sharedAfter act s (log.take k)

variable {act prog}

@[simp] lemma sharedAfter_snoc (s : σ) (log : List (Entry ε A α C)) (e : Entry ε A α C) :
    sharedAfter act s (log ++ [e]) = applied act (sharedAfter act s log) e := by
  simp [sharedAfter]

/-- What has been is not changed by what comes. -/
lemma sharedAt_append (s : σ) (log more : List (Entry ε A α C)) {k : ℕ} (hk : k ≤ log.length) :
    sharedAt act s (log ++ more) k = sharedAt act s log k := by
  rw [sharedAt, sharedAt, List.take_append_of_le_length hk]

lemma sharedAt_length (s : σ) (log : List (Entry ε A α C)) :
    sharedAt act s log log.length = sharedAfter act s log := by
  rw [sharedAt, List.take_length]

lemma sharedAt_succ (s : σ) {log : List (Entry ε A α C)} {k : ℕ} {e : Entry ε A α C}
    (h : log[k]? = some e) :
    sharedAt act s log (k + 1) = applied act (sharedAt act s log k) e := by
  rw [sharedAt, sharedAt, List.take_add_one, h, Option.toList_some, sharedAfter_snoc]

variable (act prog) in
/-- The call `c` of a thread began at a moment, has made accesses at others since, one after
another, each in the shared state of its moment, and has `m` left to do at the end of the log. -/
structure Since (s : σ) (log : List (Entry ε A α C)) (thread : ℕ) (c : C) (begun : ℕ)
    (xs : List (ℕ × Q)) (m : Script ε A α) : Prop where
  started : log[begun]? = some (.started thread c)
  sorted : (xs.map Prod.fst).Pairwise (· < ·)
  access : ∀ x ∈ xs, begun < x.1 ∧ ∃ r, log[x.1]? = some (.accessed thread x.2 r)
  goes : Goes act (prog c) (xs.map fun x => (x.2, sharedAt act s log x.1)) m

lemma Since.lt_length {s : σ} {log : List (Entry ε A α C)} {thread : ℕ} {c : C} {begun : ℕ}
    {xs : List (ℕ × Q)} {m : Script ε A α} (h : Since act prog s log thread c begun xs m)
    {x : ℕ × Q} (hx : x ∈ xs) : x.1 < log.length := by
  obtain ⟨-, r, hr⟩ := h.access x hx
  exact (List.getElem?_eq_some_iff.mp hr).1

/-- What has been stays. -/
lemma Since.append {s : σ} {log : List (Entry ε A α C)} {thread : ℕ} {c : C} {begun : ℕ}
    {xs : List (ℕ × Q)} {m : Script ε A α} (h : Since act prog s log thread c begun xs m)
    (more : List (Entry ε A α C)) : Since act prog s (log ++ more) thread c begun xs m where
  started := List.getElem?_append_left (List.getElem?_eq_some_iff.mp h.started).1 ▸ h.started
  sorted := h.sorted
  access x hx := by
    rw [List.getElem?_append_left (h.lt_length hx)]
    exact h.access x hx
  goes := by
    have hsame : (xs.map fun x => (x.2, sharedAt act s (log ++ more) x.1)) =
        xs.map fun x => (x.2, sharedAt act s log x.1) :=
      List.map_congr_left fun x hx => by rw [sharedAt_append s log more (h.lt_length hx).le]
    rw [hsame]
    exact h.goes

lemma since_started (s : σ) (log : List (Entry ε A α C)) (thread : ℕ) (c : C) :
    Since act prog s (log ++ [.started thread c]) thread c log.length [] (prog c) where
  started := by simp
  sorted := .nil
  access := by simp
  goes := .here _

/-- One more access, which begins or ends nothing. -/
lemma Since.accessed {s : σ} {log : List (Entry ε A α C)} {thread : ℕ} {c : C} {begun : ℕ}
    {xs : List (ℕ × Q)} {q : Q} {next : A q → Script ε A α}
    (h : Since act prog s log thread c begun xs (.ask q next)) (r : Except ε (A q)) :
    Since act prog s (log ++ [.accessed thread q r]) thread c begun (xs ++ [(log.length, q)])
      (Script.resume next (exec (act q) (sharedAfter act s log)).1) where
  started := (h.append _).started
  sorted := by
    rw [List.map_append, List.pairwise_append]
    refine ⟨h.sorted, List.pairwise_singleton _ _, fun k hk n hn => ?_⟩
    obtain ⟨x, hx, rfl⟩ := List.mem_map.mp hk
    obtain rfl : n = log.length := by simpa using hn
    exact h.lt_length hx
  access x hx := by
    rcases List.mem_append.mp hx with hx | hx
    · exact (h.append _).access x hx
    · obtain rfl : x = (log.length, q) := by simpa using hx
      exact ⟨(List.getElem?_eq_some_iff.mp h.started).1, r, by simp⟩
  goes := by
    have hnow : sharedAt act s (log ++ [.accessed thread q r]) log.length =
        sharedAfter act s log := by
      rw [sharedAt_append s log _ le_rfl, sharedAt_length]
    rw [List.map_append, List.map_singleton, hnow]
    exact (h.append [.accessed thread q r]).goes.snoc _

variable (act prog) in
/-- The log tells what has happened. -/
structure Sound (s : σ) (m : Threads ε σ A α C) : Prop where
  shared : m.shared = sharedAfter act s m.log
  running : ∀ thread c left, m.running thread = some (c, left) →
    ∃ begun xs, Since act prog s m.log thread c begun xs left
  answered : ∀ n thread q r, m.log[n]? = some (.accessed thread q r) →
    r = (exec (act q) (sharedAt act s m.log n)).1
  ended : ∀ n thread c r, m.log[n]? = some (.ended thread c r) →
    ∃ begun xs, Since act prog s (m.log.take n) thread c begun xs (.done r)

/-- One more entry. -/
lemma Sound.append {s : σ} {m : Threads ε σ A α C} (h : Sound act prog s m)
    {e : Entry ε A α C} {running : ℕ → Option (C × Script ε A α)}
    (hrunning : ∀ thread c left, running thread = some (c, left) →
      ∃ begun xs, Since act prog s (m.log ++ [e]) thread c begun xs left)
    (hanswered : ∀ thread q r, e = .accessed thread q r → r = (exec (act q) m.shared).1)
    (hended : ∀ thread c r, e = .ended thread c r → m.running thread = some (c, .done r)) :
    Sound act prog s ⟨applied act m.shared e, running, m.log ++ [e]⟩ where
  shared := by rw [h.shared, sharedAfter_snoc]
  running := hrunning
  answered n thread q r hn := by
    rcases Nat.lt_or_ge n m.log.length with hlt | hge
    · rw [List.getElem?_append_left hlt] at hn
      rw [sharedAt_append s m.log _ hlt.le]
      exact h.answered n thread q r hn
    · obtain ⟨hlt, hn⟩ := List.getElem?_eq_some_iff.mp hn
      obtain rfl : n = m.log.length := by
        rw [List.length_append, List.length_singleton] at hlt
        omega
      rw [List.getElem_concat_length rfl] at hn
      rw [sharedAt_append s m.log _ le_rfl, sharedAt_length, ← h.shared]
      exact hanswered thread q r hn
  ended n thread c r hn := by
    rcases Nat.lt_or_ge n m.log.length with hlt | hge
    · rw [List.getElem?_append_left hlt] at hn
      rw [List.take_append_of_le_length hlt.le]
      exact h.ended n thread c r hn
    · obtain ⟨hlt, hn⟩ := List.getElem?_eq_some_iff.mp hn
      obtain rfl : n = m.log.length := by
        rw [List.length_append, List.length_singleton] at hlt
        omega
      rw [List.getElem_concat_length rfl] at hn
      rw [List.take_append_of_le_length le_rfl, List.take_length]
      exact h.running thread c _ (hended thread c r hn)

lemma step_sound {s : σ} {m : Threads ε σ A α C} (h : Sound act prog s m) (move : Move C) :
    Sound act prog s (step act prog m move) := by
  -- the other threads are where they were
  have hothers (thread : ℕ) (e : Entry ε A α C) (now : Option (C × Script ε A α))
      (hnow : ∀ c left, now = some (c, left) →
        ∃ begun xs, Since act prog s (m.log ++ [e]) thread c begun xs left) (thread' : ℕ) (c : C)
      (left : Script ε A α)
      (hrunning : Function.update m.running thread now thread' = some (c, left)) :
      ∃ begun xs, Since act prog s (m.log ++ [e]) thread' c begun xs left := by
    rw [Function.update_apply] at hrunning
    split_ifs at hrunning with heq
    · subst heq
      exact hnow c left hrunning
    · obtain ⟨begun, xs, hsince⟩ := h.running thread' c left hrunning
      exact ⟨begun, xs, hsince.append [e]⟩
  cases move with
  | start thread c =>
    unfold step
    rcases hrunning : m.running thread with _ | ⟨c', left⟩
    · simp only [hrunning]
      refine h.append (e := .started thread c) (hothers thread _ _ ?_) (fun _ _ _ he => ?_)
        fun _ _ _ he => ?_
      · rintro c left hnow
        obtain ⟨rfl, rfl⟩ := Prod.mk.inj (Option.some.inj hnow)
        exact ⟨_, _, since_started s m.log thread _⟩
      · cases he
      · cases he
    · simp only [hrunning]
      exact h
  | go thread =>
    unfold step
    rcases hrunning : m.running thread with _ | ⟨c, r | ⟨q, next⟩⟩
    · simp only [hrunning]
      exact h
    · simp only [hrunning]
      refine h.append (e := .ended thread c r) (hothers thread _ _ ?_) (fun _ _ _ he => ?_)
        fun thread' c' r' he => ?_
      · intro c left hnow
        cases hnow
      · cases he
      · obtain ⟨rfl, rfl, rfl⟩ := Entry.ended.inj he
        exact hrunning
    · simp only [hrunning]
      obtain ⟨begun, xs, hsince⟩ := h.running thread c _ hrunning
      refine h.append (e := .accessed thread q (exec (act q) m.shared).1)
        (hothers thread _ _ ?_) (fun thread' q' r' he => ?_) fun _ _ _ he => ?_
      · rintro c' left hnow
        obtain ⟨rfl, rfl⟩ := Prod.mk.inj (Option.some.inj hnow)
        rw [h.shared]
        exact ⟨_, _, hsince.accessed _⟩
      · cases he
        rfl
      · cases he

/-- **Interleaving**: in every run the shared state is what the accesses have made of it, each
access is answered by the state of its moment, and a call ends with the answer its script comes
to, from one access of its own to the next. -/
theorem run_sound (s : σ) (moves : List (Move C)) :
    Sound act prog s (run act prog s moves) := by
  induction moves using List.reverseRecOn with
  | nil => exact ⟨rfl, by simp, by simp, by simp⟩
  | append_singleton moves move ih =>
    rw [run_snoc]
    exact step_sound ih move

/-- The accesses of a call that has ended were made before its end. -/
lemma Sound.since_of_ended {s : σ} {m : Threads ε σ A α C} (h : Sound act prog s m)
    {n thread : ℕ} {c : C} {r : Except ε α} (hn : m.log[n]? = some (.ended thread c r)) :
    ∃ begun xs, begun < n ∧ (∀ x ∈ xs, x.1 < n) ∧
      Since act prog s m.log thread c begun xs (.done r) := by
  obtain ⟨begun, xs, hsince⟩ := h.ended n thread c r hn
  have hlen : (m.log.take n).length ≤ n := List.length_take_le n m.log
  have hall := hsince.append (m.log.drop n)
  rw [List.take_append_drop] at hall
  refine ⟨begun, xs, ?_, fun x hx => (hsince.lt_length hx).trans_le hlen, hall⟩
  exact (List.getElem?_eq_some_iff.mp hsince.started).1.trans_le hlen

end Lib.Interleave
