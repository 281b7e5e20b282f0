import DataEngine.Data.Accesses
import DataEngine.Data.Calls
import DataEngine.Data.Transmit

/-!
Calls of the data centre from any number of threads.

Between the accesses of a call other threads may write. What it reads are values that were the
newest ones at their own moments, which need not be the values of a common moment, unless they
stay until its end.
-/

namespace DataEngine.DataStorage.Shared

open Json ConfigParse Lib.Effect Lib.Memory Lib.Interleave

variable {R : Type} [Double R] (env : Env R)

/-! ### Runs -/

abbrev Log (R : Type) : Type := List (Entry Fault (Access.Answer (R := R)) (Answer R) (Call R))

/-- The calls of any number of threads, from a store on. -/
def run (s : Store R) (moves : List (Lib.Interleave.Move (Call R))) :
    Threads Fault (Store R) (Access.Answer (R := R)) (Answer R) (Call R) :=
  Lib.Interleave.run Access.act (Call.script env) s moves

section Runs

omit [Double R]

/-- The store at a moment. -/
def storeAt (s : Store R) (log : Log R) (k : ℕ) : Store R := sharedAt Access.act s log k

def entryWrites : Entry Fault (Access.Answer (R := R)) (Answer R) (Call R) →
    List (Point × ValueWrap R)
  | .accessed _ q r => q.writes r
  | _ => []

def writes (log : Log R) : List (Point × ValueWrap R) := log.flatMap entryWrites

/-- The newest values of the points at a moment. -/
def latest (s : Store R) (log : Log R) (k : ℕ) : Cells Point (ValueWrap R) :=
  after (initial s) (writes (log.take k))

/-- The accesses are answered by the store of their moments. -/
def Answered (s : Store R) (log : Log R) : Prop :=
  ∀ n thread q r, log[n]? = some (.accessed thread q r) → r = (exec q.act (storeAt s log n)).1

/-- At every moment the points hold what was written last. -/
lemma storeAt_spec {s : Store R} (hs : Zeroed s) {log : Log R} (h : Answered s log) (k : ℕ)
    (hk : k ≤ log.length) :
    Shaped s (storeAt s log k) ∧ cells (storeAt s log k) = latest s log k := by
  induction k with
  | zero =>
    refine ⟨.refl s, ?_⟩
    rw [latest, List.take_zero, writes, List.flatMap_nil, after_nil]
    exact cells_of_zeroed hs
  | succ k ih =>
    obtain ⟨hshaped, hcells⟩ := ih (by omega)
    obtain ⟨e, he⟩ : ∃ e, log[k]? = some e := ⟨_, List.getElem?_eq_getElem (by omega)⟩
    have hstore : storeAt s log (k + 1) = applied Access.act (storeAt s log k) e :=
      sharedAt_succ s he
    have hlatest : latest s log (k + 1) = writeAll (latest s log k) (entryWrites e) := by
      rw [latest, List.take_add_one, he, Option.toList_some, writes, List.flatMap_append,
        List.flatMap_singleton, writeAll, latest, foldl_write_after]
      rfl
    rw [hstore, hlatest, ← hcells]
    cases e with
    | accessed thread q r =>
      obtain ⟨hq, hw⟩ := act_spec q (storeAt s log k)
      obtain rfl := h k thread q r he
      exact ⟨hshaped.trans hq, hw⟩
    | started => exact ⟨hshaped, rfl⟩
    | ended => exact ⟨hshaped, rfl⟩

end Runs

/-! ### Undisturbed calls -/

/-- The thread has read the point between two moments. -/
def ReadBetween (log : Log R) (thread begun n : ℕ) (p : Point) : Prop :=
  ∃ k q r, begun < k ∧ k < n ∧ log[k]? = some (.accessed thread q r) ∧ q.Reads p

/-- **Undisturbed calls**: in every run of any number of threads, a call that reads is answered
as if it had been made at once at its beginning, if the points it reads keep their values until
its end, whatever else is written in between. -/
theorem answered_undisturbed {s : Store R} (hinit : init env.cfg = .ok s)
    (moves : List (Lib.Interleave.Move (Call R))) {n thread : ℕ} {c : Call R} (hread : c.IsRead)
    {r : Except Fault (Answer R)} (hended : (run env s moves).log[n]? = some (.ended thread c r)) :
    ∃ begun < n, (run env s moves).log[begun]? = some (.started thread c) ∧
      ((∀ p, ReadBetween (run env s moves).log thread begun n p → ∀ k, begun < k → k < n →
        latest s (run env s moves).log k p = latest s (run env s moves).log begun p) →
      (exec (c.function env) (storeAt s (run env s moves).log begun)).1 = r) := by
  have hsound : Sound Access.act (Call.script env) s (run env s moves) := run_sound s moves
  obtain ⟨begun, xs, hbegun, hlt, hall⟩ := hsound.since_of_ended hended
  have hanswered : Answered s (run env s moves).log := hsound.answered
  generalize (run env s moves).log = log at *
  have hn : n < log.length := (List.getElem?_eq_some_iff.mp hended).1
  refine ⟨begun, hbegun, hall.started, fun hkeep => ?_⟩
  have hat {k : ℕ} (hk : k < n) := storeAt_spec (init_zeroed hinit) hanswered k (by omega)
  rw [← run_script]
  refine hall.goes.at_once (P := fun t => Shaped (storeAt s log begun) t ∧
    ∀ p, ReadBetween log thread begun n p → cells t p = cells (storeAt s log begun) p)
    (fun x hx t ht => ?_) ⟨.refl _, fun _ _ => rfl⟩
  obtain ⟨⟨k, q⟩, hy, rfl⟩ := List.mem_map.mp hx
  obtain ⟨hk, r', hr'⟩ := hall.access _ hy
  have hq : q.IsRead := hall.goes.asks (asks_script env hread) _ hx
  have hkn := hlt _ hy
  obtain ⟨hshaped, hcells⟩ := hat hkn
  obtain ⟨hshaped₀, hcells₀⟩ := hat hbegun
  constructor
  · refine read_congr hq (fun m => ?_) fun p hp => ?_
    · exact ((ht.1.mem m).trans (hshaped₀.mem m)).trans (hshaped.mem m).symm
    · have hbetween : ReadBetween log thread begun n p := ⟨k, q, r', hk, hkn, hr', hp⟩
      calc cells t p = cells (storeAt s log begun) p := ht.2 p hbetween
        _ = latest s log begun p := congrFun hcells₀ p
        _ = latest s log k p := (hkeep p hbetween k hk hkn).symm
        _ = cells (storeAt s log k) p := (congrFun hcells p).symm
  · have hsame := same_of_isRead hq t
    refine ⟨ht.1.trans hsame.shaped, fun p hp => ?_⟩
    rw [hsame.cells]
    exact ht.2 p hp

/-- A device `D` with two signal points, and a transmit table `T` that passes them on. -/
def twoPoints : Env ℚ :=
  let dot (pointId : ℤ) : Value ℚ := .object [("devName", .string "D"), ("pointId", .int pointId)]
  let table : Value ℚ := .object [("param", .object [("signal", .array [dot 0, dot 1])])]
  { oneDevice [.null, .null] with
    cfg := { (oneDevice [.null, .null]).cfg with
      mapTransNameCfg := (∅ : Map _ _).insert "T" ((∅ : Map _ _).insert .pointTable table) } }

/-- While the first point is read the second one is written. -/
def otherWritten : List (Lib.Interleave.Move (Call ℚ)) :=
  [.start 0 (.getTransMultiValue "T" .signal 0 1 []),
    .start 1 (.updateValue "D" .signal 1 (.int32 8)), .go 1, .go 1, .go 0, .go 0]

def otherWrittenLog : Log ℚ :=
  [.started 0 (.getTransMultiValue "T" .signal 0 1 []),
    .started 1 (.updateValue "D" .signal 1 (.int32 8)),
    .accessed 1 (.updateValue "D" .signal 1 (.int32 8)) (.ok true),
    .ended 1 (.updateValue "D" .signal 1 (.int32 8)) (.ok (.flag true)),
    .accessed 0 (.getValue "D" .signal 0) (.ok (some (.int32 0))),
    .ended 0 (.getTransMultiValue "T" .signal 0 1 []) (.ok (.values (true, [.int32 0])))]

theorem undisturbed_by_other : ∃ s begun, init twoPoints.cfg = .ok s ∧
    (exec ((Call.getTransMultiValue "T" .signal 0 1 []).function twoPoints)
      (storeAt s (run twoPoints s otherWritten).log begun)).1 =
        .ok (.values (true, [.int32 0])) := by
  obtain ⟨s, hinit, hlog⟩ : ∃ s, init twoPoints.cfg = .ok s ∧
      (run twoPoints s otherWritten).log = otherWrittenLog := ⟨_, rfl, rfl⟩
  have hended : (run twoPoints s otherWritten).log[5]? =
      some (.ended 0 (.getTransMultiValue "T" .signal 0 1 [])
        (.ok (.values (true, [.int32 0])))) := by rw [hlog]; rfl
  have hread : (Call.getTransMultiValue (R := ℚ) "T" .signal 0 1 []).IsRead := trivial
  obtain ⟨begun, hbegun, -, halone⟩ :=
    answered_undisturbed twoPoints hinit otherWritten hread hended
  refine ⟨s, begun, hinit, halone fun p ⟨k, q, r, hk, hk5, hat, hp⟩ k' _ _ => ?_⟩
  rw [hlog] at hat ⊢
  -- the one point that the thread reads is the first
  obtain rfl : p = ("D", .signal, 0) := by
    interval_cases k <;> simp [otherWrittenLog] at hat
    obtain ⟨rfl, -⟩ := hat
    exact hp
  have hwrites : ∀ k < 6,
      Lib.Memory.latest ("D", .signal, 0) (writes (otherWrittenLog.take k)) = none := by
    decide +kernel
  unfold latest after
  rw [hwrites k' (by omega), hwrites begun (by omega)]

/-! ### Transmit points -/

/-- What stands for a transmit point at some moments: the newest value of a point at its moment,
or what a formula comes to with each reference read at a moment of its own. -/
inductive Shown (s : Store R) (log : Log R) (name : String) (type : DataType) (id : ℤ) :
    List (ℕ × Access R) → ValueWrap R → Prop where
  | point {strType devName : String} {pointId : ℤ} {k : ℕ} {v : ValueWrap R}
      (htype : typeName type = some strType)
      (hinfo : transInfoToDevInfo env.cfg name strType id = .ok (some (devName, pointId)))
      (hdev : devName ≠ "Composite") (h : latest s log k (devName, type, pointId) = some v) :
      Shown s log name type id [(k, .getValue devName type pointId)] v
  | composite {strType : String} {pointId : ℤ} {xs : List (ℕ × Access R)} {v : ValueWrap R}
      (htype : typeName type = some strType)
      (hinfo : transInfoToDevInfo env.cfg name strType id = .ok (some ("Composite", pointId)))
      (h : Goes Access.act (getCompositeValue env type pointId .unknown)
        (xs.map fun x => (x.2, storeAt s log x.1)) (.done (.ok (some v)))) :
      Shown s log name type id xs v

/-- The values delivered behind `out`, each with the reads it is made of: `n` of them if the answer
is `true`, no more if not; the one at an index is shown by the transmit point of its id. -/
structure Delivered (s : Store R) (log : Log R) (name : String) (type : DataType) (ids : ℕ → ℤ)
    (n : ℕ) (out : List (ValueWrap R)) (r : Bool × List (ValueWrap R)) (xs : List (ℕ × Access R))
    (parts : List (List (ℕ × Access R) × ValueWrap R)) : Prop where
  values : r.2 = out ++ parts.map Prod.snd
  le : parts.length ≤ n
  all : r.1 = true → parts.length = n
  reads : (parts.map Prod.fst).flatten <+: xs
  shown : ∀ j part, parts[j]? = some part → Shown env s log name type (ids j) part.1 part.2

section Delivered

variable {env} {s : Store R} {log : Log R} {name : String} {type : DataType}

lemma delivered_none (ids : ℕ → ℤ) (n : ℕ) (out : List (ValueWrap R))
    (xs : List (ℕ × Access R)) : Delivered env s log name type ids n out (false, out) xs [] :=
  ⟨by simp, Nat.zero_le n, by simp, List.nil_prefix, by simp⟩

lemma shown_of_goes (hs : Zeroed s) (hlog : Answered s log) {strType : String}
    (htype : typeName type = some strType) {id : ℤ} {devName : String} {pointId : ℤ}
    (hinfo : transInfoToDevInfo env.cfg name strType id = .ok (some (devName, pointId)))
    {xs : List (ℕ × Access R)} (hxs : ∀ x ∈ xs, x.1 ≤ log.length) {v : ValueWrap R}
    (h : Goes Access.act (getDotValue env type devName pointId .unknown)
      (xs.map fun x => (x.2, storeAt s log x.1)) (.done (.ok (some v)))) :
    Shown env s log name type id xs v := by
  unfold getDotValue at h
  split_ifs at h with hcomposite
  · subst hcomposite
    exact .composite htype hinfo h
  · obtain ⟨t, hmap, hv⟩ := goes_access.mp h
    obtain ⟨⟨k, q⟩, rfl, hx⟩ := List.map_eq_singleton_iff.mp hmap
    obtain ⟨rfl, rfl⟩ := Prod.mk.inj hx
    obtain ⟨-, hcells⟩ := storeAt_spec hs hlog k (hxs _ (List.mem_singleton_self _))
    refine .point htype hinfo hcomposite ?_
    rw [← hcells]
    have hfst := getValue_fst (storeAt s log k) devName type pointId
    exact Except.ok.inj (hfst.symm.trans hv)

/-- The loop, one pass after another. -/
lemma delivered_transLoop (hs : Zeroed s) (hlog : Answered s log) {strType : String}
    (htype : typeName type = some strType) (n : ℕ) {i transId : ℤ} {out : List (ValueWrap R)}
    {xs : List (ℕ × Access R)} (hxs : ∀ x ∈ xs, x.1 ≤ log.length)
    {r : Bool × List (ValueWrap R)}
    (h : Goes Access.act (transLoop env name type strType n i transId out)
      (xs.map fun x => (x.2, storeAt s log x.1)) (.done (.ok r))) :
    ∃ parts, Delivered env s log name type (visitedFrom i transId) n out r xs parts := by
  induction n generalizing i transId out xs with
  | zero =>
    obtain ⟨-, hr⟩ := goes_done.mp h
    obtain rfl := Except.ok.inj hr
    exact ⟨[], by simp, le_rfl, by simp, List.nil_prefix, by simp⟩
  | succ n ih =>
    unfold transLoop at h
    obtain ⟨id, hid, h⟩ := goes_of_bind.mp h
    obtain ⟨-, -, rfl⟩ := intAdd_eq_ok.mp hid
    obtain ⟨dot, hdot, h⟩ := goes_of_bind.mp h
    rcases dot with _ | ⟨devName, pointId⟩
    · obtain rfl := Except.ok.inj (goes_done.mp h).2
      exact ⟨[], delivered_none ..⟩
    obtain ⟨ys, zs, data, hsplit, hread, h⟩ := goes_bind.mp h
    obtain ⟨xs₁, xs₂, rfl, rfl, rfl⟩ := List.map_eq_append_iff.mp hsplit
    rcases data with _ | v
    · obtain rfl := Except.ok.inj (goes_done.mp h).2
      exact ⟨[], delivered_none ..⟩
    have hshown := shown_of_goes hs hlog htype hdot (fun x hx => hxs x (by simp [hx])) hread
    obtain ⟨parts, hparts⟩ := ih (fun x hx => hxs x (by simp [hx])) h
    refine ⟨(xs₁, v) :: parts, ?_, by simpa using hparts.le,
      fun htrue => by simpa using hparts.all htrue, ?_, fun j part hj => ?_⟩
    · rw [hparts.values, List.map_cons, List.append_assoc]
      rfl
    · rw [List.map_cons, List.flatten_cons]
      exact (List.prefix_append_right_inj xs₁).mpr hparts.reads
    · cases j with
      | zero =>
        obtain rfl := Option.some.inj hj
        exact hshown
      | succ j => exact hparts.shown j part hj

end Delivered

/-- **Transmit points at their moments**: whatever other threads write meanwhile, each value that
`getTransMultiValue` delivers is what the transmit point of its id shows at the moments of its
own reads, which all lie in the call and follow each other as the ids do. -/
theorem trans_values_shown {s : Store R} (hinit : init env.cfg = .ok s)
    (moves : List (Lib.Interleave.Move (Call R))) {n thread : ℕ} {name : String}
    {type : DataType} {transId num : ℤ} {out : List (ValueWrap R)}
    {r : Bool × List (ValueWrap R)}
    (hended : (run env s moves).log[n]? =
      some (.ended thread (.getTransMultiValue name type transId num out) (.ok (.values r)))) :
    ∃ begun xs parts, (run env s moves).log[begun]? =
        some (.started thread (.getTransMultiValue name type transId num out)) ∧
      (xs.map Prod.fst).Pairwise (· < ·) ∧
      (∀ x ∈ xs, begun < x.1 ∧ x.1 < n ∧
        ∃ a, (run env s moves).log[x.1]? = some (.accessed thread x.2 a)) ∧
      Delivered env s (run env s moves).log name type (visited transId) num.toNat out r xs
        parts := by
  have hsound : Sound Access.act (Call.script env) s (run env s moves) := run_sound s moves
  obtain ⟨begun, xs, -, hlt, hall⟩ := hsound.since_of_ended hended
  have hanswered : Answered s (run env s moves).log := hsound.answered
  generalize (run env s moves).log = log at *
  have hn : n < log.length := (List.getElem?_eq_some_iff.mp hended).1
  suffices ∃ parts, Delivered env s log name type (visited transId) num.toNat out r xs parts by
    obtain ⟨parts, hparts⟩ := this
    exact ⟨begun, xs, parts, hall.started, hall.sorted,
      fun x hx => ⟨(hall.access x hx).1, hlt x hx, (hall.access x hx).2⟩, hparts⟩
  obtain ⟨r', hr', hgoes⟩ := goes_map.mp hall.goes
  obtain rfl : r' = r := Answer.values.inj hr'
  unfold getTransMultiValue at hgoes
  cases htype : typeName type with
  | none =>
    rw [htype] at hgoes
    obtain rfl := Except.ok.inj (goes_done.mp hgoes).2
    exact ⟨[], delivered_none ..⟩
  | some strType =>
    rw [htype] at hgoes
    have hids : visitedFrom 0 transId = visited transId := funext (visitedFrom_zero transId)
    rw [← hids]
    exact delivered_transLoop (init_zeroed hinit) hanswered htype num.toNat
      (fun x hx => ((hlt x hx).trans hn).le) hgoes

/-- Between the reads of the two points another thread writes first the one, then the other. -/
def bothWritten : List (Lib.Interleave.Move (Call ℚ)) :=
  [.start 0 (.getTransMultiValue "T" .signal 0 2 []), .go 0,
    .start 1 (.updateValue "D" .signal 0 (.int32 7)), .go 1, .go 1,
    .start 1 (.updateValue "D" .signal 1 (.int32 8)), .go 1, .go 1, .go 0, .go 0]

def bothWrittenLog : Log ℚ :=
  [.started 0 (.getTransMultiValue "T" .signal 0 2 []),
    .accessed 0 (.getValue "D" .signal 0) (.ok (some (.int32 0))),
    .started 1 (.updateValue "D" .signal 0 (.int32 7)),
    .accessed 1 (.updateValue "D" .signal 0 (.int32 7)) (.ok true),
    .ended 1 (.updateValue "D" .signal 0 (.int32 7)) (.ok (.flag true)),
    .started 1 (.updateValue "D" .signal 1 (.int32 8)),
    .accessed 1 (.updateValue "D" .signal 1 (.int32 8)) (.ok true),
    .ended 1 (.updateValue "D" .signal 1 (.int32 8)) (.ok (.flag true)),
    .accessed 0 (.getValue "D" .signal 1) (.ok (some (.int32 8))),
    .ended 0 (.getTransMultiValue "T" .signal 0 2 []) (.ok (.values (true, [.int32 0, .int32 8])))]

/-- The first point as it was before, the second as it is after the writes: the values are those
of no single moment. -/
theorem torn_read : ∃ s xs parts, init twoPoints.cfg = .ok s ∧
    Delivered twoPoints s (run twoPoints s bothWritten).log "T" .signal (visited 0) 2 []
      (true, [.int32 0, .int32 8]) xs parts ∧
    ∀ k, ¬ (latest s (run twoPoints s bothWritten).log k ("D", .signal, 0) = some (.int32 0) ∧
      latest s (run twoPoints s bothWritten).log k ("D", .signal, 1) = some (.int32 8)) := by
  obtain ⟨s, hinit, hlog, hstart⟩ : ∃ s, init twoPoints.cfg = .ok s ∧
      (run twoPoints s bothWritten).log = bothWrittenLog ∧
      (initial s ("D", .signal, 0) = some (.int32 0) ∧
        initial s ("D", .signal, 1) = some (.int32 0)) := ⟨_, rfl, rfl, by decide +kernel⟩
  have hended : (run twoPoints s bothWritten).log[9]? =
      some (.ended 0 (.getTransMultiValue "T" .signal 0 2 [])
        (.ok (.values (true, [.int32 0, .int32 8])))) := by rw [hlog]; rfl
  obtain ⟨_, xs, parts, -, -, -, hparts⟩ := trans_values_shown twoPoints hinit bothWritten hended
  refine ⟨s, xs, parts, hinit, hparts, fun k ⟨h0, h1⟩ => ?_⟩
  rw [hlog] at h0 h1
  -- the second point is written after the first one
  have hwrites : ∀ k < 11,
      Lib.Memory.latest ("D", .signal, 1) (writes (bothWrittenLog.take k)) = none ∨
        Lib.Memory.latest ("D", .signal, 0) (writes (bothWrittenLog.take k)) = some (.int32 7) := by
    decide +kernel
  have htake : bothWrittenLog.take k = bothWrittenLog.take (min k 10) := List.take_eq_take_min
  rcases hwrites (min k 10) (by omega) with h | h
  · simp [latest, after, hstart.2, htake, h] at h1
  · simp [latest, after, hstart.1, htake, h] at h0

end DataEngine.DataStorage.Shared
