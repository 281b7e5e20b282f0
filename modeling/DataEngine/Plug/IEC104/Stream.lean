import DataEngine.Plug.IEC104.Framing

/-!
The frames of a stream.

Every connection carries a sequence of frames, cut into messages anywhere and interleaved with
the messages of other connections. What has been analysed of a connection and what waits in
its buffer make up what has been received on it.
-/

namespace DataEngine.TransIEC104

open Json ConfigParse Lib.Effect Lib.DoWhile Lib.Trace

/-- A well-formed frame: the start octet, a length octet, and as many octets as it says. -/
structure Apdu where
  apduLen : UInt8
  body : List UInt8
  lo : 4 ≤ apduLen.toNat
  hi : apduLen.toNat ≤ 253
  fits : body.length = apduLen.toNat

def Apdu.octets (a : Apdu) : Frame := 0x68 :: a.apduLen :: a.body

@[simp] lemma Apdu.length_octets (a : Apdu) : a.octets.length = a.apduLen.toNat + 2 := by
  simp [Apdu.octets, a.fits]

def stream (apdus : List Apdu) : List UInt8 := (apdus.map Apdu.octets).flatten

@[simp] lemma stream_nil : stream [] = [] := rfl

@[simp] lemma stream_cons (a : Apdu) (apdus : List Apdu) :
    stream (a :: apdus) = a.octets ++ stream apdus := rfl

lemma stream_append (as bs : List Apdu) : stream (as ++ bs) = stream as ++ stream bs := by
  simp [stream]

/-! ### Verdicts on a stream -/

lemma verdict_invalid {build : Build} {buf : List UInt8} :
    (verdict build buf).1 = .invalid ↔ buf.getD 0 0 ≠ 0x68 := by
  unfold verdict fixFrame
  constructor
  · intro h h0
    simp only [h0, ne_eq, not_true_eq_false, if_false] at h
    split_ifs at h
  · intro h
    rw [if_pos h]

/-- A buffer that begins a stream holds the first frame of the stream whole, or too little of
it to say. -/
lemma verdict_of_stream {buf : List UInt8} {apdus : List Apdu} (h : buf <+: stream apdus) :
    (∃ a rest more, apdus = a :: rest ∧ buf = a.octets ++ more ∧
        verdict .aarch64 buf = (.complete, (a.octets.length : ℤ))) ∨
      (∀ a rest, apdus = a :: rest → buf.length < a.octets.length) ∧
        ((verdict .aarch64 buf).1 = .incomplete ∨ buf = []) := by
  cases apdus with
  | nil =>
    obtain rfl : buf = [] := by simpa using h
    exact .inr ⟨by simp, .inr rfl⟩
  | cons a rest =>
    rw [stream_cons] at h
    by_cases hlen : a.octets.length ≤ buf.length
    · obtain ⟨more, rfl⟩ := List.prefix_of_prefix_length_le (List.prefix_append _ _) h hlen
      refine .inl ⟨a, rest, more, rfl, rfl, verdict_complete.mpr ⟨rfl, ?_, ?_, ?_⟩⟩
      · simp
        omega
      · rw [Apdu.length_octets]
        simp [Apdu.octets, Build.charVal]
      · simp
    · have hshort : buf.length < a.octets.length := Nat.lt_of_not_le hlen
      refine .inr ⟨fun b rest' hb => ?_, ?_⟩
      · obtain ⟨rfl, -⟩ := List.cons.inj hb
        exact hshort
      obtain ⟨more, hmore⟩ :=
        List.prefix_of_prefix_length_le h (List.prefix_append a.octets _) (Nat.le_of_lt hshort)
      rcases buf with _ | ⟨x, _ | ⟨y, buf⟩⟩
      · exact .inr rfl
      · obtain ⟨rfl, -⟩ : x = 0x68 ∧ _ := by simpa [Apdu.octets] using hmore
        exact .inl rfl
      · obtain ⟨rfl, rfl, -⟩ : x = 0x68 ∧ y = a.apduLen ∧ _ := by
          simpa [Apdu.octets] using hmore
        refine .inl ?_
        rcases hv : verdict .aarch64 (0x68 :: a.apduLen :: buf) with ⟨_ | _ | _, n⟩
        · exact absurd rfl (verdict_invalid.mp (congrArg Prod.fst hv))
        · obtain ⟨-, -, rfl, hn⟩ := verdict_complete.mp hv
          simp only [List.getD_cons_succ, List.getD_cons_zero, Build.charVal] at hn
          simp only [Apdu.length_octets] at hshort
          omega
        · rfl

/-! ### What has been analysed -/

def Ev.frameOn (fd : ℤ) : Ev → Option Frame
  | .analysed fd' f => if fd' = fd then some f else none
  | _ => none

/-- The frames handed to `analyseFrame` while a connection is handled. -/
def framesOn (fd : ℤ) (log : List Ev) : List Frame := log.filterMap (Ev.frameOn fd)

/-- The octets a sequence of calls brings for a connection. -/
def bytesOn (fd : ℤ) (calls : List (ℤ × List UInt8)) : List UInt8 :=
  ((calls.filter fun c => c.1 = fd).map Prod.snd).flatten

lemma framesOn_append (fd : ℤ) (log evs : List Ev) :
    framesOn fd (log ++ evs) = framesOn fd log ++ framesOn fd evs := List.filterMap_append

lemma Answer.framesOn_eq {n : ℕ} {s t : Plug} {evs : List Ev} (h : Answer n s t evs) (fd : ℤ) :
    framesOn fd evs = [] := by
  refine List.filterMap_eq_nil_iff.mpr fun e he => ?_
  rcases h.mem he with ⟨f, rfl⟩ | ⟨time, rfl⟩ <;> rfl

variable {R V : Type} [Double R] (env : Env R V)

/-- Handling a frame leaves the connection as it is and analyses the frame on it. -/
lemma handleFrame_frames (fd : ℤ) (s : Plug) (n : ℕ) (fd' : ℤ) :
    (handleFrame env fd s n).2.fd = s.fd ∧
      framesOn fd' (handleFrame env fd s n).2.log = framesOn fd' s.log ++
        if s.fd = fd' then [(s.mapRecvBuf fd).take n] else [] := by
  obtain ⟨evs, h⟩ := analyseFrame_handled env ((s.mapRecvBuf fd).take n)
    (setBuf s fd ((s.mapRecvBuf fd).drop n))
  refine ⟨h.answer.fd, ?_⟩
  have hlog : (handleFrame env fd s n).2.log =
      s.log ++ [.analysed s.fd ((s.mapRecvBuf fd).take n)] ++ evs := h.answer.log
  rw [hlog, framesOn_append, framesOn_append, h.answer.framesOn_eq, List.append_nil]
  by_cases hfd : s.fd = fd' <;> simp [framesOn, Ev.frameOn, hfd]

/-- Of every connection, the first frames have been analysed, and what has been received of
the others waits in its buffer. -/
def Tracks (apdus : ℤ → List Apdu) (got : ℤ → List UInt8) (s : Plug) : Prop :=
  ∀ fd, ∃ done rest, apdus fd = done ++ rest ∧ framesOn fd s.log = done.map Apdu.octets ∧
    got fd = stream done ++ s.mapRecvBuf fd

/-- No whole frame waits in the buffer of a connection. -/
def Waits (apdus : ℤ → List Apdu) (s : Plug) (fd : ℤ) : Prop :=
  ∀ done a rest, apdus fd = done ++ a :: rest → framesOn fd s.log = done.map Apdu.octets →
    (s.mapRecvBuf fd).length < a.octets.length

variable {apdus : ℤ → List Apdu} {got : ℤ → List UInt8}

lemma waits_of_empty {s : Plug} {fd : ℤ} (h : s.mapRecvBuf fd = []) : Waits apdus s fd := by
  intro done a rest _ _
  rw [h, Apdu.length_octets, List.length_nil]
  omega

lemma Waits.congr {s t : Plug} {fd : ℤ} (h : Waits apdus s fd)
    (hf : framesOn fd t.log = framesOn fd s.log) (hb : t.mapRecvBuf fd = s.mapRecvBuf fd) :
    Waits apdus t fd := by
  intro done a rest ha hd
  rw [hb]
  exact h done a rest ha (hf ▸ hd)

lemma Tracks.prefix_rest {s : Plug} {fd : ℤ} {done rest : List Apdu}
    (hgot : got fd <+: stream (apdus fd)) (ha : apdus fd = done ++ rest)
    (hg : got fd = stream done ++ s.mapRecvBuf fd) : s.mapRecvBuf fd <+: stream rest := by
  rw [hg, ha, stream_append] at hgot
  exact (List.prefix_append_right_inj _).mp hgot

/-- Octets of different sequences of frames differ. -/
lemma octets_inj {as bs : List Apdu} (h : as.map Apdu.octets = bs.map Apdu.octets) : as = bs := by
  refine List.map_injective_iff.mpr (fun a b hab => ?_) h
  obtain ⟨hl, hb⟩ : a.apduLen = b.apduLen ∧ a.body = b.body := by
    simpa [Apdu.octets] using hab
  cases a
  cases b
  simp_all

/-- What a pass does to a stream: it leaves the loop with no whole frame in the buffer, or
analyses the next frame. -/
lemma pass_of_tracks {fd : ℤ} {s : Plug} (hfd : s.fd = fd)
    (hgot : ∀ fd, got fd <+: stream (apdus fd)) (h : Tracks apdus got s) :
    (handlePass env .aarch64 fd s = .leave (.ok (), s) ∧ Waits apdus s fd) ∨
      ∃ done a rest n, apdus fd = done ++ a :: rest ∧ framesOn fd s.log = done.map Apdu.octets ∧
        (s.mapRecvBuf fd).take n = a.octets ∧
        verdict .aarch64 (s.mapRecvBuf fd) = (.complete, (n : ℤ)) ∧ toSize n = n ∧
        Tracks apdus got (handleFrame env fd s n).2 := by
  obtain ⟨done, rest, ha, hf, hg⟩ := h fd
  have hpre := Tracks.prefix_rest (hgot fd) ha hg
  rcases verdict_of_stream hpre with ⟨a, rest', more, rfl, hbuf, hv⟩ | ⟨hshort, hv⟩
  · have hsize : toSize (a.octets.length : ℤ) = a.octets.length := by
      have := a.hi
      rw [toSize_eq (by omega) (by simp; omega), Int.toNat_natCast]
    have htake : (s.mapRecvBuf fd).take a.octets.length = a.octets := by
      rw [hbuf, List.take_left]
    refine .inr ⟨done, a, rest', a.octets.length, ha, hf, htake, hv, hsize, fun fd' => ?_⟩
    obtain ⟨-, hframes⟩ := handleFrame_frames env fd s a.octets.length fd'
    rw [hframes, handleFrame_buf, hfd, htake]
    by_cases he : fd' = fd
    · subst he
      refine ⟨done ++ [a], rest', by simp [ha], by simp [hf], ?_⟩
      rw [Function.update_self, hg, hbuf, List.drop_left, stream_append]
      simp
    · rw [if_neg fun h => he h.symm, List.append_nil, Function.update_of_ne he]
      exact h fd'
  · have hwait : Waits apdus s fd := by
      intro done' a rest' ha' hd'
      obtain rfl : done = done' := octets_inj (hf.symm.trans hd')
      exact hshort a rest' (List.append_cancel_left (ha.symm.trans ha'))
    refine .inl ⟨?_, hwait⟩
    rcases hv with hv | hv
    · exact handlePass_incomplete env .aarch64 (Prod.ext hv rfl)
    · have hinv : (verdict .aarch64 (s.mapRecvBuf fd)).1 = .invalid := by
        rw [verdict_invalid, hv]
        decide
      rw [handlePass_invalid env .aarch64 (Prod.ext hinv rfl), setBuf, ← hv,
        Function.update_eq_self]

/-! ### One call -/

/-- The handler of a frame of the connection has ended with a fault, and the frame is the last one
that has been analysed there. -/
def FailsIn (apdus : ℤ → List Apdu) (fd : ℤ) (e : Fault) (t : Plug) : Prop :=
  ∃ done a rest s, apdus fd = done ++ a :: rest ∧
    framesOn fd t.log = (done ++ [a]).map Apdu.octets ∧
    exec (analyseFrame env a.octets) s = (.error e, t)

/-- How a call ends on a stream: with no whole frame in any buffer, or with the fault of the
handler of a frame of its connection. -/
structure Ends (fd : ℤ) (apdus : ℤ → List Apdu) (got : ℤ → List UInt8) (o : Outcome) : Prop where
  tracks : Tracks apdus got o.2
  waits : o.1 = .ok () → ∀ fd, Waits apdus o.2 fd
  fault : ∀ e, o.1 = .error e → FailsIn env apdus fd e o.2

lemma ends_of_leaves {fd : ℤ} {s : Plug} {o : Outcome} (hfd : s.fd = fd)
    (hgot : ∀ fd, got fd <+: stream (apdus fd)) (h : Tracks apdus got s)
    (hw : ∀ fd', fd' ≠ fd → Waits apdus s fd')
    (ho : Leaves (handlePass env .aarch64 fd) s o) : Ends env fd apdus got o := by
  have hstep (s t : Plug)
      (hs : s.fd = fd ∧ Tracks apdus got s ∧ ∀ fd', fd' ≠ fd → Waits apdus s fd')
      (ht : handlePass env .aarch64 fd s = .again t) :
      t.fd = fd ∧ Tracks apdus got t ∧ ∀ fd', fd' ≠ fd → Waits apdus t fd' := by
    obtain ⟨hfd, h, hw⟩ := hs
    rcases pass_of_tracks env hfd hgot h with ⟨hl, -⟩ | ⟨-, -, -, n, -, -, -, hv, hn, htr⟩
    · simp [hl] at ht
    · obtain ⟨m, hm, rfl, -⟩ := complete_of_again env .aarch64 ht
      obtain rfl : (n : ℤ) = m := congrArg Prod.snd (hv.symm.trans hm)
      rw [hn]
      refine ⟨(handleFrame_frames env fd s n fd).1.trans hfd, htr, fun fd' hne => ?_⟩
      refine (hw fd' hne).congr ?_ ?_
      · rw [(handleFrame_frames env fd s n fd').2, hfd, if_neg (Ne.symm hne), List.append_nil]
      · rw [handleFrame_buf, Function.update_of_ne hne]
  refine Leaves.inv hstep (fun s o hs ho => ?_) ⟨hfd, h, hw⟩ ho
  obtain ⟨hfd, h, hw⟩ := hs
  rcases pass_of_tracks env hfd hgot h with
    ⟨hl, hwait⟩ | ⟨done, a, rest, n, ha, hf, htake, hv, hn, htr⟩
  · obtain rfl : o = (.ok (), s) := by
      rw [hl] at ho
      simpa using ho.symm
    refine ⟨h, fun _ fd' => ?_, fun e he => by simp at he⟩
    by_cases hne : fd' = fd
    · rw [hne]
      exact hwait
    · exact hw fd' hne
  · rcases handlePass_complete env .aarch64 hv with ⟨hp, hempty⟩ | ⟨hp, -⟩
    · obtain rfl : o = handleFrame env fd s n := by
        rw [hp, hn] at ho
        simpa using ho.symm
      rw [hn] at hempty
      refine ⟨htr, fun hok fd' => ?_, fun e he => ⟨done, a, rest, ?_⟩⟩
      · by_cases hne : fd' = fd
        · rw [hne]
          exact waits_of_empty (hempty hok)
        · refine (hw fd' hne).congr ?_ ?_
          · rw [(handleFrame_frames env fd s n fd').2, hfd, if_neg (Ne.symm hne), List.append_nil]
          · rw [handleFrame_buf, Function.update_of_ne hne]
      · have hframes := (handleFrame_frames env fd s n fd).2
        rw [hfd, if_pos rfl, hf, htake] at hframes
        rw [← htake]
        exact ⟨_, ha, by rw [hframes, List.map_append, List.map_singleton], Prod.ext he rfl⟩
    · simp [hp] at ho

lemma tracks_receive {fd : ℤ} {chunk : List UInt8} {s : Plug} (h : Tracks apdus got s) :
    Tracks apdus (Function.update got fd (got fd ++ chunk)) (receive fd chunk s) := by
  intro fd'
  obtain ⟨done, rest, ha, hf, hg⟩ := h fd'
  refine ⟨done, rest, ha, hf, ?_⟩
  simp only [receive, setBuf]
  by_cases he : fd' = fd
  · subst he
    rw [Function.update_self, Function.update_self, hg, List.append_assoc]
  · rw [Function.update_of_ne he, Function.update_of_ne he, hg]

/-- From `s` to `t` everything sent goes to `fd`. -/
def SendsTo (fd : ℤ) (s t : Plug) : Prop :=
  ∃ evs, t.log = s.log ++ evs ∧ ∀ fd' f, .sent fd' f ∈ evs → fd' = fd

lemma handleFrame_sendsTo {fd : ℤ} {s t : Plug} (n : ℕ) (hfd : t.fd = fd) (h : SendsTo fd s t) :
    SendsTo fd s (handleFrame env fd t n).2 := by
  obtain ⟨evs, hlog, hsent⟩ := h
  obtain ⟨evs', he⟩ := analyseFrame_handled env ((t.mapRecvBuf fd).take n)
    (setBuf t fd ((t.mapRecvBuf fd).drop n))
  refine ⟨evs ++ [.analysed t.fd ((t.mapRecvBuf fd).take n)] ++ evs', ?_, fun fd' f hmem => ?_⟩
  · refine he.answer.log.trans ?_
    simp [heard, setBuf, hlog]
  · simp only [List.mem_append, List.mem_singleton, reduceCtorEq, or_false] at hmem
    rcases hmem with hmem | hmem
    · exact hsent fd' f hmem
    · rcases he.answer.mem hmem with ⟨g, hg⟩ | ⟨time, hg⟩
      · obtain ⟨rfl, -⟩ := Ev.sent.inj hg
        exact hfd
      · simp at hg

/-- A call sends to its own connection only. -/
lemma sendsTo_of_call {build : Build} {fd : ℤ} {chunk : List UInt8} {s : Plug} {o : Outcome}
    (h : HandleMessage env build fd chunk s o) : SendsTo fd s o.2 := by
  have hstep (t u : Plug) (ht : t.fd = fd ∧ SendsTo fd s t)
      (hu : handlePass env build fd t = .again u) : u.fd = fd ∧ SendsTo fd s u := by
    obtain ⟨n, -, rfl, -⟩ := complete_of_again env build hu
    exact ⟨(handleFrame_frames env fd t _ fd).1.trans ht.1, handleFrame_sendsTo env _ ht.1 ht.2⟩
  have hout (t : Plug) (o : Outcome) (ht : t.fd = fd ∧ SendsTo fd s t)
      (ho : handlePass env build fd t = .leave o) : SendsTo fd s o.2 := by
    rcases hv : verdict build (t.mapRecvBuf fd) with ⟨_ | _ | _, n⟩
    · rw [handlePass_invalid env build hv] at ho
      obtain rfl : (.ok (), setBuf t fd []) = o := by simpa using ho
      exact ht.2
    · rcases handlePass_complete env build hv with ⟨hp, -⟩ | ⟨hp, -⟩
      · rw [hp] at ho
        obtain rfl : handleFrame env fd t (toSize n) = o := by simpa using ho
        exact handleFrame_sendsTo env _ ht.1 ht.2
      · simp [hp] at ho
    · rw [handlePass_incomplete env build hv] at ho
      obtain rfl : (.ok (), t) = o := by simpa using ho
      exact ht.2
  exact Leaves.inv hstep hout ⟨rfl, [], by simp [receive, setBuf], by simp⟩ h

/-! ### Successive calls -/

/-- Calls of `handleMessage` one after another; one that ends with a fault is the last. -/
inductive Calls (build : Build) : List (ℤ × List UInt8) → Plug → Outcome → Prop where
  | nil (s : Plug) : Calls build [] s (.ok (), s)
  | cons {fd : ℤ} {chunk : List UInt8} {calls : List (ℤ × List UInt8)} {s t : Plug} {o : Outcome}
      (call : HandleMessage env build fd chunk s (.ok (), t)) (rest : Calls build calls t o) :
      Calls build ((fd, chunk) :: calls) s o
  | stop {fd : ℤ} {chunk : List UInt8} {calls : List (ℤ × List UInt8)} {s t : Plug} {e : Fault}
      (call : HandleMessage env build fd chunk s (.error e, t)) :
      Calls build ((fd, chunk) :: calls) s (.error e, t)

lemma bytesOn_cons (fd fd' : ℤ) (chunk : List UInt8) (calls : List (ℤ × List UInt8)) :
    bytesOn fd' ((fd, chunk) :: calls) = (if fd = fd' then chunk else []) ++ bytesOn fd' calls := by
  by_cases h : fd = fd' <;> simp [bytesOn, h]

/-- What a call does with a stream. -/
lemma ends_of_call {fd : ℤ} {chunk : List UInt8} {s : Plug} {o : Outcome}
    (hgot : ∀ fd', Function.update got fd (got fd ++ chunk) fd' <+: stream (apdus fd'))
    (h : Tracks apdus got s) (hw : ∀ fd', Waits apdus s fd')
    (ho : HandleMessage env .aarch64 fd chunk s o) :
    Ends env fd apdus (Function.update got fd (got fd ++ chunk)) o := by
  refine ends_of_leaves env rfl hgot (tracks_receive h) (fun fd' hne => ?_) ho
  have hne : fd' ≠ fd := hne
  refine (hw fd').congr rfl ?_
  simp [receive, setBuf, Function.update_of_ne hne]

lemma bytesOn_append (fd : ℤ) (calls calls' : List (ℤ × List UInt8)) :
    bytesOn fd (calls ++ calls') = bytesOn fd calls ++ bytesOn fd calls' := by
  simp [bytesOn]

/-- What has been received with one more call. -/
lemma update_bytesOn (got : ℤ → List UInt8) (fd fd' : ℤ) (chunk : List UInt8)
    (calls : List (ℤ × List UInt8)) :
    Function.update got fd (got fd ++ chunk) fd' ++ bytesOn fd' calls =
      got fd' ++ bytesOn fd' ((fd, chunk) :: calls) := by
  rw [bytesOn_cons]
  by_cases he : fd' = fd
  · subst he
    simp
  · simp [Function.update_of_ne he, Ne.symm he]

/-- What a sequence of calls does with the streams: all of it has been received if every call
returned, and otherwise what there was up to the call that did not. -/
lemma ends_of_calls {calls : List (ℤ × List UInt8)} {s : Plug} {o : Outcome}
    (hsplit : ∀ fd, got fd ++ bytesOn fd calls <+: stream (apdus fd)) (h : Tracks apdus got s)
    (hw : ∀ fd, Waits apdus s fd) (ho : Calls env .aarch64 calls s o) :
    ∃ got', Tracks apdus got' o.2 ∧
      (o.1 = .ok () → (∀ fd, Waits apdus o.2 fd) ∧ ∀ fd, got' fd = got fd ++ bytesOn fd calls) ∧
      ∀ e, o.1 = .error e → ∃ before fd chunk after, calls = before ++ (fd, chunk) :: after ∧
        FailsIn env apdus fd e o.2 ∧
        ∀ fd', got' fd' = got fd' ++ bytesOn fd' (before ++ [(fd, chunk)]) := by
  induction ho generalizing got with
  | nil s => exact ⟨got, h, fun _ => ⟨hw, by simp [bytesOn]⟩, by simp⟩
  | @cons fd chunk calls s t o call rest ih =>
    have hsplit' (fd' : ℤ) : Function.update got fd (got fd ++ chunk) fd' ++ bytesOn fd' calls <+:
        stream (apdus fd') := by
      rw [update_bytesOn]
      exact hsplit fd'
    have hend := ends_of_call env (fun fd' => (List.prefix_append _ _).trans (hsplit' fd')) h hw
      call
    obtain ⟨got', htracks, hok, hfault⟩ := ih hsplit' hend.tracks (hend.waits rfl)
    refine ⟨got', htracks, fun hr => ?_, fun e he => ?_⟩
    · obtain ⟨hwaits, hgot⟩ := hok hr
      exact ⟨hwaits, fun fd' => (hgot fd').trans (update_bytesOn got fd fd' chunk calls)⟩
    · obtain ⟨before, fd₁, chunk₁, after, rfl, hfails, hgot⟩ := hfault e he
      exact ⟨(fd, chunk) :: before, fd₁, chunk₁, after, rfl, hfails,
        fun fd' => (hgot fd').trans (update_bytesOn got fd fd' chunk _)⟩
  | @stop fd chunk calls s t e call =>
    have hone (fd' : ℤ) : Function.update got fd (got fd ++ chunk) fd' =
        got fd' ++ bytesOn fd' ([] ++ [(fd, chunk)]) := by
      have hempty : bytesOn fd' [] = [] := rfl
      rw [List.nil_append, ← update_bytesOn, hempty, List.append_nil]
    have hpre (fd' : ℤ) : Function.update got fd (got fd ++ chunk) fd' <+: stream (apdus fd') := by
      refine List.IsPrefix.trans ?_ (hsplit fd')
      have hcut : (fd, chunk) :: calls = ([] ++ [(fd, chunk)]) ++ calls := rfl
      rw [hone, hcut, bytesOn_append fd' ([] ++ [(fd, chunk)])]
      exact (List.prefix_append_right_inj _).mpr (List.prefix_append _ _)
    have hend := ends_of_call env hpre h hw call
    exact ⟨_, hend.tracks, fun hok => by simp at hok,
      fun e he => ⟨[], fd, chunk, calls, rfl, hend.fault e he, hone⟩⟩

lemma calls_end (calls : List (ℤ × List UInt8)) (s : Plug) :
    ∃ o, Calls env .aarch64 calls s o := by
  induction calls generalizing s with
  | nil => exact ⟨_, .nil s⟩
  | cons c calls ih =>
    obtain ⟨fd, chunk⟩ := c
    have hdrain : Drains env .aarch64 fd (receive fd chunk s) :=
      drains_of_sound env .aarch64 fun t _ => sound_aarch64 _
    obtain ⟨⟨e | u, t⟩, ht⟩ := hdrain.halts
    · exact ⟨_, .stop ht⟩
    · obtain ⟨o, ho⟩ := ih t
      exact ⟨o, .cons ht ho⟩

/-- **Frames of a stream**: where a plain `char` is unsigned, however the frames of the
connections are cut into messages and the messages interleaved, the calls come to an end; the
frames analysed on a connection are its first ones, and once all its octets have been handled
they are all of them and nothing waits; a call that does not return ends in the handler of the
frame its connection is at, and what has been received and not analysed is still in the buffers;
and a call sends to its own connection only. -/
theorem frames_of_stream (apdus : ℤ → List Apdu) (calls : List (ℤ × List UInt8))
    (hsplit : ∀ fd, bytesOn fd calls <+: stream (apdus fd)) :
    (∃ o, Calls env .aarch64 calls Plug.init o) ∧
    (∀ o, Calls env .aarch64 calls Plug.init o →
      (∀ fd, framesOn fd o.2.log <+: (apdus fd).map Apdu.octets) ∧
      (o.1 = .ok () → ∀ fd, bytesOn fd calls = stream (apdus fd) →
        framesOn fd o.2.log = (apdus fd).map Apdu.octets ∧ o.2.mapRecvBuf fd = []) ∧
      (∀ e, o.1 = .error e → ∃ before fd chunk after, calls = before ++ (fd, chunk) :: after ∧
        FailsIn env apdus fd e o.2 ∧
        ∀ fd', ∃ done, framesOn fd' o.2.log = done.map Apdu.octets ∧
          bytesOn fd' (before ++ [(fd, chunk)]) = stream done ++ o.2.mapRecvBuf fd')) ∧
    (∀ fd chunk s o, HandleMessage env .aarch64 fd chunk s o → SendsTo fd s o.2) := by
  refine ⟨calls_end env calls _, fun o ho => ?_, fun fd chunk s o h => sendsTo_of_call env h⟩
  have hstart : Tracks apdus (fun _ => []) Plug.init :=
    fun fd => ⟨[], apdus fd, rfl, rfl, rfl⟩
  obtain ⟨got, htracks, hreturn, hfault⟩ := ends_of_calls env (fun fd => by simpa using hsplit fd)
    hstart (fun fd => waits_of_empty rfl) ho
  refine ⟨fun fd => ?_, fun hok fd hfull => ?_, fun e he => ?_⟩
  · obtain ⟨done, rest, ha, hf, -⟩ := htracks fd
    rw [hf, ha, List.map_append]
    exact List.prefix_append _ _
  · obtain ⟨hwaits, hall⟩ := hreturn hok
    obtain ⟨done, rest, ha, hf, hg⟩ := htracks fd
    -- all of the stream was received, so what waits is the rest of it
    have hbuf : o.2.mapRecvBuf fd = stream rest := by
      rw [hall fd, hfull, List.nil_append, ha, stream_append] at hg
      exact (List.append_cancel_left hg).symm
    cases rest with
    | nil =>
      rw [List.append_nil] at ha
      rw [hf, ha, hbuf]
      exact ⟨rfl, rfl⟩
    | cons a rest =>
      have := hwaits fd done a rest ha hf
      rw [hbuf, stream_cons, List.length_append] at this
      omega
  · obtain ⟨before, fd, chunk, after, hcalls, hfails, hgot⟩ := hfault e he
    refine ⟨before, fd, chunk, after, hcalls, hfails, fun fd' => ?_⟩
    obtain ⟨done, -, -, hf, hg⟩ := htracks fd'
    rw [hgot fd', List.nil_append] at hg
    exact ⟨done, hf, hg⟩

/-- A U-format frame. -/
def uApdu (ctrlField1 : UInt8) : Apdu :=
  ⟨4, [ctrlField1, 0, 0, 0], by decide, by decide, rfl⟩

/-- One frame on each of two connections. -/
def twoStreams (fd : ℤ) : List Apdu :=
  if fd = 5 then [uApdu startdtAct] else if fd = 6 then [uApdu testfrAct] else []

/-- The two frames cut in the header and in the middle. -/
def cutCalls : List (ℤ × List UInt8) :=
  [(5, [0x68]), (6, [0x68, 4, 0x43]), (5, [4, 7, 0, 0, 0]), (6, [0, 0, 0])]

theorem frames_of_cut :
    ∃ o, Calls bareEnv .aarch64 cutCalls Plug.init o ∧
      (o.1 = .ok () → framesOn 6 o.2.log = [(uApdu testfrAct).octets]) := by
  have hsplit (fd : ℤ) : bytesOn fd cutCalls = stream (twoStreams fd) := by
    by_cases h5 : fd = 5
    · subst h5
      decide
    by_cases h6 : fd = 6
    · subst h6
      decide
    · simp [bytesOn, cutCalls, twoStreams, h5, h6, Ne.symm h5, Ne.symm h6]
  have hprefix (fd : ℤ) : bytesOn fd cutCalls <+: stream (twoStreams fd) := by
    rw [hsplit]
  obtain ⟨⟨o, ho⟩, h, -⟩ := frames_of_stream bareEnv twoStreams cutCalls hprefix
  exact ⟨o, ho, fun hok => ((h o ho).2.1 hok 6 (hsplit 6)).1⟩

/-- A plug-in whose point type is configured as text, which is no number. -/
def textYxEnv : Env ℚ Unit where
  __ := bareEnv
  cfg := { ConfigParse.empty with
    mapTransNameCfg := (∅ : Map String (Map CfgType (Value ℚ))).insert "T"
      ((∅ : Map CfgType (Value ℚ)).insert .protocol
        (.object [("param", .object [("yxType", .string "single")])])) }

/-- A general interrogation. -/
def giApdu : Apdu := ⟨14, giCommand.drop 2, by decide, by decide, rfl⟩

/-- An interrogation and a U-format frame on one connection. -/
def giThenU (fd : ℤ) : List Apdu := if fd = 5 then [giApdu, uApdu startdtAct] else []

/-- Two frames in one message: the handler of the first raises, the second waits. -/
theorem handler_ends_call :
    ∃ calls, (∀ fd, bytesOn fd calls = stream (giThenU fd)) ∧
      ∃ o, Calls textYxEnv .aarch64 calls Plug.init o ∧
        ¬ ∀ fd, framesOn fd o.2.log = (giThenU fd).map Apdu.octets ∧ o.2.mapRecvBuf fd = [] := by
  refine ⟨[(5, stream [giApdu, uApdu startdtAct])], fun fd => ?_, ?_⟩
  · by_cases h5 : fd = 5
    · subst h5
      decide
    · simp [bytesOn, giThenU, h5, Ne.symm h5]
  · have hfault : ∃ t, handlePass textYxEnv .aarch64 5
        (receive 5 (stream [giApdu, uApdu startdtAct]) Plug.init) =
          .leave (.error .logicError, t) ∧ t.mapRecvBuf 5 ≠ [] := ⟨_, rfl, by decide⟩
    obtain ⟨t, ht, hne⟩ := hfault
    exact ⟨_, .stop (leaves_of_leave ht), fun h => hne (h 5).2⟩
end DataEngine.TransIEC104
