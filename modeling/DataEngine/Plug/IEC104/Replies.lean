import DataEngine.Lib.Trace
import DataEngine.Plug.IEC104.TransIEC104

/-!
What the plug-in replies to a frame.

Whatever is received, the plug-in only adds to its log and advances its send counter while it
handles a frame: every frame it sends goes to the connection it is handling and carries the
counters of that moment. The send counter is advanced once for every I-format frame, except by
the confirmation of a clock command.
-/

namespace DataEngine.TransIEC104

open Json ConfigParse Lib.Effect Lib.Trace

/-! ### Formats and counters -/

def isI (f : Frame) : Bool := f.getD 2 0 &&& 1 = 0
def isU (f : Frame) : Bool := f.getD 2 0 &&& 3 = 3

/-- N(S), as the receiver of a frame reads it. -/
def sendSeq (f : Frame) : ℕ := ((f.getD 2 0).toNat ||| (f.getD 3 0).toNat <<< 8) >>> 1

/-- N(R), as the receiver of a frame reads it. -/
def recvSeq (f : Frame) : ℕ := ((f.getD 4 0).toNat ||| (f.getD 5 0).toNat <<< 8) >>> 1

/-- A general interrogation. -/
def isGI (f : Frame) : Bool := isI f && f.getD 6 0 = cIcNa1

/-- A clock command. -/
def isClock (f : Frame) : Bool := isI f && f.getD 6 0 = cCsNa1

/-- A command that is answered with I-format frames. -/
def isCommand (f : Frame) : Bool := isGI f || isClock f

/-- The octets that `m_sendIdx` and `m_recvIdx` are written to. -/
def SendsIdx (n : ℕ) (f : Frame) : Prop := f.getD 2 0 = octet (2 * n) 0 ∧ f.getD 3 0 = octet n 1
def AcksIdx (n : ℕ) (f : Frame) : Prop := f.getD 4 0 = octet (2 * n) 0 ∧ f.getD 5 0 = octet n 1

lemma octet_toNat (n j : ℕ) : (octet n j).toNat = n / 256 ^ j % 256 := by
  have h : ((n : ℤ) / 256 ^ j % 256).toNat = n / 256 ^ j % 256 := by
    rw [← Int.toNat_natCast (n / 256 ^ j % 256)]
    norm_cast
  unfold octet
  rw [h, UInt8.toNat_ofNat']
  exact Nat.mod_eq_of_lt (Nat.mod_lt _ (by norm_num))

/-- The two octets written for a counter are read back as the counter while it is small. -/
lemma wire_of_lt {n : ℕ} (h : n < 128) :
    ((octet (2 * n) 0).toNat ||| (octet n 1).toNat <<< 8) >>> 1 = n := by
  have h0 : (octet (2 * n) 0).toNat = 2 * n := by
    rw [show (2 * (n : ℤ)) = ((2 * n : ℕ) : ℤ) by push_cast; rfl, octet_toNat]
    omega
  have h1 : (octet n 1).toNat = 0 := by
    rw [octet_toNat]
    omega
  rw [h0, h1, Nat.zero_shiftLeft, Nat.or_zero, Nat.shiftRight_eq_div_pow]
  omega

lemma sendSeq_of_lt {n : ℕ} {f : Frame} (hf : SendsIdx n f) (h : n < 128) : sendSeq f = n := by
  unfold sendSeq
  rw [hf.1, hf.2, wire_of_lt h]

lemma recvSeq_of_lt {n : ℕ} {f : Frame} (hf : AcksIdx n f) (h : n < 128) : recvSeq f = n := by
  unfold recvSeq
  rw [hf.1, hf.2, wire_of_lt h]

lemma isI_of_sendsIdx {n : ℕ} {f : Frame} (h : SendsIdx n f) : isI f = true := by
  have h0 : (octet (2 * n) 0 &&& 1).toNat = 0 := by
    rw [UInt8.toNat_and, show (2 * (n : ℤ)) = ((2 * n : ℕ) : ℤ) by push_cast; rfl, octet_toNat]
    simp only [UInt8.toNat_one, Nat.and_one_is_mod]
    omega
  simp only [isI, h.1, decide_eq_true_eq]
  exact UInt8.toNat_inj.mp h0

lemma not_isU_of_isI {f : Frame} (h : isI f = true) : isU f = false := by
  unfold isI at h
  unfold isU
  simp only [decide_eq_true_eq] at h
  simp only [decide_eq_false_iff_not]
  intro h3
  have : f.getD 2 0 &&& 3 &&& 1 = 0 := by
    rw [UInt8.and_assoc, UInt8.and_comm 3 1, ← UInt8.and_assoc, h]
    rfl
  rw [h3] at this
  exact absurd this (by decide)

/-! ### Writing a buffer -/

lemma poke_getD {buf buf' : Frame} {i : ℕ} {c : UInt8} (h : poke buf i c = .ok buf') (j : ℕ) :
    buf'.getD j 0 = if j = i then c else buf.getD j 0 := by
  unfold poke at h
  split_ifs at h with h1 h2
  · obtain rfl : buf.set i c = buf' := by simpa using h
    simp only [List.getD_eq_getElem?_getD, List.getElem?_set]
    by_cases hj : j = i
    · subst hj
      simp [h1]
    · simp [hj, Ne.symm hj]
  · obtain rfl : buf = buf' := by simpa using h
    by_cases hj : j = i
    · subst hj
      obtain ⟨rfl, rfl⟩ := h2
      simp
    · simp [hj]

/-- What stands at `j` after some writes: the last value written there. -/
lemma pokes_getD {ws : List (ℕ × UInt8)} {buf buf' : Frame} (h : pokes buf ws = .ok buf') (j : ℕ) :
    buf'.getD j 0 = ws.foldl (fun c w => if j = w.1 then w.2 else c) (buf.getD j 0) := by
  induction ws generalizing buf with
  | nil =>
    obtain rfl : buf = buf' := by simpa [pokes] using h
    rfl
  | cons w ws ih =>
    obtain ⟨i, c⟩ := w
    simp only [pokes] at h
    rcases hp : poke buf i c with e | b
    · simp [hp, bind, Except.bind] at h
    · simp only [hp, bind, Except.bind] at h
      rw [ih h, poke_getD hp]
      rfl

lemma getD_resize {n j : ℕ} (h : j < n) (buf : Frame) : (resize n buf).getD j 0 = buf.getD j 0 := by
  unfold resize
  by_cases hj : j < buf.length
  · rw [List.getD_append _ _ _ _ (by simp; omega)]
    simp [List.getD_eq_getElem?_getD, h]
  · rw [List.getD_append_right _ _ _ _ (by simp; omega)]
    simp only [List.getD_eq_getElem?_getD, List.getElem?_replicate]
    split_ifs <;> simp [List.getElem?_eq_none (Nat.le_of_not_lt hj)]

lemma setAPCI_carries {s : Plug} {len : ℤ} {buf buf' : Frame} (h : setAPCI s len buf = .ok buf') :
    SendsIdx s.sendIdx buf' ∧ AcksIdx s.recvIdx buf' := by
  have hg := pokes_getD h
  refine ⟨⟨?_, ?_⟩, ?_, ?_⟩ <;> rw [hg] <;> rfl

lemma giFrame_carries {cause : UInt8} {s : Plug} {frame buf : Frame}
    (h : giFrame cause s frame = .ok buf) : SendsIdx s.sendIdx buf ∧ AcksIdx s.recvIdx buf := by
  have hg := pokes_getD h
  refine ⟨⟨?_, ?_⟩, ?_, ?_⟩ <;> rw [hg] <;> rfl

lemma resize_carries {m n r : ℕ} {buf : Frame} (hn : 6 ≤ n) (h : SendsIdx m buf ∧ AcksIdx r buf) :
    SendsIdx m (resize n buf) ∧ AcksIdx r (resize n buf) := by
  unfold SendsIdx AcksIdx at *
  rw [getD_resize (by omega), getD_resize (by omega), getD_resize (by omega),
    getD_resize (by omega)]
  exact h

/-! ### What is added to the log -/

def Ev.sentI : Ev → Bool
  | .sent _ f => isI f
  | _ => false

/-- What one event of a reply is, after the events `pre` of the reply. -/
def Reply (s : Plug) (pre : List Ev) : Ev → Prop
  | .sent fd f =>
    fd = s.fd ∧ (isI f → SendsIdx (nextSendIdx^[pre.countP Ev.sentI] s.sendIdx) f) ∧
      (isU f = false → AcksIdx s.recvIdx f)
  | .setSysTime _ => True
  | _ => False

/-- From `s` to `t` the plug-in adds the events of a reply with at most `n` I-format frames. -/
structure Answer (n : ℕ) (s t : Plug) (evs : List Ev) : Prop where
  log : t.log = s.log ++ evs
  fd : t.fd = s.fd
  recvIdx : t.recvIdx = s.recvIdx
  vecFd : t.vecFd = s.vecFd
  mapRecvBuf : t.mapRecvBuf = s.mapRecvBuf
  few : evs.countP Ev.sentI ≤ n
  each : Each (Reply s) evs

/-- A reply that advances the send counter once for each of its I-format frames. -/
def Numbers (n : ℕ) (s t : Plug) : Prop :=
  ∃ evs, Answer n s t evs ∧ t.sendIdx = nextSendIdx^[evs.countP Ev.sentI] s.sendIdx

lemma Answer.refl (s : Plug) : Answer 0 s s [] :=
  ⟨by simp, rfl, rfl, rfl, rfl, by simp, each_nil⟩

lemma Answer.mono {a b : ℕ} {s t : Plug} {evs : List Ev} (hab : a ≤ b) (h : Answer a s t evs) :
    Answer b s t evs :=
  { h with few := h.few.trans hab }

/-- Two replies in a row are one, when the second starts with the counter the first calls for
or has no I-format frame. -/
lemma Answer.trans {a b : ℕ} {s t u : Plug} {e₁ e₂ : List Ev} (h₁ : Answer a s t e₁)
    (h₂ : Answer b t u e₂)
    (hn : t.sendIdx = nextSendIdx^[e₁.countP Ev.sentI] s.sendIdx ∨ b = 0) :
    Answer (a + b) s u (e₁ ++ e₂) := by
  refine ⟨by rw [h₂.log, h₁.log, List.append_assoc], h₂.fd.trans h₁.fd,
    h₂.recvIdx.trans h₁.recvIdx, h₂.vecFd.trans h₁.vecFd, h₂.mapRecvBuf.trans h₁.mapRecvBuf,
    ?_, each_append.mpr ⟨h₁.each, h₂.each.imp fun pre e post hp he => ?_⟩⟩
  · rw [List.countP_append]
    have := h₁.few
    have := h₂.few
    omega
  · cases e with
    | sent fd f =>
      obtain ⟨hfd, hs, hr⟩ := he
      refine ⟨hfd.trans h₁.fd, fun hi => ?_, fun hu => h₁.recvIdx ▸ hr hu⟩
      rcases hn with hn | rfl
      · have hs := hs hi
        rwa [hn, ← Function.iterate_add_apply, Nat.add_comm, ← List.countP_append] at hs
      · have hz : e₂.countP Ev.sentI = 0 := Nat.le_zero.mp h₂.few
        rw [List.countP_eq_zero] at hz
        exact absurd hi (hz (.sent fd f) (by rw [hp]; simp))
    | setSysTime time => trivial
    | connect fd => exact he
    | disconnect fd => exact he
    | analysed fd f => exact he

/-- A reply holds frames for the connection being handled and settings of the clock. -/
lemma Answer.mem {n : ℕ} {s t : Plug} {evs : List Ev} (h : Answer n s t evs) {e : Ev}
    (he : e ∈ evs) : (∃ f, e = .sent s.fd f) ∨ ∃ time, e = .setSysTime time := by
  obtain ⟨pre, hp⟩ := h.each.mem he
  cases e with
  | sent fd f =>
    obtain ⟨rfl, -⟩ := hp
    exact .inl ⟨f, rfl⟩
  | setSysTime time => exact .inr ⟨time, rfl⟩
  | connect fd => exact hp.elim
  | disconnect fd => exact hp.elim
  | analysed fd f => exact hp.elim

instance : Graded Numbers where
  refl s := ⟨[], Answer.refl s, rfl⟩
  trans := by
    rintro a b s t u ⟨e₁, h₁, hn₁⟩ ⟨e₂, h₂, hn₂⟩
    refine ⟨e₁ ++ e₂, h₁.trans h₂ (.inl hn₁), ?_⟩
    rw [hn₂, hn₁, ← Function.iterate_add_apply, List.countP_append, Nat.add_comm]
  mono := by
    rintro a b s t hab ⟨evs, h, hn⟩
    exact ⟨evs, h.mono hab, hn⟩

/-! ### The parts of a reply -/

variable {R V : Type} [Double R] {env : Env R V}

variable (env) in
/-- Printing answers or raises, and leaves everything as it is. -/
lemma exec_printFrame (strType : String) (f : Frame) (s : Plug) :
    exec (printFrame env strType f) s = (.ok ⟨⟩, s) ∨
      ∃ e, exec (printFrame env strType f) s = (.error e, s) := by
  unfold printFrame
  rw [exec_of_bind]
  cases bPrintFrame env.cfg env.name with
  | ok b => exact .inl rfl
  | error e => exact .inr ⟨e, rfl⟩

variable (env) in
lemma printFrame_idle (strType : String) (f : Frame) (s : Plug) :
    (exec (printFrame env strType f) s).2 = s := by
  rcases exec_printFrame env strType f s with h | ⟨e, h⟩ <;> rw [h]

lemma engineSendFrame_moves {f : Frame} {s : Plug} (hi : isI f = false)
    (hr : isU f = false → AcksIdx s.recvIdx f) : Moves Numbers 0 (engineSendFrame f) s := by
  refine ⟨[.sent s.fd f], ⟨rfl, rfl, rfl, rfl, rfl, ?_, ?_⟩, ?_⟩
  · simp [Ev.sentI, hi]
  · rw [each_singleton]
    exact ⟨rfl, fun h => by simp [hi] at h, hr⟩
  · simp [engineSendFrame, Ev.sentI, hi]

lemma sendFrame_moves {f : Frame} {s : Plug} (h : SendsIdx s.sendIdx f ∧ AcksIdx s.recvIdx f) :
    Moves Numbers 1 (sendFrame f) s := by
  have hi := isI_of_sendsIdx h.1
  have hrun : exec (sendFrame f) s = (.ok ⟨⟩, { s with
      log := s.log ++ [.sent s.fd f], sendIdx := nextSendIdx s.sendIdx }) := by
    simp [sendFrame, engineSendFrame, increaseSendIdx]
  unfold Moves
  rw [hrun]
  refine ⟨[.sent s.fd f], ⟨rfl, rfl, rfl, rfl, rfl, ?_, ?_⟩, ?_⟩
  · simp [Ev.sentI, hi]
  · rw [each_singleton]
    exact ⟨rfl, fun _ => h.1, fun _ => h.2⟩
  · simp [Ev.sentI, hi]

/-- A frame that is printed and then sent. -/
lemma print_sendFrame_moves {strType : String} {f : Frame} {s : Plug}
    (h : SendsIdx s.sendIdx f ∧ AcksIdx s.recvIdx f) :
    Moves Numbers 1 (do printFrame env strType f; sendFrame f) s :=
  Moves.after (printFrame_idle env strType f) fun _ _ => sendFrame_moves h

lemma of_idle {α : Type} (x : Except Fault α) (s : Plug) :
    (exec (Prog.of x : PlugM α) s).2 = s := rfl

lemma get_idle (s : Plug) : (exec (get : PlugM Plug) s).2 = s := rfl

lemma ok_of_exec_of {α : Type} {x : Except Fault α} {a : α} {s : Plug}
    (h : exec (Prog.of x : PlugM α) s = (.ok a, s)) : x = .ok a := by
  simpa using h

variable (env) in
lemma sendSFrame_moves (s : Plug) : Moves Numbers 0 (sendSFrame env) s := by
  unfold sendSFrame
  refine Moves.after get_idle fun s' hs => ?_
  obtain rfl : s = s' := by simpa using hs
  refine Moves.after (printFrame_idle _ _ _) fun _ _ => engineSendFrame_moves ?_ fun _ => ?_
  · simp [isI]
  · exact ⟨rfl, rfl⟩

lemma sendGIConfim_moves (f : Frame) (s : Plug) : Moves Numbers 1 (sendGIConfim env f) s := by
  unfold sendGIConfim
  refine Moves.after get_idle fun s' hs => ?_
  obtain rfl : s = s' := by simpa using hs
  refine Moves.after (of_idle _) fun buf hb => print_sendFrame_moves ?_
  exact giFrame_carries (ok_of_exec_of hb)

lemma sendGIFinish_moves (f : Frame) (s : Plug) : Moves Numbers 1 (sendGIFinish env f) s := by
  unfold sendGIFinish
  refine Moves.after get_idle fun s' hs => ?_
  obtain rfl : s = s' := by simpa using hs
  refine Moves.after (of_idle _) fun buf hb => print_sendFrame_moves ?_
  exact giFrame_carries (ok_of_exec_of hb)

/-- A segment of a table carries the counters of the state it is made in. -/
def Stamps (segment : Plug → ℕ → ℕ → Frame → Except Fault Frame) : Prop :=
  ∀ s k r buf buf', segment s k r buf = .ok buf' →
    SendsIdx s.sendIdx buf' ∧ AcksIdx s.recvIdx buf'

section Segments

/-- What is left of a table after a segment. -/
def sendRest (env : Env R V) (strType : String)
    (segment : Plug → ℕ → ℕ → Frame → Except Fault Frame) (n k num : ℕ) (f : Frame) :
    PlugM Unit :=
  match n with
  | 0 => pure ()
  | n + 1 =>
    if sqMaxNum < num then sendSegments env strType segment n (k + 1) (num - sqMaxNum) f
    else pure ()

variable {strType : String} {segment : Plug → ℕ → ℕ → Frame → Except Fault Frame}
  {n k num : ℕ} {buf : Frame} {s : Plug}

lemma sendSegments_eq :
    sendSegments env strType segment n k num buf = (do
      let sendBuf ← Prog.of (segment (← get) k (min sqMaxNum num) buf)
      printFrame env strType sendBuf
      sendFrame sendBuf
      sendRest env strType segment n k num sendBuf) := by
  cases n <;> rfl

/-- A table moves the state as its first segment and its rest do. -/
lemma sendSegments_step {Q : ℕ → Plug → Plug → Prop} [Graded Q] {a b : ℕ}
    (hsend : ∀ f, segment s k (min sqMaxNum num) buf = .ok f → Moves Q a (sendFrame f) s)
    (hrest : ∀ f t, Moves Q b (sendRest env strType segment n k num f) t) :
    Moves Q (a + b) (sendSegments env strType segment n k num buf) s := by
  rw [sendSegments_eq]
  refine Moves.after get_idle fun s' hs => ?_
  obtain rfl : s = s' := by simpa using hs
  refine Moves.after (of_idle _) fun f hf => ?_
  refine Moves.after (printFrame_idle _ _ _) fun _ _ => ?_
  exact Moves.bind (hsend f (ok_of_exec_of hf)) fun _ t _ => hrest f t

/-- A table of `num` points takes at most `num / 127` frames, rounded up. -/
lemma sendSegments_moves (hseg : Stamps segment) (hnum : 0 < num) :
    Moves Numbers ((num + 126) / 127) (sendSegments env strType segment n k num buf) s := by
  induction n generalizing k num buf s with
  | zero =>
    refine Moves.mono (a := 1 + 0) (by omega) (sendSegments_step (fun f hf => ?_) fun f t => ?_)
    · exact sendFrame_moves (hseg _ _ _ _ _ hf)
    · exact Moves.pure _
  | succ n ih =>
    have hsend (f : Frame) (hf : segment s k (min sqMaxNum num) buf = .ok f) :=
      sendFrame_moves (hseg _ _ _ _ _ hf)
    by_cases hmore : sqMaxNum < num
    · have hmore' : 127 < num := hmore
      have hcost : (num + 126) / 127 = 1 + (num - sqMaxNum + 126) / 127 := by
        show (num + 126) / 127 = 1 + (num - 127 + 126) / 127
        omega
      rw [hcost]
      refine sendSegments_step hsend fun f t => ?_
      simp only [sendRest, if_pos hmore]
      exact ih (by show 0 < num - 127; omega)
    · refine Moves.mono (a := 1 + 0) (by omega) (sendSegments_step hsend fun f t => ?_)
      simp only [sendRest, if_neg hmore]
      exact Moves.pure _

end Segments

omit [Double R] in
variable (env) in
lemma yxSegment_stamps (vecValue : List V) (yxStartAddr : ℤ) :
    Stamps (yxSegment env vecValue yxStartAddr) := by
  intro s k r buf buf' h
  obtain ⟨_, -, h⟩ := bind_eq_ok.mp h
  obtain ⟨_, -, h⟩ := bind_eq_ok.mp h
  obtain ⟨b, hb, h⟩ := bind_eq_ok.mp h
  obtain rfl : resize (r + 15) b = buf' := by simpa using h
  exact resize_carries (by omega) (setAPCI_carries hb)

omit [Double R] in
variable (env) in
lemma ycSegment_stamps (type : MonitorType) (vecValue : List V) (ycStartAddr : ℤ)
    (byteNum qualityNum : ℕ) :
    Stamps (ycSegment env type vecValue ycStartAddr byteNum qualityNum) := by
  intro s k r buf buf' h
  obtain ⟨_, -, h⟩ := bind_eq_ok.mp h
  obtain ⟨_, -, h⟩ := bind_eq_ok.mp h
  obtain ⟨b, hb, h⟩ := bind_eq_ok.mp h
  obtain rfl : resize (r * (byteNum + qualityNum) + 15) b = buf' := by simpa using h
  exact resize_carries (by omega) (setAPCI_carries hb)

variable (env) in
/-- How many frames the table `sec` takes at most. -/
def tableFrames (sec : String) : ℕ :=
  match pointNum env sec with
  | .ok num => (num + 126) / 127
  | .error _ => 0

/-- The octets of an element of a type. -/
def MonitorType.width : MonitorType → ℕ
  | .mMeNc1 => 5
  | .mMeNd1 => 2
  | _ => 3

section Tables

variable {Q : ℕ → Plug → Plug → Prop} [Graded Q] {n : ℕ} {type : MonitorType} {strType : String}
  {s : Plug}

/-- Nothing but the segments of the table moves the plug-in. -/
lemma sendGIYx_of_segments (hsend : ∀ vec addr num buf, pointNum env "signal" = .ok num → num ≠ 0 →
      Moves Q n (sendSegments env strType (yxSegment env vec addr) (num / sqMaxNum) 0 num buf) s) :
    Moves Q n (sendGIYx env type strType) s := by
  unfold sendGIYx
  refine Moves.after (of_idle _) fun buf _ => Moves.after (of_idle _) fun num hnum => ?_
  by_cases h0 : num = 0
  · rw [if_pos h0]
    exact Moves.pure _
  · rw [if_neg h0]
    refine Moves.after get_idle fun _ _ => Moves.after (of_idle _) fun vec _ => ?_
    exact Moves.after (of_idle _) fun addr _ => hsend vec addr num buf (ok_of_exec_of hnum) h0

lemma sendGIYc_of_segments (hsend : ∀ vec addr num buf byteNum qualityNum,
      pointNum env "measure" = .ok num → num ≠ 0 → byteNum + qualityNum = type.width →
      Moves Q n (sendSegments env strType (ycSegment env type vec addr byteNum qualityNum)
        (num / sqMaxNum) 0 num buf) s) :
    Moves Q n (sendGIYc env type strType) s := by
  unfold sendGIYc
  refine Moves.after (of_idle _) fun buf _ => Moves.after (of_idle _) fun num hnum => ?_
  by_cases h0 : num = 0
  · rw [if_pos h0]
    exact Moves.pure _
  · rw [if_neg h0]
    refine Moves.after get_idle fun _ _ => Moves.after (of_idle _) fun vec _ => ?_
    refine Moves.after (of_idle _) fun addr _ => ?_
    cases type
    case mMeNc1 | mMeNd1 | mMeNa1 | mMeNb1 =>
      exact hsend vec addr num buf _ _ (ok_of_exec_of hnum) h0 rfl
    all_goals exact Moves.pure _

end Tables

lemma sendGIYx_moves (type : MonitorType) (strType : String) (s : Plug) :
    Moves Numbers (tableFrames env "signal") (sendGIYx env type strType) s := by
  refine sendGIYx_of_segments fun vec addr num buf hnum h0 => ?_
  have hf : tableFrames env "signal" = (num + 126) / 127 := by
    simp [tableFrames, hnum]
  rw [hf]
  exact sendSegments_moves (yxSegment_stamps env vec addr) (Nat.pos_of_ne_zero h0)

lemma sendGIYc_moves (type : MonitorType) (strType : String) (s : Plug) :
    Moves Numbers (tableFrames env "measure") (sendGIYc env type strType) s := by
  refine sendGIYc_of_segments fun vec addr num buf byteNum qualityNum hnum h0 _ => ?_
  have hf : tableFrames env "measure" = (num + 126) / 127 := by
    simp [tableFrames, hnum]
  rw [hf]
  exact sendSegments_moves (ycSegment_stamps env type vec addr byteNum qualityNum)
    (Nat.pos_of_ne_zero h0)

variable (env) in
/-- How many I-format frames a general interrogation is answered with at most: the
confirmation and the end, and the two tables where the configuration knows their type. -/
def giFrames : ℕ :=
  2 + (if cfgInt env "yxType" ∈ [.ok 0, .ok 1] then tableFrames env "signal" else 0) +
    (if cfgInt env "ycType" ∈ [.ok 0, .ok 1, .ok 2, .ok 3] then tableFrames env "measure" else 0)

lemma sendYx_moves (yxType : ℤ) (s : Plug) :
    Moves Numbers (if Except.ok yxType ∈ [(.ok 0 : Except Fault ℤ), .ok 1] then
      tableFrames env "signal" else 0) (sendYx env yxType) s := by
  unfold sendYx
  by_cases h0 : yxType = 0
  · simpa [h0] using sendGIYx_moves _ _ s
  by_cases h1 : yxType = 1
  · simpa [h1] using sendGIYx_moves _ _ s
  · rw [if_neg h0, if_neg h1]
    exact Moves.pure _

lemma sendYc_moves (ycType : ℤ) (s : Plug) :
    Moves Numbers (if Except.ok ycType ∈ [(.ok 0 : Except Fault ℤ), .ok 1, .ok 2, .ok 3] then
      tableFrames env "measure" else 0) (sendYc env ycType) s := by
  unfold sendYc
  by_cases h0 : ycType = 0
  · simpa [h0] using sendGIYc_moves _ _ s
  by_cases h1 : ycType = 1
  · simpa [h1] using sendGIYc_moves _ _ s
  by_cases h2 : ycType = 2
  · simpa [h2] using sendGIYc_moves _ _ s
  by_cases h3 : ycType = 3
  · simpa [h3] using sendGIYc_moves _ _ s
  · rw [if_neg h0, if_neg h1, if_neg h2, if_neg h3]
    exact Moves.pure _

lemma processCIcNa1_moves (f : Frame) (s : Plug) :
    Moves Numbers (giFrames env) (processCIcNa1 env f) s := by
  unfold processCIcNa1
  refine Moves.after (printFrame_idle _ _ _) fun _ _ => ?_
  have hcost : giFrames env = 1 + ((if cfgInt env "yxType" ∈ [.ok 0, .ok 1] then
      tableFrames env "signal" else 0) + ((if cfgInt env "ycType" ∈ [.ok 0, .ok 1, .ok 2, .ok 3]
      then tableFrames env "measure" else 0) + 1)) := by
    unfold giFrames
    omega
  rw [hcost]
  refine Moves.bind (sendGIConfim_moves f s) fun _ t _ => ?_
  refine Moves.after (of_idle _) fun yxType hyx => Moves.after (of_idle _) fun ycType hyc => ?_
  rw [ok_of_exec_of hyx, ok_of_exec_of hyc]
  refine Moves.bind (sendYx_moves yxType t) fun _ u _ => ?_
  exact Moves.bind (sendYc_moves ycType u) fun _ v _ => sendGIFinish_moves f v

omit [Double R] in
lemma clockFrame_carries {s : Plug} {f buf : Frame} {time : SysTime}
    (h : clockFrame env s f = .ok (buf, time)) :
    SendsIdx s.sendIdx buf ∧ AcksIdx s.recvIdx buf := by
  obtain ⟨len, -, h⟩ := bind_eq_ok.mp h
  obtain ⟨b, hb, h⟩ := bind_eq_ok.mp h
  obtain ⟨c, hc, h⟩ := bind_eq_ok.mp h
  iterate 7 obtain ⟨_, -, h⟩ := bind_eq_ok.mp h
  obtain ⟨rfl, -⟩ : c = buf ∧ _ := by simpa using h
  have hg := pokes_getD hc
  unfold SendsIdx AcksIdx
  rw [hg, hg, hg, hg]
  exact setAPCI_carries hb

variable (env) in
/-- The clock command leaves the send counter as it is. -/
lemma processCCsNa1_answer (f : Frame) (s : Plug) :
    ∃ evs, Answer 1 s (exec (processCCsNa1 env f) s).2 evs ∧
      (exec (processCCsNa1 env f) s).2.sendIdx = s.sendIdx := by
  unfold processCCsNa1
  rw [exec_get_bind, exec_of_bind]
  rcases hc : clockFrame env s f with e | ⟨buf, time⟩
  · exact ⟨[], (Answer.refl s).mono (Nat.zero_le 1), rfl⟩
  obtain ⟨hs, hr⟩ := clockFrame_carries hc
  simp only [exec_modify_bind]
  set t : Plug := { s with log := s.log ++ [.setSysTime time] } with ht
  have htime : Answer 1 s t [.setSysTime time] := by
    refine ⟨rfl, rfl, rfl, rfl, rfl, by simp [Ev.sentI], ?_⟩
    rw [each_singleton]
    trivial
  rcases exec_printFrame env "时钟同步" buf t with hp | ⟨e, hp⟩
  · rw [exec_bind_ok hp]
    refine ⟨[.setSysTime time] ++ [.sent s.fd buf],
      ⟨by simp [engineSendFrame, ht], rfl, rfl, rfl, rfl, ?_, ?_⟩, rfl⟩
    · simp [Ev.sentI, isI_of_sendsIdx hs]
    · rw [each_snoc]
      refine ⟨htime.each, rfl, fun _ => ?_, fun _ => hr⟩
      simpa [Ev.sentI] using hs
  · rw [exec_bind_error hp]
    exact ⟨_, htime, rfl⟩

lemma processCScNa1_moves (f : Frame) (s : Plug) : Moves Numbers 0 (processCScNa1 f) s := by
  unfold processCScNa1
  refine Moves.after get_idle fun _ _ => Moves.after (of_idle _) fun _ _ => ?_
  exact Moves.after (of_idle _) fun _ _ => Moves.pure _

/-! ### The reply to a frame -/

variable (env) in
/-- How many I-format frames a frame is answered with at most. -/
def replyFrames (f : Frame) : ℕ := if isGI f then giFrames env else if isClock f then 1 else 0

/-- The plug-in when it turns to the contents of a frame. -/
def heard (f : Frame) (s : Plug) : Plug :=
  { s with
    log := s.log ++ [.analysed s.fd f]
    recvIdx := if isI f ∧ 2 ≤ f.length then (s.recvIdx + 1) % 65536 else s.recvIdx }

variable (env) in
/-- From `s` to `t` the plug-in handles the frame `f` with the events `evs`. -/
structure Handled (f : Frame) (s t : Plug) (evs : List Ev) : Prop where
  answer : Answer (replyFrames env f) (heard f s) t evs
  numbered : isClock f = false → t.sendIdx = nextSendIdx^[evs.countP Ev.sentI] s.sendIdx
  quiet : ¬ (isI f = true ∧ 2 ≤ f.length) → ∀ fd g, .sent fd g ∈ evs → isU g = true

variable (env) in
lemma analyseIFrame_answer {f : Frame} (hi : isI f = true) (s : Plug) :
    ∃ evs, Answer (replyFrames env f) s (exec (analyseIFrame env f) s).2 evs ∧
      (isClock f = false →
        (exec (analyseIFrame env f) s).2.sendIdx =
          nextSendIdx^[evs.countP Ev.sentI] s.sendIdx) := by
  unfold analyseIFrame peek
  rw [exec_of_bind]
  by_cases hlen : 6 ≤ f.length
  swap
  · rw [if_neg hlen]
    exact ⟨[], (Answer.refl s).mono (Nat.zero_le _), fun _ => rfl⟩
  rw [if_pos hlen]
  simp only
  by_cases hclock : f.getD 6 0 = cCsNa1
  · -- the confirmation is sent past the counter
    have hf : isGI f = false ∧ isClock f = true := by
      simp only [isGI, isClock, hi, hclock]
      decide
    have hp : processI env (f.getD 6 0) f = processCCsNa1 env f := by
      rw [hclock]
      rfl
    obtain ⟨evs, hans, hidx⟩ := processCCsNa1_answer env f s
    simp only [replyFrames, hf, hp, if_true, Bool.false_eq_true, if_false]
    rcases he : exec (processCCsNa1 env f) s with ⟨_ | _, t⟩
    · rw [exec_bind_error he]
      rw [he] at hans
      exact ⟨evs, hans, fun h => by simp at h⟩
    · rw [exec_bind_ok he]
      rw [he] at hans
      obtain ⟨evs', hans', -⟩ := sendSFrame_moves env t
      exact ⟨evs ++ evs', hans.trans hans' (.inr rfl), fun h => by simp at h⟩
  · have hf : isClock f = false := by
      simp only [isClock, hclock, decide_false, Bool.and_false]
    have hmove : Moves Numbers (replyFrames env f) (processI env (f.getD 6 0) f) s := by
      unfold processI
      by_cases hgi : f.getD 6 0 = cIcNa1
      · have hf : isGI f = true := by
          simp only [isGI, hi, hgi, decide_true, Bool.and_true]
        rw [if_pos hgi, replyFrames, if_pos hf]
        exact processCIcNa1_moves f s
      · rw [if_neg hgi, if_neg hclock]
        by_cases hsc : f.getD 6 0 = cScNa1
        · rw [if_pos hsc]
          exact (processCScNa1_moves f s).mono (Nat.zero_le _)
        · rw [if_neg hsc]
          exact Moves.pure _
    obtain ⟨evs, hans, hidx⟩ := Moves.bind hmove fun _ t _ => sendSFrame_moves env t
    exact ⟨evs, hans, fun _ => hidx⟩

variable (env) in
lemma analyseUFrame_answer (f : Frame) (s : Plug) :
    ∃ evs, Answer 0 s (exec (analyseUFrame env f) s).2 evs ∧
      (exec (analyseUFrame env f) s).2.sendIdx = nextSendIdx^[evs.countP Ev.sentI] s.sendIdx ∧
      ∀ fd g, .sent fd g ∈ evs → isU g = true := by
  have hidle : ∃ evs, Answer 0 s s evs ∧ s.sendIdx = nextSendIdx^[evs.countP Ev.sentI] s.sendIdx ∧
      ∀ fd g, Ev.sent fd g ∈ evs → isU g = true :=
    ⟨[], Answer.refl s, rfl, by simp⟩
  unfold analyseUFrame
  rw [exec_of_bind]
  rcases peek f 2 with e | ctrl
  · exact hidle
  simp only
  rcases exec_printFrame env (uAnswer ctrl).1 f s with hp | ⟨e, hp⟩
  swap
  · rw [exec_bind_error hp]
    exact hidle
  rw [exec_bind_ok hp]
  rcases hu : (uAnswer ctrl).2 with _ | ⟨strType1, response⟩
  · exact hidle
  have hfmt : isI response = false ∧ isU response = true := by
    unfold uAnswer at hu
    split_ifs at hu <;> simp only [Option.some.injEq, Prod.mk.injEq] at hu
    all_goals obtain ⟨-, rfl⟩ := hu
    all_goals decide
  simp only
  rcases exec_printFrame env strType1 response s with hp | ⟨e, hp⟩
  · rw [exec_bind_ok hp]
    refine ⟨[.sent s.fd response], ⟨rfl, rfl, rfl, rfl, rfl, ?_, ?_⟩, ?_, ?_⟩
    · simp [Ev.sentI, hfmt]
    · rw [each_singleton]
      exact ⟨rfl, fun h => by simp [hfmt] at h, fun h => by simp [hfmt] at h⟩
    · simp [Ev.sentI, hfmt, engineSendFrame]
    · intro fd g hg
      obtain ⟨-, rfl⟩ : fd = s.fd ∧ g = response := by simpa using hg
      exact hfmt.2
  · rw [exec_bind_error hp]
    exact hidle

lemma peek_eq_ok {f : Frame} {i : ℕ} {c : UInt8} (h : peek f i = .ok c) :
    i ≤ f.length ∧ c = f.getD i 0 := by
  unfold peek at h
  split_ifs at h with hi
  exact ⟨hi, by simpa using h.symm⟩

variable (env) in
/-- **What handling a frame does**: whatever the frame holds, the plug-in adds one reply to
its log. -/
theorem analyseFrame_handled (f : Frame) (s : Plug) :
    ∃ evs, Handled env f s (exec (analyseFrame env f) s).2 evs := by
  unfold analyseFrame dispatch
  rw [exec_modify_bind, exec_of_bind]
  set t : Plug := { s with log := s.log ++ [.analysed s.fd f] } with ht
  have hidle (hn : ¬ (isI f = true ∧ 2 ≤ f.length)) : Handled env f s t [] := by
    refine ⟨?_, fun _ => rfl, by simp⟩
    have hh : heard f s = t := by
      rw [heard, if_neg hn]
    rw [hh]
    exact (Answer.refl t).mono (Nat.zero_le _)
  rcases hp : peek f 2 with e | c
  · refine ⟨[], hidle fun hn => ?_⟩
    simp [peek, hn.2] at hp
  obtain ⟨hlen, rfl⟩ := peek_eq_ok hp
  simp only
  by_cases hu : f.getD 2 0 &&& 0x03 = 0x03
  · have hU : isU f = true := by
      simp only [isU, hu, decide_true]
    have hI : isI f = false := by
      by_contra hI
      have := not_isU_of_isI (Bool.not_eq_false _ ▸ hI)
      simp [this] at hU
    have hh : heard f s = t := by
      rw [heard, if_neg fun h => by simp [hI] at h]
    obtain ⟨evs, hans, hidx, hq⟩ := analyseUFrame_answer env f t
    rw [if_pos hu]
    refine ⟨evs, ?_, fun _ => hidx, fun _ => hq⟩
    rw [hh]
    exact hans.mono (Nat.zero_le _)
  rw [if_neg hu]
  by_cases hi : f.getD 2 0 &&& 0x01 = 0x00
  · have hI : isI f = true := by
      simp only [isI, hi, decide_true]
    have hh : heard f s = { t with recvIdx := (t.recvIdx + 1) % 65536 } := by
      rw [heard, if_pos ⟨hI, hlen⟩]
    rw [if_pos hi, exec_modify_bind, ← hh]
    obtain ⟨evs, hans, hidx⟩ := analyseIFrame_answer env hI (heard f s)
    exact ⟨evs, hans, hidx, fun h => absurd ⟨hI, hlen⟩ h⟩
  · have hI : isI f = false := by
      simp only [isI, hi, decide_false]
    have hn : ¬ (isI f = true ∧ 2 ≤ f.length) := fun h => by
      simp [hI] at h
    rw [if_neg hi]
    by_cases hs : f.getD 2 0 = 0x01
    · rw [if_pos hs]
      refine ⟨[], ?_⟩
      have := printFrame_idle env "S帧" f t
      unfold analyseSFrame
      rw [this]
      exact hidle hn
    · rw [if_neg hs]
      exact ⟨[], hidle hn⟩

/-- A frame is handled without a fault only if it has its first control octet. -/
lemma length_of_analysed {f : Frame} {s t : Plug}
    (h : exec (analyseFrame env f) s = (.ok ⟨⟩, t)) : 2 ≤ f.length := by
  unfold analyseFrame dispatch at h
  rw [exec_modify_bind, exec_of_bind] at h
  rcases hp : peek f 2 with e | c
  · simp [hp] at h
  · exact (peek_eq_ok hp).1

end DataEngine.TransIEC104
