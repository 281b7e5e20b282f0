import DataEngine.Plug.IEC104.Octets
import DataEngine.Plug.IEC104.Framing

/-!
Which frames are handled inside their buffers.

The handlers take the layout of a frame for granted. The buffers they build themselves are large
enough; a received frame is, exactly if it has the octets its layout needs.
-/

namespace DataEngine.TransIEC104.Octets

open ConfigParse Lib.Effect Lib.Watch Lib.Watch.Watched

variable {s : Plug} {buf : Frame} {i : ℕ} {β : Type}

/-! ### Reads and writes -/

lemma all_peek : All Access.Inside (peek buf i) s ↔ i < buf.length :=
  all_access (P := Access.Inside) ⟨i, buf.length⟩ _

lemma all_poke {c : UInt8} : All Access.Inside (poke buf i c) s ↔ i < buf.length :=
  all_access (P := Access.Inside) ⟨i, buf.length⟩ _

lemma all_peek_bind {f : UInt8 → PlugW β} : All Access.Inside (peek buf i >>= f) s ↔
    i < buf.length ∧ All Access.Inside (f (buf.getD i 0)) s := by
  by_cases hi : i < buf.length
  · have hrun : exec (peek buf i).run s = (.ok (buf.getD i 0), s) := by
      simp [TransIEC104.peek, hi.le]
    rw [all_bind_of_ok hrun, all_peek]
  · simp only [all_bind, all_peek, hi, false_and]

/-- Writes inside a buffer keep its length, so all of them are if each is. -/
lemma all_pokes {ws : List (ℕ × UInt8)} :
    All Access.Inside (pokes buf ws) s ↔ ∀ w ∈ ws, w.1 < buf.length := by
  induction ws generalizing buf with
  | nil => simp [pokes]
  | cons w ws ih =>
    rw [pokes, List.forall_mem_cons]
    by_cases hw : w.1 < buf.length
    · have hrun : exec (poke buf w.1 w.2).run s = (.ok (buf.set w.1 w.2), s) := by
        rw [poke_run, exec_of, poke_of_lt hw]
      rw [all_bind_of_ok hrun, ih, List.length_set, all_poke]
    · simp only [all_bind, all_poke, hw, false_and]

lemma all_pokes_bind {ws : List (ℕ × UInt8)} {f : Frame → PlugW β} :
    All Access.Inside (pokes buf ws >>= f) s ↔ (∀ w ∈ ws, w.1 < buf.length) ∧
      ∀ buf', TransIEC104.pokes buf ws = .ok buf' → All Access.Inside (f buf') s := by
  rw [all_bind, all_pokes, pokes_run]
  refine and_congr_right fun _ => ⟨fun h b hb => h b s (by rw [exec_of, hb]), fun h b t hb => ?_⟩
  rw [exec_of] at hb
  obtain ⟨hok, rfl⟩ := Prod.mk.inj hb
  exact h b hok

lemma all_setAPCI {len : ℤ} : All Access.Inside (setAPCI s len buf) s ↔ 6 ≤ buf.length := by
  rw [setAPCI, all_pokes]
  simp only [sendField, recvField, List.cons_append, List.nil_append, List.forall_mem_cons,
    List.not_mem_nil, IsEmpty.forall_iff, implies_true, and_true]
  omega

lemma all_giFrame {cause : UInt8} {f : Frame → PlugW β} :
    All Access.Inside (giFrame cause s buf >>= f) s ↔ 10 ≤ buf.length ∧
      ∀ buf', TransIEC104.giFrame cause s buf = .ok buf' → All Access.Inside (f buf') s := by
  rw [giFrame, all_pokes_bind]
  refine and_congr_left fun _ => ?_
  simp only [sendField, recvField, List.cons_append, List.nil_append, List.forall_mem_cons,
    List.not_mem_nil, IsEmpty.forall_iff, implies_true, and_true]
  omega

/-! ### The buffers of the plug-in -/

/-- The program stays inside its buffers, and what it makes has length `n`. -/
abbrev Makes (n : ℕ) (m : PlugW Frame) : Prop := Safe Access.Inside m fun buf => buf.length = n

lemma makes_pokes {ws : List (ℕ × UInt8)} (h : ∀ w ∈ ws, w.1 < buf.length) :
    Makes buf.length (pokes buf ws) := by
  refine fun s => ⟨all_pokes.mpr h, fun b t hb => ?_⟩
  rw [pokes_run, exec_of] at hb
  exact pokes_length (Prod.mk.inj hb).1

lemma makes_poke {c : UInt8} (h : i < buf.length) : Makes buf.length (poke buf i c) := by
  refine fun s => ⟨all_poke.mpr h, fun b t hb => ?_⟩
  rw [poke_run, exec_of] at hb
  exact poke_length (Prod.mk.inj hb).1

lemma makes_setAPCI (s : Plug) (len : ℤ) (h : 6 ≤ buf.length) :
    Makes buf.length (setAPCI s len buf) := by
  refine makes_pokes ?_
  simp only [sendField, recvField, List.cons_append, List.nil_append, List.forall_mem_cons,
    List.not_mem_nil, IsEmpty.forall_iff, implies_true, and_true]
  omega

lemma makes_giHead (startAddr : ℤ) (k realNum : ℕ) (h : 15 ≤ buf.length) :
    Makes buf.length (giHead startAddr k realNum buf) := by
  refine (Safe.lift _).bind fun addr _ => makes_pokes ?_
  simp only [List.forall_mem_cons, List.not_mem_nil, IsEmpty.forall_iff, implies_true, and_true]
  omega

variable {R V : Type} (env : Env R V)

/-- A segment of signals stays in a buffer that has its octets. -/
lemma makes_yxSegment (vecValue : List V) (yxStartAddr : ℤ) (s : Plug) (k : ℕ) {realNum : ℕ}
    (h : 15 + realNum ≤ buf.length) :
    Makes (realNum + 15) (yxSegment env vecValue yxStartAddr s k realNum buf) := by
  refine (makes_giHead _ _ _ (by omega)).bind fun head hhead => ?_
  refine (Safe.foldlM (Q := fun b : Frame => b.length = buf.length) hhead
    fun j hj b hb => ?_).bind fun full hfull => ?_
  · refine (Safe.lift _).bind fun v _ => (Safe.lift _).bind fun c _ => ?_
    rw [← hb]
    refine makes_poke ?_
    have hj := List.mem_range.mp hj
    unfold apHeadLen
    omega
  · refine (makes_setAPCI _ _ (by omega)).bind fun apci _ => .pure ?_
    exact resize_length _ _

/-- A segment of measurements stays in the buffer of a full one. -/
lemma makes_ycSegment (type : MonitorType) (vecValue : List V) (ycStartAddr : ℤ)
    {byteNum qualityNum : ℕ} (s : Plug) (k : ℕ) {realNum : ℕ} (hbyte : 0 < byteNum)
    (hnum : realNum ≤ sqMaxNum) (hsum : byteNum + qualityNum ≤ sqMaxNum)
    (h : 15 + 2 * sqMaxNum ≤ buf.length) :
    Makes (realNum * (byteNum + qualityNum) + 15)
      (ycSegment env type vecValue ycStartAddr byteNum qualityNum s k realNum buf) := by
  have hmax : sqMaxNum = 127 := rfl
  refine (makes_giHead _ _ _ (by omega)).bind fun head hhead => ?_
  refine (Safe.foldlM (Q := fun b : Frame => b.length = buf.length) hhead
    fun j hj b hb => ?_).bind fun full hfull => ?_
  · -- an element starts before `realNum`
    have hstart : j * (byteNum + qualityNum) < realNum := by
      have hj := List.mem_range.mp hj
      have hle := (Nat.le_div_iff_mul_le (by omega : 0 < byteNum + qualityNum)).mp hj
      rw [Nat.succ_mul] at hle
      omega
    refine (Safe.lift _).bind fun v _ => (Safe.lift _).bind fun value _ => ?_
    rw [← hb]
    refine (makes_pokes ?_).bind fun b' hb' => .ite (fun _ => ?_) fun _ => .pure hb'
    · intro w hw
      obtain ⟨n, hn, rfl⟩ := List.mem_mapIdx.mp hw
      have hn := hn.trans_le (List.length_take_le _ _)
      simp only [apHeadLen]
      omega
    · rw [← hb']
      refine makes_poke ?_
      unfold apHeadLen
      omega
  · refine (makes_setAPCI _ _ (by omega)).bind fun apci _ => .pure ?_
    exact resize_length _ _

variable [Double R]

/-- A table whose segments each leave room for the next. -/
lemma safe_sendSegments {strType : String} {segment : Plug → ℕ → ℕ → Frame → PlugW Frame}
    (Room : ℕ → Frame → Prop)
    (hseg : ∀ s k num buf, Room num buf → Safe Access.Inside (segment s k (min sqMaxNum num) buf)
      fun f => sqMaxNum < num → Room (num - sqMaxNum) f)
    {n k num : ℕ} (h : Room num buf) :
    Safe Access.Inside (sendSegments env strType segment n k num buf) fun _ => True := by
  induction n generalizing k num buf with
  | zero =>
    rw [sendSegments_eq]
    exact (Safe.lift _).bind fun s _ => (hseg s k num buf h).bind fun f hf =>
      (Safe.lift _).bind fun _ _ => (Safe.lift _).bind fun _ _ => .pure trivial
  | succ n ih =>
    rw [sendSegments_eq]
    refine (Safe.lift _).bind fun s _ => (hseg s k num buf h).bind fun f hf =>
      (Safe.lift _).bind fun _ _ => (Safe.lift _).bind fun _ _ => ?_
    exact .ite (fun hmore => ih (hf hmore)) fun _ => .pure trivial

lemma makes_giBuffer (type : MonitorType) (elemLen : ℕ) :
    Makes (15 + 127 * elemLen) (giBuffer env type elemLen) := by
  refine (Safe.lift _).bind fun addr _ => ?_
  have hlen : (List.replicate (apHeadLen + sqMaxNum * elemLen) (0 : UInt8)).length =
      15 + 127 * elemLen := List.length_replicate
  rw [← hlen]
  refine makes_pokes ?_
  simp only [hlen, List.forall_mem_cons, List.not_mem_nil, IsEmpty.forall_iff, implies_true,
    and_true]
  omega

/-- The table of signals stays inside its buffer. -/
lemma safe_sendGIYx (type : MonitorType) (strType : String) :
    Safe Access.Inside (sendGIYx env type strType) fun _ => True := by
  have hmax : sqMaxNum = 127 := rfl
  refine (makes_giBuffer env type 1).bind fun buf hbuf => (Safe.lift _).bind fun signalNum _ => ?_
  refine .ite (fun _ => .pure trivial) fun _ => ?_
  refine (Safe.lift _).bind fun s _ => (Safe.lift _).bind fun vecValue _ =>
    (Safe.lift _).bind fun addr _ => ?_
  refine safe_sendSegments env (fun num buf => 15 + min sqMaxNum num ≤ buf.length)
    (fun s k num buf hroom => ?_) (by omega)
  intro s'
  obtain ⟨hall, hmakes⟩ := makes_yxSegment env vecValue addr s k hroom s'
  refine ⟨hall, fun f t hf hmore => ?_⟩
  rw [hmakes f t hf]
  omega

/-- The tables of measurements stay inside theirs. -/
lemma safe_sendGIYc (type : MonitorType) (strType : String) :
    Safe Access.Inside (sendGIYc env type strType) fun _ => True := by
  have hmax : sqMaxNum = 127 := rfl
  refine (makes_giBuffer env type 5).bind fun buf hbuf => (Safe.lift _).bind fun measureNum _ => ?_
  refine .ite (fun _ => .pure trivial) fun _ => ?_
  refine (Safe.lift _).bind fun s _ => (Safe.lift _).bind fun vecValue _ =>
    (Safe.lift _).bind fun addr _ => ?_
  have hsegments {byteNum qualityNum : ℕ} (hbyte : 0 < byteNum)
      (hsum : 2 ≤ byteNum + qualityNum) (hsum' : byteNum + qualityNum ≤ sqMaxNum) :
      Safe Access.Inside (sendSegments env strType
        (ycSegment env type vecValue addr byteNum qualityNum) (measureNum / sqMaxNum) 0 measureNum
        buf) fun _ => True := by
    refine safe_sendSegments env (fun _ buf => 15 + 2 * sqMaxNum ≤ buf.length)
      (fun s k num buf hroom => ?_) (by omega)
    intro s'
    obtain ⟨hall, hmakes⟩ := makes_ycSegment env type vecValue addr s k hbyte
      (min_le_left sqMaxNum num) hsum' hroom s'
    refine ⟨hall, fun f t hf hmore => ?_⟩
    rw [hmakes f t hf, min_eq_left hmore.le]
    nlinarith
  cases type with
  | mMeNc1 => exact hsegments (by omega) (by omega) (by omega)
  | mMeNd1 => exact hsegments (by omega) (by omega) (by omega)
  | mMeNa1 => exact hsegments (by omega) (by omega) (by omega)
  | mMeNb1 => exact hsegments (by omega) (by omega) (by omega)
  | _ => exact .pure trivial

lemma safe_sendSFrame : Safe Access.Inside (sendSFrame env) fun _ => True := by
  refine (Safe.lift _).bind fun s _ => (makes_pokes ?_).bind fun _ _ =>
    (Safe.lift _).bind fun _ _ => .lift _
  simp [recvField]

omit [Double R] in
lemma safe_uAnswer (ctrlField1 : UInt8) :
    Safe Access.Inside (uAnswer ctrlField1) fun _ => True := by
  have hresponse (val : UInt8) : Makes 6 (sendUFrame val) := makes_pokes (by simp)
  exact .ite (fun _ => (hresponse _).bind fun _ _ => .pure trivial) fun _ =>
    .ite (fun _ => (hresponse _).bind fun _ _ => .pure trivial) fun _ =>
    .ite (fun _ => (hresponse _).bind fun _ _ => .pure trivial) fun _ =>
    .ite (fun _ => .pure trivial) fun _ => .pure trivial

/-! ### Received frames -/

variable {env} {f : Frame}

lemma all_safe_bind {α : Type} {m : PlugW α} {g : α → PlugW β} {Q : β → Prop}
    (hg : ∀ a, Safe Access.Inside (g a) Q) :
    All Access.Inside (m >>= g) s ↔ All Access.Inside m s :=
  ⟨fun h => (all_bind.mp h).1, fun h => all_bind.mpr ⟨h, fun a t _ => (hg a t).1⟩⟩

omit [Double R] in
lemma makes_giFrame (cause : UInt8) (s : Plug) (h : 10 ≤ f.length) :
    Makes f.length (giFrame cause s f) := by
  refine makes_pokes ?_
  simp only [sendField, recvField, List.cons_append, List.nil_append, List.forall_mem_cons,
    List.not_mem_nil, IsEmpty.forall_iff, implies_true, and_true]
  omega

/-- A general interrogation has its cause at octets 8 and 9. -/
lemma all_processCIcNa1 : All Access.Inside (processCIcNa1 env f) s ↔
    ((∃ b, bPrintFrame env.cfg env.name = .ok b) → 10 ≤ f.length) := by
  unfold processCIcNa1
  rcases hb : bPrintFrame env.cfg env.name with e | b
  · have hprint : exec (lift (printFrame env "总召唤" f) : PlugW Unit).run s = (.error e, s) := by
      rw [run_lift, printFrame, exec_of_bind, hb]
    rw [all_bind_of_error hprint]
    simp
  · have hprint : exec (lift (printFrame env "总召唤" f) : PlugW Unit).run s = (.ok ⟨⟩, s) :=
      printFrame_ok hb "总召唤" f s
    rw [all_bind_of_ok hprint]
    simp only [all_lift, true_and, Except.ok.injEq, exists_eq', forall_const]
    constructor
    · intro h
      have hconfirm := (all_bind.mp h).1
      exact (all_giFrame.mp ((all_bind_of_ok rfl).mp hconfirm).2).1
    · intro h
      have hsend (cause : UInt8) (strType : String) (s : Plug) : Safe Access.Inside (do
          let sendBuf ← giFrame cause s f
          lift (printFrame env strType sendBuf)
          lift (sendFrame sendBuf)) fun _ => True :=
        (makes_giFrame cause s h).bind fun _ _ => (Safe.lift _).bind fun _ _ => .lift _
      have hconfirm : Safe Access.Inside (sendGIConfim env f) fun _ => True :=
        (Safe.lift _).bind fun s _ => hsend actCon "总召唤确认" s
      have hfinish : Safe Access.Inside (sendGIFinish env f) fun _ => True :=
        (Safe.lift _).bind fun s _ => hsend actTerm "总召唤结束" s
      refine (hconfirm.bind fun _ _ => (Safe.lift _).bind fun yxType _ =>
        (Safe.lift _).bind fun ycType _ => Safe.bind (Q := fun _ => True) ?_ fun _ _ =>
        Safe.bind (Q := fun _ => True) ?_ fun _ _ => hfinish) s |>.1
      · exact .ite (fun _ => safe_sendGIYx env _ _) fun _ =>
          .ite (fun _ => safe_sendGIYx env _ _) fun _ => .pure trivial
      · exact .ite (fun _ => safe_sendGIYc env _ _) fun _ =>
          .ite (fun _ => safe_sendGIYc env _ _) fun _ =>
          .ite (fun _ => safe_sendGIYc env _ _) fun _ =>
          .ite (fun _ => safe_sendGIYc env _ _) fun _ => .pure trivial

/-- A clock command has its time at octets 15 to 21. -/
lemma all_processCCsNa1 : All Access.Inside (processCCsNa1 env f) s ↔ 22 ≤ f.length := by
  have hrest (x : Frame × SysTime) : Safe Access.Inside (do
      lift (modify fun s => { s with log := s.log ++ [.setSysTime x.2] })
      lift (printFrame env "时钟同步" x.1)
      lift (engineSendFrame x.1) : PlugW Unit) fun _ => True :=
    (Safe.lift _).bind fun _ _ => (Safe.lift _).bind fun _ _ => .lift _
  unfold processCCsNa1
  rw [all_bind_of_ok (a := s) (t := s) rfl]
  simp only [all_lift, true_and]
  rw [all_safe_bind hrest, clockFrame]
  constructor
  · intro h
    obtain ⟨h1, h⟩ := all_peek_bind.mp h
    obtain ⟨h6, h⟩ := all_bind.mp h
    have h6 := all_setAPCI.mp h6
    obtain ⟨apci, hapci⟩ := exists_setAPCI s (f.getD 1 0).toNat h6
    obtain ⟨h9, h⟩ := all_pokes_bind.mp (h apci s (by rw [setAPCI_run, exec_of, hapci]))
    obtain ⟨buf, hbuf⟩ := exists_pokes h9
    have h21 := (all_peek_bind.mp (h buf hbuf)).1
    rw [pokes_length hbuf, setAPCI_length hapci] at h21
    simp only [apHeadLen] at h21
    omega
  · intro h
    have hpeek {buf : Frame} {i : ℕ} (hi : i < buf.length) :
        Safe Access.Inside (peek buf i) fun _ => True := fun s => ⟨all_peek.mpr hi, by simp⟩
    refine ((hpeek (by omega)).bind (T := fun _ => True) fun apduLen _ =>
      (makes_setAPCI s _ (by omega)).bind fun apci hapci => ?_) s |>.1
    refine (makes_pokes ?_).bind fun buf hbuf => ?_
    · simp only [List.forall_mem_cons, List.not_mem_nil, IsEmpty.forall_iff, implies_true, and_true]
      omega
    rw [hapci] at hbuf
    unfold apHeadLen
    exact (hpeek (by omega)).bind fun _ _ => (hpeek (by omega)).bind fun _ _ =>
      (hpeek (by omega)).bind fun _ _ => (hpeek (by omega)).bind fun _ _ =>
      (hpeek (by omega)).bind fun _ _ => (hpeek (by omega)).bind fun _ _ =>
      (hpeek (by omega)).bind fun _ _ => .pure trivial

variable (env) in
/-- The octets a frame needs: one of the I format its type, an interrogation its cause, if its
printing lets it get so far, a clock command its time. -/
def LaidOut (f : Frame) : Prop :=
  3 ≤ f.length ∧ (isI f → 7 ≤ f.length ∧
    (f.getD 6 0 = cIcNa1 → (∃ b, bPrintFrame env.cfg env.name = .ok b) → 10 ≤ f.length) ∧
    (f.getD 6 0 = cCsNa1 → 22 ≤ f.length))

lemma all_processI (type : UInt8) (h : 7 ≤ f.length) :
    All Access.Inside (processI env type f) s ↔
      (type = cIcNa1 → (∃ b, bPrintFrame env.cfg env.name = .ok b) → 10 ≤ f.length) ∧
      (type = cCsNa1 → 22 ≤ f.length) := by
  unfold processI
  by_cases hic : type = cIcNa1
  · subst hic
    have hcs : cIcNa1 ≠ cCsNa1 := by decide
    rw [if_pos rfl, all_processCIcNa1]
    simp only [hcs, forall_const, false_implies, and_true]
  by_cases hcs : type = cCsNa1
  · subst hcs
    rw [if_neg hic, if_pos rfl, all_processCCsNa1]
    simp only [hic, forall_const, false_implies, true_and]
  rw [if_neg hic, if_neg hcs]
  simp only [hic, hcs, false_implies, and_self, iff_true]
  split_ifs
  · -- a control command writes its APCI only
    have hlen : Safe Access.Inside (peek f 1) fun _ => True :=
      fun s => ⟨all_peek.mpr (by omega), by simp⟩
    have hsafe : Safe Access.Inside (processCScNa1 f) fun _ => True :=
      (Safe.lift _).bind fun s _ => hlen.bind fun _ _ =>
        (makes_setAPCI s _ (by omega)).bind fun _ _ => .pure trivial
    exact (hsafe s).1
  · exact all_pure _

lemma all_analyseIFrame : All Access.Inside (analyseIFrame env f) s ↔ 7 ≤ f.length ∧
    (f.getD 6 0 = cIcNa1 → (∃ b, bPrintFrame env.cfg env.name = .ok b) → 10 ≤ f.length) ∧
    (f.getD 6 0 = cCsNa1 → 22 ≤ f.length) := by
  unfold analyseIFrame
  rw [all_peek_bind, all_safe_bind fun _ => safe_sendSFrame env]
  exact and_congr_right fun h => all_processI _ h

/-- **A frame is handled inside its buffers exactly if it is laid out.** -/
theorem all_analyseFrame : All Access.Inside (analyseFrame env f) s ↔ LaidOut env f := by
  unfold analyseFrame dispatch LaidOut
  rw [all_bind_of_ok (exec_modify _ s), all_peek_bind]
  simp only [all_lift, true_and]
  refine and_congr_right fun hlen => ?_
  split_ifs with hu hi hs
  · have hnot : isI f = false := by
      by_contra h
      have hnotU := not_isU_of_isI (by simpa using h)
      exact absurd hu (of_decide_eq_false hnotU)
    simp only [hnot, Bool.false_eq_true, false_implies, iff_true]
    unfold analyseUFrame
    refine all_peek_bind.mpr ⟨hlen, ?_⟩
    refine ((safe_uAnswer _).bind fun answer _ =>
      Safe.bind (T := fun _ => True) (Safe.lift _) fun _ _ => ?_) _ |>.1
    rcases answer.2 with _ | ⟨strType1, response⟩
    · exact .pure trivial
    · exact (Safe.lift _).bind fun _ _ => .lift _
  · have hyes : isI f = true := decide_eq_true hi
    rw [all_bind_of_ok (exec_modify _ _), all_analyseIFrame]
    simp [hyes]
  · have hnot : isI f = false := decide_eq_false hi
    simp [hnot, analyseSFrame]
  · have hnot : isI f = false := decide_eq_false hi
    simp [hnot]

/-- **A frame cut off a connection** has as many octets as its length octet says, two at least,
and the handlers stay inside it exactly if it is laid out. -/
theorem accepted_inside_iff (env : Env R V) (buf : List UInt8) (validLen : ℤ)
    (hfix : fixFrame .aarch64 buf buf.length 0 = (.complete, validLen)) (s : Plug) :
    (buf.take (toSize validLen)).length = (buf.getD 1 0).toNat + 2 ∧
    ((∀ a ∈ (analyseFrame env (buf.take (toSize validLen))).trace s, a.index < a.size) ↔
      LaidOut env (buf.take (toSize validLen))) := by
  obtain ⟨h2, hle, hlen⟩ := sound_aarch64 buf validLen hfix
  refine ⟨?_, all_analyseFrame⟩
  have hoctet := UInt8.toNat_lt (buf.getD 1 0)
  rw [toSize_eq (by omega) (by omega), List.length_take, hlen]
  omega

/-- A STARTDT frame is handled inside its buffers. -/
theorem startdt_inside :
    fixFrame .aarch64 [0x68, 4, 7, 0, 0, 0] 6 0 = (.complete, 6) ∧
    ∀ a ∈ (analyseFrame bareEnv [0x68, 4, 7, 0, 0, 0]).trace Plug.init, a.index < a.size := by
  refine ⟨rfl, ?_⟩
  exact (accepted_inside_iff bareEnv [0x68, 4, 7, 0, 0, 0] 6 rfl Plug.init).2.mpr
    ⟨by decide, by decide⟩

/-- An I-format frame of three octets has no type where it is looked for. -/
theorem short_frame_outside : ¬ ∀ (buf : List UInt8) (validLen : ℤ),
    fixFrame .aarch64 buf buf.length 0 = (.complete, validLen) →
    ∀ a ∈ (analyseFrame bareEnv (buf.take (toSize validLen))).trace Plug.init,
      a.index < a.size := by
  intro h
  have hall := h [0x68, 1, 0] 3 rfl
  have hframe : [0x68, 1, 0].take (toSize 3) = ([0x68, 1, 0] : Frame) := rfl
  rw [hframe] at hall
  have hlaid := all_analyseFrame.mp hall
  exact absurd (hlaid.2 rfl).1 (by decide)

end DataEngine.TransIEC104.Octets
