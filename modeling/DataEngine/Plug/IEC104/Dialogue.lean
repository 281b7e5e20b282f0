import DataEngine.Plug.IEC104.Transaction

/-!
The dialogue with the clients.

Every frame that is received is answered before the next one is looked at, on the connection it
came on: a U-format request by its confirmation, an I-format frame by what its command calls for
and an S-frame, everything else by nothing. So what is sent on a connection are the answers to
the frames received on it, one after the other.
-/

namespace DataEngine.TransIEC104

open Json ConfigParse Lib.Effect Lib.DoWhile

/-! ### Answers -/

/-- The received frame with another cause; only its counters may be other ones. -/
structure Mirrors (cause : UInt8) (f g : Frame) : Prop where
  length : g.length = f.length
  cause : g.getD 8 0 = cause
  rest : ∀ i, i = 1 ∨ 6 ≤ i → i ≠ 8 → i ≠ 9 → g.getD i 0 = f.getD i 0

variable {R V : Type} [Double R] (env : Env R V)

/-- How many frames the table of signals takes. -/
def yxFrames (yxType : ℤ) (signalNum : ℕ) : ℕ :=
  if yxType = 0 ∨ yxType = 1 then signalNum ⌈/⌉ sqMaxNum else 0

/-- How many frames the table of measurements takes. -/
def ycFrames (ycType : ℤ) (measureNum : ℕ) : ℕ :=
  if ycType = 0 ∨ ycType = 1 ∨ ycType = 2 ∨ ycType = 3 then measureNum ⌈/⌉ sqMaxNum else 0

/-- The tables a general interrogation asks for, each whole and in frames of its type. -/
def Tables (data : List Frame) : Prop :=
  ∃ yxType ycType yx yc, cfgInt env "yxType" = .ok yxType ∧ cfgInt env "ycType" = .ok ycType ∧
    data = yx ++ yc ∧
    (∀ num, pointNum env "signal" = .ok num → yx.length = yxFrames yxType num) ∧
    (∀ g ∈ yx, IsOf (yxMonitor yxType).code introgen g) ∧
    (∀ num, pointNum env "measure" = .ok num → yc.length = ycFrames ycType num) ∧
    ∀ g ∈ yc, IsOf (ycMonitor ycType).code introgen g

/-- What the command in an I-format frame calls for. A single command is not confirmed. -/
def Command (f : Frame) (body : List Frame) : Prop :=
  if f.getD 6 0 = cIcNa1 then
    ∃ con data fin, body = con :: data ++ [fin] ∧ Mirrors actCon f con ∧ Tables env data ∧
      Mirrors actTerm f fin
  else if f.getD 6 0 = cCsNa1 then ∃ con, body = [con] ∧ Mirrors actCon f con
  else body = []

/-- What confirms a U-format request. -/
def confirmation (ctrlField1 : UInt8) : List Frame :=
  if ctrlField1 = startdtAct then [sendUFrame startdtCon]
  else if ctrlField1 = testfrAct then [sendUFrame testfrCon]
  else if ctrlField1 = stopdtAct then [sendUFrame stopdtCon]
  else []

/-- What a frame is answered with. -/
def Answers (f : Frame) (answer : List Frame) : Prop :=
  if isU f then answer = confirmation (f.getD 2 0)
  else if isI f then
    ∃ body recvIdx, answer = body ++ [sFrame recvIdx] ∧ Command env f body ∧ ∀ g ∈ body, isI g
  else answer = []

/-- A frame is analysed and answered; the clock may be set in between. -/
structure Exchange (fd : ℤ) (f : Frame) (evs : List Ev) : Prop where
  there : ∀ e ∈ evs, (∃ g, e = .sent fd g) ∨ ∃ time, e = .setSysTime time
  answers : Answers env f (framesSent fd evs)

/-- A log of whole exchanges. -/
inductive Dialogue : List Ev → Prop where
  | nil : Dialogue []
  | connect {log : List Ev} (h : Dialogue log) (fd : ℤ) : Dialogue (log ++ [.connect fd])
  | disconnect {log : List Ev} (h : Dialogue log) (fd : ℤ) : Dialogue (log ++ [.disconnect fd])
  | exchange {log : List Ev} (h : Dialogue log) {fd : ℤ} {f : Frame} {evs : List Ev}
      (hf : Exchange env fd f evs) : Dialogue (log ++ .analysed fd f :: evs)

variable {env}

/-! ### How the parts of an answer come out -/

variable {f : Frame} {s t : Plug}

lemma mirrors_of_giFrame {cause : UInt8} {g : Frame} (h : giFrame cause s f = .ok g) :
    Mirrors cause f g := by
  have hlen := pokes_length h
  have hcause := pokes_getD h 8
  refine ⟨hlen, hcause, fun i hi h8 h9 => pokes_getD_of_ne h fun w hw => ?_⟩
  simp only [sendField, recvField, List.cons_append, List.nil_append, List.mem_cons,
    List.not_mem_nil, or_false] at hw
  rcases hw with rfl | rfl | rfl | rfl | rfl | rfl <;> omega

omit [Double R] in
lemma mirrors_of_clockFrame {g : Frame} {time : SysTime}
    (h : clockFrame env s f = .ok (g, time)) : Mirrors actCon f g := by
  obtain ⟨len, hlen, h⟩ := bind_eq_ok.mp h
  obtain ⟨b, hb, h⟩ := bind_eq_ok.mp h
  obtain ⟨c, hc, h⟩ := bind_eq_ok.mp h
  iterate 7 obtain ⟨_, -, h⟩ := bind_eq_ok.mp h
  obtain ⟨rfl, -⟩ : c = g ∧ _ := by simpa using h
  obtain ⟨-, rfl⟩ := peek_eq_ok hlen
  have hkeep {i : ℕ} (h8 : i ≠ 8) (h9 : i ≠ 9) : c.getD i 0 = b.getD i 0 := by
    apply pokes_getD_of_ne hc
    intro w hw
    simp only [List.mem_cons, List.not_mem_nil, or_false] at hw
    rcases hw with rfl | rfl <;> omega
  refine ⟨(pokes_length hc).trans (setAPCI_length hb), pokes_getD hc 8, fun i hi h8 h9 => ?_⟩
  rw [hkeep h8 h9]
  rcases hi with rfl | hi
  · rw [(setAPCI_start hb).2]
    apply UInt8.toNat_inj.mp
    have hlt : (f.getD 1 0).toNat < 256 := UInt8.toNat_lt _
    rw [octet_toNat]
    omega
  · exact setAPCI_rest hb hi

lemma sends_of_giConfim (h : exec (sendGIConfim env f) s = (.ok ⟨⟩, t)) :
    ∃ g, giFrame actCon s f = .ok g ∧ t = s.sends g := by
  unfold sendGIConfim at h
  rw [exec_get_bind] at h
  obtain ⟨g, hg, h⟩ := exec_of_bind_eq_ok.mp h
  have h := of_print_eq_ok h
  rw [exec_sendFrame] at h
  exact ⟨g, hg, (Prod.mk.inj h).2.symm⟩

lemma sends_of_giFinish (h : exec (sendGIFinish env f) s = (.ok ⟨⟩, t)) :
    ∃ g, giFrame actTerm s f = .ok g ∧ t = s.sends g := by
  unfold sendGIFinish at h
  rw [exec_get_bind] at h
  obtain ⟨g, hg, h⟩ := exec_of_bind_eq_ok.mp h
  have h := of_print_eq_ok h
  rw [exec_sendFrame] at h
  exact ⟨g, hg, (Prod.mk.inj h).2.symm⟩

/-- The signals that have been sent are a burst of `⌈num / 127⌉` frames. -/
lemma burst_of_sendGIYx {type : MonitorType} {strType : String}
    (h : exec (sendGIYx env type strType) s = (.ok ⟨⟩, t)) :
    ∃ num frames, pointNum env "signal" = .ok num ∧ Burst s frames t ∧
      frames.length = num ⌈/⌉ sqMaxNum ∧ ∀ g ∈ frames, IsOf type.code introgen g := by
  unfold sendGIYx at h
  obtain ⟨buf, hbuf, h⟩ := exec_of_bind_eq_ok.mp h
  obtain ⟨num, hnum, h⟩ := exec_of_bind_eq_ok.mp h
  rcases Nat.eq_zero_or_pos num with rfl | hpos
  · rw [if_pos rfl] at h
    obtain rfl := (Prod.mk.inj h).2
    exact ⟨0, [], hnum, .nil s, by simp, by simp⟩
  rw [if_neg hpos.ne', exec_get_bind] at h
  obtain ⟨vec, -, h⟩ := exec_of_bind_eq_ok.mp h
  obtain ⟨yxStart, -, h⟩ := exec_of_bind_eq_ok.mp h
  obtain ⟨frames, hburst, hlen, hall⟩ := burst_of_sendSegments (IsOf type.code introgen)
    (yxSegment_stamps env vec yxStart) (fun _ _ _ _ _ => yxSegment_isOf) (giBuffer_isOf hbuf)
    hpos (num_le_segments _) h
  exact ⟨num, frames, hnum, hburst, hlen, hall⟩

/-- The measurements that have been sent are a burst of `⌈num / 127⌉` frames. -/
lemma burst_of_sendGIYc {type : MonitorType} (htype : type.isMeasure) {strType : String}
    (h : exec (sendGIYc env type strType) s = (.ok ⟨⟩, t)) :
    ∃ num frames, pointNum env "measure" = .ok num ∧ Burst s frames t ∧
      frames.length = num ⌈/⌉ sqMaxNum ∧ ∀ g ∈ frames, IsOf type.code introgen g := by
  unfold sendGIYc at h
  obtain ⟨buf, hbuf, h⟩ := exec_of_bind_eq_ok.mp h
  obtain ⟨num, hnum, h⟩ := exec_of_bind_eq_ok.mp h
  rcases Nat.eq_zero_or_pos num with rfl | hpos
  · rw [if_pos rfl] at h
    obtain rfl := (Prod.mk.inj h).2
    exact ⟨0, [], hnum, .nil s, by simp, by simp⟩
  rw [if_neg hpos.ne', exec_get_bind] at h
  obtain ⟨vec, -, h⟩ := exec_of_bind_eq_ok.mp h
  obtain ⟨ycStart, -, h⟩ := exec_of_bind_eq_ok.mp h
  have hsegments (byteNum qualityNum : ℕ) (h : exec (sendSegments env strType
      (ycSegment env type vec ycStart byteNum qualityNum) (num / sqMaxNum) 0 num buf) s =
        (.ok ⟨⟩, t)) : ∃ frames, Burst s frames t ∧ frames.length = num ⌈/⌉ sqMaxNum ∧
          ∀ g ∈ frames, IsOf type.code introgen g :=
    burst_of_sendSegments (IsOf type.code introgen) (ycSegment_stamps env type vec ycStart _ _)
      (fun _ _ _ _ _ => ycSegment_isOf) (giBuffer_isOf hbuf) hpos (num_le_segments _) h
  obtain ⟨frames, hburst, hlen, hall⟩ : ∃ frames, Burst s frames t ∧
      frames.length = num ⌈/⌉ sqMaxNum ∧ ∀ g ∈ frames, IsOf type.code introgen g := by
    cases type with
    | mSpNa1 | mDpNa1 => cases htype
    | mMeNa1 | mMeNb1 | mMeNc1 | mMeNd1 => exact hsegments _ _ h
  exact ⟨num, frames, hnum, hburst, hlen, hall⟩

lemma burst_of_sendYx {yxType : ℤ} (h : exec (sendYx env yxType) s = (.ok ⟨⟩, t)) :
    ∃ frames, Burst s frames t ∧
      (∀ num, pointNum env "signal" = .ok num → frames.length = yxFrames yxType num) ∧
      ∀ g ∈ frames, IsOf (yxMonitor yxType).code introgen g := by
  by_cases htype : yxType = 0 ∨ yxType = 1
  · obtain ⟨strType, heq⟩ := sendYx_eq env htype
    rw [heq] at h
    obtain ⟨num, frames, hnum, hburst, hlen, hall⟩ := burst_of_sendGIYx h
    refine ⟨frames, hburst, fun num' hnum' => ?_, hall⟩
    obtain rfl := Except.ok.inj (hnum.symm.trans hnum')
    rw [hlen, yxFrames, if_pos htype]
  · obtain ⟨h0, h1⟩ := not_or.mp htype
    rw [sendYx, if_neg h0, if_neg h1] at h
    obtain rfl := (Prod.mk.inj h).2
    exact ⟨[], .nil s, fun num _ => by rw [yxFrames, if_neg htype, List.length_nil], by simp⟩

lemma burst_of_sendYc {ycType : ℤ} (h : exec (sendYc env ycType) s = (.ok ⟨⟩, t)) :
    ∃ frames, Burst s frames t ∧
      (∀ num, pointNum env "measure" = .ok num → frames.length = ycFrames ycType num) ∧
      ∀ g ∈ frames, IsOf (ycMonitor ycType).code introgen g := by
  by_cases htype : ycType = 0 ∨ ycType = 1 ∨ ycType = 2 ∨ ycType = 3
  · obtain ⟨strType, heq⟩ := sendYc_eq env htype
    rw [heq] at h
    obtain ⟨num, frames, hnum, hburst, hlen, hall⟩ :=
      burst_of_sendGIYc (isMeasure_ycMonitor ycType) h
    refine ⟨frames, hburst, fun num' hnum' => ?_, hall⟩
    obtain rfl := Except.ok.inj (hnum.symm.trans hnum')
    rw [hlen, ycFrames, if_pos htype]
  · simp only [not_or] at htype
    obtain ⟨h0, h1, h2, h3⟩ := htype
    rw [sendYc, if_neg h0, if_neg h1, if_neg h2, if_neg h3] at h
    obtain rfl := (Prod.mk.inj h).2
    exact ⟨[], .nil s, fun num _ => by simp [ycFrames, h0, h1, h2, h3], by simp⟩

/-- An interrogation is answered by a burst: its confirmation, the tables and its end. -/
lemma burst_of_processCIcNa1 (h : exec (processCIcNa1 env f) s = (.ok ⟨⟩, t)) :
    ∃ con data fin, Burst s (con :: data ++ [fin]) t ∧ Mirrors actCon f con ∧ Tables env data ∧
      Mirrors actTerm f fin := by
  unfold processCIcNa1 at h
  have h := of_print_eq_ok h
  obtain ⟨⟨⟩, s₁, hconfim, h⟩ := exec_bind_eq_ok.mp h
  obtain ⟨yxType, hyxType, h⟩ := exec_of_bind_eq_ok.mp h
  obtain ⟨ycType, hycType, h⟩ := exec_of_bind_eq_ok.mp h
  obtain ⟨⟨⟩, s₂, hsendYx, h⟩ := exec_bind_eq_ok.mp h
  obtain ⟨⟨⟩, s₃, hsendYc, hend⟩ := exec_bind_eq_ok.mp h
  obtain ⟨con, hcon, rfl⟩ := sends_of_giConfim hconfim
  obtain ⟨yx, hyx, hyxLen, hyxOf⟩ := burst_of_sendYx hsendYx
  obtain ⟨yc, hyc, hycLen, hycOf⟩ := burst_of_sendYc hsendYc
  obtain ⟨fin, hfin, rfl⟩ := sends_of_giFinish hend
  refine ⟨con, yx ++ yc, fin, ?_, mirrors_of_giFrame hcon,
    ⟨yxType, ycType, yx, yc, hyxType, hycType, rfl, hyxLen, hyxOf, hycLen, hycOf⟩,
    mirrors_of_giFrame hfin⟩
  exact (Burst.cons (giFrame_carries hcon) (hyx.append hyc)).append (.one (giFrame_carries hfin))

lemma Burst.isI {frames : List Frame} (h : Burst s frames t) : ∀ g ∈ frames, isI g := by
  induction h with
  | nil s => simp
  | cons hf rest ih => exact List.forall_mem_cons.mpr ⟨isI_of_sendsIdx hf.1, ih⟩

omit [Double R] in
lemma clockFrame_isI {g : Frame} {time : SysTime} (h : clockFrame env s f = .ok (g, time)) :
    isI g := by
  obtain ⟨len, -, h⟩ := bind_eq_ok.mp h
  obtain ⟨b, hb, h⟩ := bind_eq_ok.mp h
  obtain ⟨c, hc, h⟩ := bind_eq_ok.mp h
  iterate 7 obtain ⟨_, -, h⟩ := bind_eq_ok.mp h
  obtain ⟨rfl, -⟩ : c = g ∧ _ := by simpa using h
  have hkeep {i : ℕ} (hi : i < 4) : c.getD i 0 = b.getD i 0 := by
    apply pokes_getD_of_ne hc
    intro w hw
    simp only [List.mem_cons, List.not_mem_nil, or_false] at hw
    rcases hw with rfl | rfl <;> omega
  obtain ⟨⟨h2, h3⟩, -⟩ := setAPCI_carries hb
  exact isI_of_sendsIdx ⟨(hkeep (by omega)).trans h2, (hkeep (by omega)).trans h3⟩

/-! ### One frame -/

lemma framesSent_append (fd : ℤ) (log evs : List Ev) :
    framesSent fd (log ++ evs) = framesSent fd log ++ framesSent fd evs := List.filterMap_append

lemma framesSent_map (fd : ℤ) (frames : List Frame) :
    framesSent fd (frames.map (.sent fd)) = frames := by
  induction frames with
  | nil => rfl
  | cons g frames ih =>
    calc framesSent fd ((g :: frames).map (.sent fd))
        = g :: framesSent fd (frames.map (.sent fd)) := by
          simp [framesSent, Ev.sentOn]
      _ = g :: frames := by rw [ih]

/-- What is sent and set to answer a frame, whatever has been logged before. -/
def Sends (s t : Plug) (answer : List Frame) : Prop :=
  ∃ evs, t.log = s.log ++ evs ∧
    (∀ e ∈ evs, (∃ g, e = .sent s.fd g) ∨ ∃ time, e = .setSysTime time) ∧
    framesSent s.fd evs = answer

lemma Burst.out {frames : List Frame} (h : Burst s frames t) : Sends s t frames := by
  refine ⟨_, h.log, fun e he => ?_, framesSent_map _ _⟩
  obtain ⟨g, -, rfl⟩ := List.mem_map.mp he
  exact .inl ⟨g, rfl⟩

/-- What the command in an I-format frame calls for is sent. -/
lemma sends_of_processI (h : exec (processI env (f.getD 6 0) f) s = (.ok ⟨⟩, t)) :
    t.fd = s.fd ∧ ∃ body, Sends s t body ∧ Command env f body ∧ ∀ g ∈ body, isI g := by
  unfold processI at h
  unfold Command
  split_ifs at h ⊢ with hgi hclock hsc
  · obtain ⟨con, data, fin, hburst, hcon, hdata, hfin⟩ := burst_of_processCIcNa1 h
    exact ⟨hburst.fd, _, hburst.out, ⟨con, data, fin, rfl, hcon, hdata, hfin⟩, hburst.isI⟩
  · unfold processCCsNa1 at h
    rw [exec_get_bind] at h
    obtain ⟨⟨g, time⟩, hout, h⟩ := exec_of_bind_eq_ok.mp h
    simp only [exec_modify_bind] at h
    have h := of_print_eq_ok h
    obtain rfl := (Prod.mk.inj h).2
    refine ⟨rfl, [g], ⟨[.setSysTime time, .sent s.fd g], List.append_assoc _ _ _, ?_, ?_⟩,
      ⟨g, rfl, mirrors_of_clockFrame hout⟩, ?_⟩
    · simp
    · exact framesSent_map s.fd [g]
    · simpa using clockFrame_isI hout
  · unfold processCScNa1 at h
    rw [exec_get_bind] at h
    obtain ⟨len, -, h⟩ := exec_of_bind_eq_ok.mp h
    obtain ⟨buf, -, h⟩ := exec_of_bind_eq_ok.mp h
    obtain rfl := (Prod.mk.inj h).2
    exact ⟨rfl, [], ⟨[], by simp, by simp, rfl⟩, rfl, by simp⟩
  · obtain rfl := (Prod.mk.inj h).2
    exact ⟨rfl, [], ⟨[], by simp, by simp, rfl⟩, rfl, by simp⟩

lemma Sends.trans {u : Plug} {as bs : List Frame} (hfd : t.fd = s.fd) (h : Sends s t as)
    (h' : Sends t u bs) : Sends s u (as ++ bs) := by
  obtain ⟨evs, hlog, hall, hsent⟩ := h
  obtain ⟨evs', hlog', hall', hsent'⟩ := h'
  rw [hfd] at hall' hsent'
  refine ⟨evs ++ evs', by rw [hlog', hlog, List.append_assoc], fun e he => ?_, ?_⟩
  · exact (List.mem_append.mp he).elim (hall e) (hall' e)
  · rw [framesSent_append, hsent, hsent']

lemma sends_of_sendSFrame (h : exec (sendSFrame env) s = (.ok ⟨⟩, t)) :
    Sends s t [sFrame s.recvIdx] := by
  unfold sendSFrame at h
  rw [exec_get_bind] at h
  have h := of_print_eq_ok h
  obtain rfl := (Prod.mk.inj h).2
  have hnothing : Sends s s [] := Burst.out (.nil s)
  exact hnothing.trans rfl
    ⟨[.sent s.fd (sFrame s.recvIdx)], rfl, by simp, by simp [framesSent, Ev.sentOn]⟩

lemma confirmation_eq (ctrlField1 : UInt8) :
    confirmation ctrlField1 = ((uAnswer ctrlField1).2.map Prod.snd).toList := by
  unfold confirmation uAnswer
  split_ifs <;> rfl

lemma sends_of_analyseUFrame (h : exec (analyseUFrame env f) s = (.ok ⟨⟩, t)) :
    Sends s t (confirmation (f.getD 2 0)) := by
  rw [confirmation_eq]
  unfold analyseUFrame at h
  obtain ⟨ctrl, hctrl, h⟩ := exec_of_bind_eq_ok.mp h
  obtain ⟨-, rfl⟩ := peek_eq_ok hctrl
  have h := of_print_eq_ok h
  rcases hu : (uAnswer (f.getD 2 0)).2 with _ | ⟨strType1, response⟩
  · rw [hu] at h
    obtain rfl := (Prod.mk.inj h).2
    exact Burst.out (.nil s)
  · rw [hu] at h
    have h := of_print_eq_ok h
    obtain rfl := (Prod.mk.inj h).2
    exact ⟨[.sent s.fd response], rfl, by simp, by simp [framesSent, Ev.sentOn]⟩

/-- **One exchange**: a frame that has been handled has been answered, on its connection. -/
lemma exchange_of_analyseFrame (h : exec (analyseFrame env f) s = (.ok ⟨⟩, t)) :
    ∃ evs, t.log = s.log ++ .analysed s.fd f :: evs ∧ Exchange env s.fd f evs := by
  have hsends {u : Plug} {answer : List Frame} (hlog : u.log = s.log ++ [.analysed s.fd f])
      (hfd : u.fd = s.fd) (hsends : Sends u t answer) (hanswers : Answers env f answer) :
      ∃ evs, t.log = s.log ++ .analysed s.fd f :: evs ∧ Exchange env s.fd f evs := by
    obtain ⟨evs, hgrown, hall, hsent⟩ := hsends
    rw [hfd] at hall hsent
    refine ⟨evs, ?_, hall, hsent ▸ hanswers⟩
    rw [hgrown, hlog, List.append_assoc, List.singleton_append]
  unfold analyseFrame dispatch at h
  rw [exec_modify_bind] at h
  obtain ⟨ctrl, hctrl, h⟩ := exec_of_bind_eq_ok.mp h
  obtain ⟨-, rfl⟩ := peek_eq_ok hctrl
  unfold Answers at hsends
  by_cases hu : isU f
  · rw [if_pos (by simpa [isU] using hu)] at h
    refine hsends (u := { s with log := s.log ++ [.analysed s.fd f] }) rfl rfl
      (sends_of_analyseUFrame h) ?_
    rw [if_pos hu]
  rw [if_neg (by simpa [isU] using hu)] at h
  by_cases hi : isI f
  · rw [if_pos (by simpa [isI] using hi), exec_modify_bind] at h
    unfold analyseIFrame at h
    obtain ⟨type, htype, h⟩ := exec_of_bind_eq_ok.mp h
    obtain ⟨-, rfl⟩ := peek_eq_ok htype
    obtain ⟨⟨⟩, v, hv, h⟩ := exec_bind_eq_ok.mp h
    obtain ⟨hfd, body, hbody, hcommand, hisI⟩ := sends_of_processI hv
    have hall := hbody.trans hfd (sends_of_sendSFrame h)
    refine hsends (u := { s with log := s.log ++ [.analysed s.fd f]
                                 recvIdx := (s.recvIdx + 1) % 65536 }) rfl rfl hall ?_
    rw [if_neg hu, if_pos hi]
    exact ⟨body, v.recvIdx, rfl, hcommand, hisI⟩
  rw [if_neg (by simpa [isI] using hi)] at h
  have hquiet : t = { s with log := s.log ++ [.analysed s.fd f] } := by
    split_ifs at h
    · have hidle := printFrame_idle env "S帧" f { s with log := s.log ++ [.analysed s.fd f] }
      unfold analyseSFrame at h
      rwa [h] at hidle
    · exact (Prod.mk.inj h).2.symm
  refine hsends (by rw [hquiet]) (by rw [hquiet]) (Burst.nil t).out ?_
  rw [if_neg hu, if_neg hi]

/-! ### Runs -/

section Runs

variable {build : Build} {fd : ℤ}

lemma exchange_of_handleFrame {n : ℕ} (h : (handleFrame env fd s n).1 = .ok ()) :
    ∃ f evs, (handleFrame env fd s n).2.log = s.log ++ .analysed s.fd f :: evs ∧
      Exchange env s.fd f evs := by
  obtain ⟨evs, hlog, hexchange⟩ := exchange_of_analyseFrame (Prod.ext h rfl)
  exact ⟨_, evs, hlog, hexchange⟩

/-- A pass that goes on has handled one exchange. -/
lemma Dialogue.again (h : Dialogue env s.log) (hpass : handlePass env build fd s = .again t) :
    Dialogue env t.log := by
  obtain ⟨n, hv, rfl, hok⟩ := complete_of_again env build hpass
  obtain ⟨f, evs, hlog, hexchange⟩ := exchange_of_handleFrame hok
  rw [hlog]
  exact h.exchange hexchange

/-- A pass that leaves the loop without a fault has handled one exchange, or none. -/
lemma Dialogue.leave (h : Dialogue env s.log)
    (hpass : handlePass env build fd s = .leave (.ok (), t)) : Dialogue env t.log := by
  rcases hv : verdict build (s.mapRecvBuf fd) with ⟨_ | _ | _, n⟩
  · rw [handlePass_invalid env build hv] at hpass
    cases hpass
    exact h
  · rcases handlePass_complete env build hv with ⟨hp, -⟩ | ⟨hp, -⟩
    · rw [hp] at hpass
      have hout := Pass.leave.inj hpass
      obtain ⟨f, evs, hlog, hexchange⟩ :=
        exchange_of_handleFrame (congrArg Prod.fst hout)
      rw [hout] at hlog
      rw [hlog]
      exact h.exchange hexchange
    · rw [hp] at hpass
      cases hpass
  · rw [handlePass_incomplete env build hv] at hpass
    cases hpass
    exact h

lemma Dialogue.step {m : Machine} {move : Move} (h : m.ctl ≠ .stopped → Dialogue env m.plug.log)
    (hgoes : (step env build m move).ctl ≠ .stopped) :
    Dialogue env (step env build m move).plug.log := by
  obtain ⟨s, ctl⟩ := m
  rcases ctl with _ | fd | _
  · have h := h nofun
    rcases move with ⟨_ | _, fd⟩ | ⟨fd, chunk⟩ | _
    · exact h.connect fd
    · exact h.disconnect fd
    · exact h
    · exact h
  · have h := h nofun
    rcases move with ⟨status, fd'⟩ | ⟨fd', chunk⟩ | _
    · exact h
    · exact h
    · simp only [TransIEC104.step] at hgoes ⊢
      rcases hp : handlePass env build fd s with t | ⟨e | u, t⟩
      · exact h.again hp
      · rw [hp] at hgoes
        exact absurd rfl hgoes
      · exact h.leave hp
  · exact absurd rfl hgoes

lemma dialogue_run (moves : List Move) (h : (run env build moves).ctl ≠ .stopped) :
    Dialogue env (run env build moves).plug.log := by
  induction moves using List.reverseRecOn with
  | nil => exact .nil
  | append_singleton moves move ih =>
    rw [run_snoc] at h ⊢
    exact Dialogue.step ih h

lemma Exchange.framesOn_eq {f : Frame} {evs : List Ev} (h : Exchange env fd f evs) (fd' : ℤ) :
    framesOn fd' evs = [] := by
  refine List.filterMap_eq_nil_iff.mpr fun e he => ?_
  rcases h.there e he with ⟨g, rfl⟩ | ⟨time, rfl⟩ <;> rfl

lemma Exchange.framesSent_eq {f : Frame} {evs : List Ev} (h : Exchange env fd f evs) {fd' : ℤ}
    (hne : fd' ≠ fd) : framesSent fd' evs = [] := by
  refine List.filterMap_eq_nil_iff.mpr fun e he => ?_
  rcases h.there e he with ⟨g, rfl⟩ | ⟨time, rfl⟩
  · simp [Ev.sentOn, Ne.symm hne]
  · rfl

/-- Of a dialogue, each connection has its own part. -/
lemma Dialogue.on {log : List Ev} (h : Dialogue env log) (fd : ℤ) :
    ∃ answers, List.Forall₂ (Answers env) (framesOn fd log) answers ∧
      framesSent fd log = answers.flatten := by
  have hquiet (log : List Ev) (e : Ev) (hon : Ev.frameOn fd e = none)
      (hsent : Ev.sentOn fd e = none) : framesOn fd (log ++ [e]) = framesOn fd log ∧
        framesSent fd (log ++ [e]) = framesSent fd log := by
    constructor
    · simp [framesOn, hon]
    · simp [framesSent, hsent]
  induction h with
  | nil => exact ⟨[], .nil, rfl⟩
  | @connect log h fd' ih =>
    obtain ⟨hon, hsent⟩ := hquiet log (.connect fd') rfl rfl
    rwa [hon, hsent]
  | @disconnect log h fd' ih =>
    obtain ⟨hon, hsent⟩ := hquiet log (.disconnect fd') rfl rfl
    rwa [hon, hsent]
  | @exchange log h fd' f evs hf ih =>
    obtain ⟨answers, hall, hsent⟩ := ih
    have hon : framesOn fd (.analysed fd' f :: evs) = if fd' = fd then [f] else [] := by
      have hrest := hf.framesOn_eq fd
      unfold framesOn at hrest ⊢
      by_cases he : fd' = fd <;> simp [Ev.frameOn, he, hrest]
    have hout : framesSent fd (.analysed fd' f :: evs) = framesSent fd evs := rfl
    rw [framesOn_append, framesSent_append, hon, hout]
    by_cases he : fd' = fd
    · subst he
      rw [if_pos rfl]
      refine ⟨answers ++ [framesSent fd' evs], ?_, ?_⟩
      · exact List.rel_append hall (.cons hf.answers .nil)
      · rw [hsent, List.flatten_append, List.flatten_singleton]
    · rw [if_neg he, hf.framesSent_eq (Ne.symm he), List.append_nil, List.append_nil]
      exact ⟨answers, hall, hsent⟩

variable (env build) in
/-- **Every frame is answered in its turn.** Whatever the clients send, however many there are
and however their messages come, as long as no handler stops with a fault all that happens is one
whole exchange after the other; and on each connection the answers to the frames received on it
are sent, in their order, and nothing else. -/
theorem answered_in_turn (moves : List Move) (h : (run env build moves).ctl ≠ .stopped) :
    Dialogue env (run env build moves).plug.log ∧
      ∀ fd, ∃ answers,
        List.Forall₂ (Answers env) (framesOn fd (run env build moves).plug.log) answers ∧
        framesSent fd (run env build moves).plug.log = answers.flatten :=
  ⟨dialogue_run moves h, (dialogue_run moves h).on⟩

/-- Two clients: one starts the transfer, the other tests its connection. -/
def twoClients : List Move :=
  [.connection .connect 5, .connection .connect 6] ++ arrive 5 (sendUFrame startdtAct) ++
    arrive 6 (sendUFrame testfrAct)

theorem two_clients_answered : (run bareEnv .x86 twoClients).ctl ≠ .stopped ∧
    ∃ answers, List.Forall₂ (Answers bareEnv)
      (framesOn 6 (run bareEnv .x86 twoClients).plug.log) answers ∧
      answers.flatten = [sendUFrame testfrCon] := by
  have hidle : (run bareEnv .x86 twoClients).ctl = .idle := rfl
  have hgoes : (run bareEnv .x86 twoClients).ctl ≠ .stopped := by
    rw [hidle]
    exact nofun
  obtain ⟨answers, hanswers, hsent⟩ := (answered_in_turn bareEnv .x86 twoClients hgoes).2 6
  exact ⟨hgoes, answers, hanswers, hsent.symm.trans rfl⟩

/-! ### Streams -/

lemma Dialogue.call {chunk : List UInt8} (h : Dialogue env s.log)
    (hcall : HandleMessage env build fd chunk s (.ok (), t)) : Dialogue env t.log := by
  have hleave (u : Plug) (o : Outcome) (hu : Dialogue env u.log)
      (ho : handlePass env build fd u = .leave o) : ∀ t, o = (.ok (), t) → Dialogue env t.log := by
    rintro t rfl
    exact Dialogue.leave hu ho
  have hreceived : Dialogue env (receive fd chunk s).log := h
  exact Leaves.inv (fun _ _ => Dialogue.again) hleave hreceived hcall t rfl

lemma Dialogue.calls {calls : List (ℤ × List UInt8)} (h : Dialogue env s.log) {o : Outcome}
    (hcalls : Calls env build calls s o) (hok : o.1 = .ok ()) : Dialogue env o.2.log := by
  induction hcalls with
  | nil s => exact h
  | cons call rest ih => exact ih (h.call call) hok
  | stop call => cases hok

variable (env) in
/-- **Clients get their answers.** Where a plain `char` is unsigned, however the requests of the
clients are cut into messages and these interleaved, once all of them have been handled each
client has been sent the answers to its requests, in their order, and nothing else. -/
theorem clients_answered (apdus : ℤ → List Apdu) (calls : List (ℤ × List UInt8))
    (hall : ∀ fd, bytesOn fd calls = stream (apdus fd)) {o : Outcome}
    (hcalls : Calls env .aarch64 calls Plug.init o) (hok : o.1 = .ok ()) (fd : ℤ) :
    ∃ answers, List.Forall₂ (fun a => Answers env (Apdu.octets a)) (apdus fd) answers ∧
      framesSent fd o.2.log = answers.flatten := by
  obtain ⟨answers, hanswers, hsent⟩ := (Dialogue.nil.calls hcalls hok).on fd
  have hstart : Tracks apdus (fun _ => []) Plug.init := fun fd => ⟨[], apdus fd, rfl, rfl, rfl⟩
  obtain ⟨got, htracks, hreturn, -⟩ := ends_of_calls env
    (fun fd => (hall fd ▸ List.prefix_refl _ : [] ++ bytesOn fd calls <+: stream (apdus fd)))
    hstart (fun fd => waits_of_empty rfl) hcalls
  obtain ⟨hwaits, hgot⟩ := hreturn hok
  obtain ⟨done, rest, hdone, hframes, hbuf⟩ := htracks fd
  -- all octets have come, so the rest of the stream waits in the buffer, and no whole frame does
  have hrest : rest = [] := by
    rcases rest with _ | ⟨a, rest⟩
    · rfl
    · have hshort := hwaits fd done a rest hdone hframes
      rw [hgot fd, List.nil_append, hall, hdone, stream_append] at hbuf
      rw [← List.append_cancel_left hbuf, stream_cons, List.length_append] at hshort
      omega
  rw [hrest, List.append_nil] at hdone
  rw [hframes, List.forall₂_map_left_iff, ← hdone] at hanswers
  exact ⟨answers, hanswers, hsent⟩

/-- Two requests of two clients, cut and interleaved. -/
theorem cut_requests_answered : (∀ fd, bytesOn fd cutCalls = stream (twoStreams fd)) ∧
    ∃ t, Calls bareEnv .aarch64 cutCalls Plug.init (.ok (), t) ∧ ∃ answers,
      List.Forall₂ (fun a => Answers bareEnv (Apdu.octets a)) [uApdu testfrAct] answers ∧
      answers.flatten = [sendUFrame testfrCon] := by
  have hall (fd : ℤ) : bytesOn fd cutCalls = stream (twoStreams fd) := by
    by_cases h5 : fd = 5
    · subst h5
      rfl
    by_cases h6 : fd = 6
    · subst h6
      rfl
    · simp [bytesOn, cutCalls, twoStreams, h5, h6, Ne.symm h5, Ne.symm h6]
  obtain ⟨t, hcalls, hsent⟩ : ∃ t, Calls bareEnv .aarch64 cutCalls Plug.init (.ok (), t) ∧
      framesSent 6 t.log = [sendUFrame testfrCon] :=
    ⟨_, .cons ⟨1, rfl⟩ (.cons ⟨1, rfl⟩ (.cons ⟨1, rfl⟩ (.cons ⟨1, rfl⟩ (.nil _)))), rfl⟩
  obtain ⟨answers, hanswers, hflat⟩ :=
    clients_answered bareEnv twoStreams cutCalls hall hcalls rfl 6
  exact ⟨hall, t, hcalls, answers, hanswers, hflat.symm.trans hsent⟩

end Runs

end DataEngine.TransIEC104
