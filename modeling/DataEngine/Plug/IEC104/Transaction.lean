import DataEngine.Plug.IEC104.Measurements
import DataEngine.Plug.IEC104.Counters
import Mathlib.Algebra.Order.Floor.Div

/-!
A general interrogation as a whole.

The confirmation, the two tables, the end and the S-frame are sent one after the other. Each
frame of a burst carries the counters of the moment it is built, and the burst advances the
send counter by its length, round `2^15`.
-/

namespace DataEngine.TransIEC104

open ConfigParse Lib.Effect

/-! ### Bursts -/

/-- From `s` to `t` the frames are sent one after the other, each with the counters of the state
it is built in. -/
inductive Burst : Plug → List Frame → Plug → Prop where
  | nil (s : Plug) : Burst s [] s
  | cons {s t : Plug} {f : Frame} {frames : List Frame}
      (hf : SendsIdx s.sendIdx f ∧ AcksIdx s.recvIdx f) (rest : Burst (s.sends f) frames t) :
      Burst s (f :: frames) t

section Burst

variable {s t u : Plug} {f : Frame} {frames frames' : List Frame}

lemma Burst.one (hf : SendsIdx s.sendIdx f ∧ AcksIdx s.recvIdx f) : Burst s [f] (s.sends f) :=
  .cons hf (.nil _)

lemma Burst.append (h : Burst s frames t) (h' : Burst t frames' u) :
    Burst s (frames ++ frames') u := by
  induction h with
  | nil s => exact h'
  | cons hf rest ih => exact .cons hf (ih h')

lemma Burst.log (h : Burst s frames t) : t.log = s.log ++ frames.map (.sent s.fd) := by
  induction h with
  | nil s => simp
  | @cons s t f frames hf rest ih =>
    rw [ih]
    simp [Plug.sends]

lemma Burst.fd (h : Burst s frames t) : t.fd = s.fd := by
  induction h with
  | nil s => rfl
  | cons hf rest ih => exact ih

lemma Burst.recvIdx (h : Burst s frames t) : t.recvIdx = s.recvIdx := by
  induction h with
  | nil s => rfl
  | cons hf rest ih => exact ih

lemma nextSendIdx_eq {n : ℕ} (h : n ≤ 32767) : nextSendIdx n = (n + 1) % 32768 := by
  unfold nextSendIdx
  split_ifs <;> omega

/-- The send counter goes round. -/
lemma Burst.sendIdx (h : Burst s frames t) (hs : s.sendIdx ≤ 32767) :
    t.sendIdx = (s.sendIdx + frames.length) % 32768 := by
  induction h with
  | nil s => exact (Nat.mod_eq_of_lt (by omega)).symm
  | @cons s t f frames hf rest ih =>
    have hnext : (s.sends f).sendIdx = (s.sendIdx + 1) % 32768 := nextSendIdx_eq hs
    rw [ih (by omega), hnext, List.length_cons]
    omega

/-- The state a frame of a burst is built in is the one the frames before it lead to. -/
lemma Burst.at (h : Burst s frames t) {j : ℕ} (hj : frames[j]? = some f) :
    ∃ p, Burst s (frames.take j) p ∧ SendsIdx p.sendIdx f ∧ AcksIdx p.recvIdx f := by
  induction h generalizing j with
  | nil s => simp at hj
  | @cons s t g frames hg rest ih =>
    cases j with
    | zero =>
      obtain rfl : g = f := by simpa using hj
      exact ⟨s, .nil s, hg⟩
    | succ j =>
      obtain ⟨p, hp, hf⟩ := ih (by simpa using hj)
      exact ⟨p, .cons hg hp, hf⟩

end Burst

/-! ### Tables -/

variable {R V : Type} [Double R] {env : Env R V}

/-- A table that is sent through is a burst of its segments, and all of them have what every
segment keeps of its buffer. -/
lemma burst_of_sendSegments {strType : String}
    {segment : Plug → ℕ → ℕ → Frame → Except Fault Frame} {n k num : ℕ} {buf : Frame} {s t : Plug}
    (P : Frame → Prop) (hstamp : Stamps segment)
    (hkeep : ∀ s k r buf f, P buf → segment s k r buf = .ok f → P f) (hbuf : P buf)
    (hpos : 0 < num) (hn : num ≤ sqMaxNum * (n + 1))
    (h : exec (sendSegments env strType segment n k num buf) s = (.ok ⟨⟩, t)) :
    ∃ frames, Burst s frames t ∧ frames.length = num ⌈/⌉ sqMaxNum ∧ ∀ f ∈ frames, P f := by
  simp only [Nat.ceilDiv_eq_add_pred_div]
  induction n generalizing k num buf s with
  | zero =>
    obtain ⟨f, hf, hrest⟩ := sendSegments_eq_ok h
    obtain rfl : s.sends f = t := by simpa [sendRest] using hrest
    refine ⟨[f], .one (hstamp _ _ _ _ _ hf), ?_, ?_⟩
    · unfold sqMaxNum at *
      simp only [List.length_singleton]
      omega
    · simpa using hkeep _ _ _ _ _ hbuf hf
  | succ n ih =>
    obtain ⟨f, hf, hrest⟩ := sendSegments_eq_ok h
    have hstamped := hstamp _ _ _ _ _ hf
    have hkept := hkeep _ _ _ _ _ hbuf hf
    by_cases hmore : sqMaxNum < num
    · simp only [sendRest, if_pos hmore] at hrest
      have hle : num - sqMaxNum ≤ sqMaxNum * (n + 1) := by
        rw [Nat.mul_succ] at hn
        omega
      obtain ⟨frames, hburst, hlen, hall⟩ := ih hkept (by omega) hle hrest
      refine ⟨f :: frames, .cons hstamped hburst, ?_, ?_⟩
      · rw [List.length_cons, hlen]
        unfold sqMaxNum at *
        omega
      · rw [List.forall_mem_cons]
        exact ⟨hkept, hall⟩
    · simp only [sendRest, if_neg hmore, exec_pure, Prod.mk.injEq, true_and] at hrest
      subst hrest
      refine ⟨[f], .one hstamped, ?_, by simpa using hkept⟩
      unfold sqMaxNum at *
      simp only [List.length_singleton]
      omega

/-- A frame of a type, sent for a cause. -/
def IsOf (type cause : UInt8) (f : Frame) : Prop := f.getD 6 0 = type ∧ f.getD 8 0 = cause

omit [Double R] in
lemma giHead_keeps {startAddr : ℤ} {k realNum : ℕ} {buf buf' : Frame} {type cause : UInt8}
    (h : giHead startAddr k realNum buf = .ok buf') (hbuf : IsOf type cause buf) :
    IsOf type cause buf' := by
  obtain ⟨addr, -, h⟩ := bind_eq_ok.mp h
  have hg := pokes_getD h
  exact ⟨(hg 6).trans hbuf.1, (hg 8).trans hbuf.2⟩

/-- What comes after the head of a segment leaves its type and its cause. -/
lemma isOf_resize {s : Plug} {len : ℤ} {n : ℕ} {head full apci : Frame} {type cause : UInt8}
    (hhead : IsOf type cause head) (hfull : ∀ j < 15, full.getD j 0 = head.getD j 0)
    (hapci : setAPCI s len full = .ok apci) (hn : 8 < n) : IsOf type cause (resize n apci) := by
  unfold IsOf
  rw [getD_resize (by omega), getD_resize hn, setAPCI_rest hapci (by omega),
    setAPCI_rest hapci (by omega), hfull 6 (by omega), hfull 8 (by omega)]
  exact hhead

omit [Double R] in
lemma yxSegment_isOf {vecValue : List V} {startAddr : ℤ} {s : Plug} {k r : ℕ} {buf f : Frame}
    {type cause : UInt8} (hbuf : IsOf type cause buf)
    (h : yxSegment env vecValue startAddr s k r buf = .ok f) : IsOf type cause f := by
  obtain ⟨head, hhead, h⟩ := bind_eq_ok.mp h
  obtain ⟨full, hfull, h⟩ := bind_eq_ok.mp h
  obtain ⟨apci, hapci, h⟩ := bind_eq_ok.mp h
  obtain rfl : resize (r + 15) apci = f := by simpa using h
  exact isOf_resize (giHead_keeps hhead hbuf) (yxElems_eq_ok hfull).2.1 hapci (by omega)

omit [Double R] in
lemma ycSegment_isOf {type : MonitorType} {vecValue : List V} {startAddr : ℤ}
    {byteNum qualityNum : ℕ} {s : Plug} {k r : ℕ} {buf f : Frame} {code cause : UInt8}
    (hbuf : IsOf code cause buf)
    (h : ycSegment env type vecValue startAddr byteNum qualityNum s k r buf = .ok f) :
    IsOf code cause f := by
  obtain ⟨head, full, apci, hhead, hkeep, hapci, rfl⟩ := ycSegment_parts h
  exact isOf_resize (giHead_keeps hhead hbuf) hkeep hapci (by omega)

lemma giBuffer_isOf {type : MonitorType} {elemLen : ℕ} {buf : Frame}
    (h : giBuffer env type elemLen = .ok buf) : IsOf type.code introgen buf := by
  obtain ⟨addr, -, h⟩ := bind_eq_ok.mp h
  have hg := pokes_getD h
  exact ⟨hg 6, hg 8⟩

/-- All segments of the measurements are sent if the values convert. -/
lemma exists_sendYcSegments {type : MonitorType} {vecValue : List V} {strType : String}
    {ycStart : ℤ} {buf : Frame} (s : Plug) (hpos : 0 < vecValue.length)
    (haddr : AddrFits ycStart vecValue.length) (hlen : buf.length = 15 + 127 * 5) {b : Bool}
    (hb : bPrintFrame env.cfg env.name = .ok b)
    (hconv : ∀ v ∈ vecValue, ∃ e, measured env type v = .ok e) :
    ∃ t, exec (sendSegments env strType
      (ycSegment env type vecValue ycStart type.byteNum type.qualityNum)
      (vecValue.length / sqMaxNum) 0 vecValue.length buf) s = (.ok ⟨⟩, t) := by
  have hw := type.width_bounds
  refine exists_sendSegments (fun k num buf =>
    15 + 127 * type.width ≤ buf.length ∧ 0 < num ∧ k * sqMaxNum + num = vecValue.length) hb ?_
    ⟨by omega, hpos, by omega⟩
  rintro s k num buf ⟨hfit, hnum, hsum⟩
  have hr : min sqMaxNum num ≤ 127 := Nat.min_le_left _ _
  have hr' : min sqMaxNum num ≤ num := Nat.min_le_right _ _
  obtain ⟨haddr0, haddr⟩ := haddr.segment hnum hsum
  have hval (j : ℕ) (hj : j * type.width < min sqMaxNum num) : ∃ v e,
      vecValue[j * type.width + k * sqMaxNum]? = some v ∧ measured env type v = .ok e := by
    have hlt : j * type.width + k * sqMaxNum < vecValue.length := by omega
    obtain ⟨e, he⟩ := hconv _ (List.getElem_mem hlt)
    exact ⟨_, e, List.getElem?_eq_getElem hlt, he⟩
  have hroom : 15 + min sqMaxNum num + type.width ≤ buf.length := by omega
  obtain ⟨f, hf⟩ := exists_ycSegment s haddr0 haddr hval hroom
  refine ⟨f, hf, fun hmore => ⟨?_, by omega, ?_⟩⟩
  · rw [(ycSegment_eq_ok hf).length, ← type.width_eq, min_eq_left hmore.le]
    unfold sqMaxNum
    omega
  · rw [next_segment hmore, hsum]

/-! ### The parts of the answer -/

variable (env) in
/-- Every signal of the table is there and converts, and its address is an `int`. -/
structure SignalsReady (signalNum : ℕ) : Prop where
  start : ∃ yxStart, cfgInt env "yxStart" = .ok yxStart ∧ AddrFits yxStart signalNum
  values : ∀ log, ∃ vecValue,
    env.getTransMultiValue log env.name .signal 0 signalNum = .ok vecValue ∧
    vecValue.length = signalNum ∧ ∀ v ∈ vecValue, ∃ c, env.asUInt8 v = .ok c

variable (env) in
/-- Every value asked for in place of a measurement is there and converts. -/
structure MeasuresReady (type : MonitorType) (measureNum : ℕ) : Prop where
  start : ∃ ycStart, cfgInt env "ycStart" = .ok ycStart ∧ AddrFits ycStart measureNum
  values : ∀ log, ∃ vecValue,
    env.getTransMultiValue log env.name .signal 0 measureNum = .ok vecValue ∧
    vecValue.length = measureNum ∧ ∀ v ∈ vecValue, ∃ e, measured env type v = .ok e

variable {s : Plug} {commAddr : ℤ} {b : Bool}

variable (s) in
/-- The signals are a burst of `⌈num / 127⌉` frames. -/
lemma sendGIYx_burst (type : MonitorType) (strType : String) {num : ℕ}
    (hnum : pointNum env "signal" = .ok num) (hready : SignalsReady env num)
    (hcomm : cfgInt env "commAddr" = .ok commAddr) (hb : bPrintFrame env.cfg env.name = .ok b) :
    ∃ frames t, exec (sendGIYx env type strType) s = (.ok ⟨⟩, t) ∧ Burst s frames t ∧
      frames.length = num ⌈/⌉ sqMaxNum ∧ ∀ f ∈ frames, IsOf type.code introgen f := by
  obtain ⟨buf, hbuf⟩ := exists_giBuffer env type 1 hcomm
  rcases Nat.eq_zero_or_pos num with rfl | hpos
  · exact ⟨[], s, exec_sendGIYx_empty hnum hbuf, .nil s, by simp, by simp⟩
  obtain ⟨yxStart, hstart, haddr⟩ := hready.start
  obtain ⟨vecValue, hvec, rfl, hconv⟩ := hready.values s.log
  obtain ⟨t, ht⟩ := exists_sendYxSegments s hpos haddr (giBuffer_length hbuf) hb hconv
  obtain ⟨frames, hburst, hlen, hall⟩ := burst_of_sendSegments (IsOf type.code introgen)
    (yxSegment_stamps env vecValue yxStart) (fun _ _ _ _ _ => yxSegment_isOf) (giBuffer_isOf hbuf)
    hpos (num_le_segments _) ht
  exact ⟨frames, t, (exec_sendGIYx hpos hnum hvec hstart hbuf).trans ht, hburst, hlen, hall⟩

variable (s) in
/-- The measurements are a burst of `⌈num / 127⌉` frames. -/
lemma sendGIYc_burst (type : MonitorType) (htype : type.isMeasure) (strType : String) {num : ℕ}
    (hnum : pointNum env "measure" = .ok num) (hready : MeasuresReady env type num)
    (hcomm : cfgInt env "commAddr" = .ok commAddr) (hb : bPrintFrame env.cfg env.name = .ok b) :
    ∃ frames t, exec (sendGIYc env type strType) s = (.ok ⟨⟩, t) ∧ Burst s frames t ∧
      frames.length = num ⌈/⌉ sqMaxNum ∧ ∀ f ∈ frames, IsOf type.code introgen f := by
  obtain ⟨buf, hbuf⟩ := exists_giBuffer env type 5 hcomm
  rcases Nat.eq_zero_or_pos num with rfl | hpos
  · exact ⟨[], s, exec_sendGIYc_empty hnum hbuf, .nil s, by simp, by simp⟩
  obtain ⟨ycStart, hstart, haddr⟩ := hready.start
  obtain ⟨vecValue, hvec, rfl, hconv⟩ := hready.values s.log
  obtain ⟨t, ht⟩ := exists_sendYcSegments s hpos haddr (giBuffer_length hbuf) hb hconv
  obtain ⟨frames, hburst, hlen, hall⟩ := burst_of_sendSegments (IsOf type.code introgen)
    (ycSegment_stamps env type vecValue ycStart _ _) (fun _ _ _ _ _ => ycSegment_isOf)
    (giBuffer_isOf hbuf) hpos (num_le_segments _) ht
  exact ⟨frames, t, (exec_sendGIYc htype hpos hnum hvec hstart hbuf).trans ht, hburst, hlen, hall⟩

lemma exists_giFrame {f : Frame} (hlen : 10 ≤ f.length) (cause : UInt8) (s : Plug) :
    ∃ g, giFrame cause s f = .ok g ∧ IsOf (f.getD 6 0) cause g := by
  obtain ⟨g, hg⟩ : ∃ g, giFrame cause s f = .ok g := by
    refine exists_pokes fun w hw => ?_
    simp only [sendField, recvField, List.cons_append, List.nil_append, List.mem_cons,
      List.not_mem_nil, or_false] at hw
    rcases hw with rfl | rfl | rfl | rfl | rfl | rfl <;> omega
  have hget := pokes_getD hg
  exact ⟨g, hg, hget 6, hget 8⟩

variable {f : Frame}

lemma exec_sendGIConfim {g : Frame} (hg : giFrame actCon s f = .ok g)
    (hb : bPrintFrame env.cfg env.name = .ok b) :
    exec (sendGIConfim env f) s = (.ok ⟨⟩, s.sends g) := by
  unfold sendGIConfim
  rw [exec_get_bind, exec_of_bind, hg]
  simp only
  rw [exec_bind_ok (printFrame_ok hb _ _ _), exec_sendFrame]

lemma exec_sendGIFinish {g : Frame} (hg : giFrame actTerm s f = .ok g)
    (hb : bPrintFrame env.cfg env.name = .ok b) :
    exec (sendGIFinish env f) s = (.ok ⟨⟩, s.sends g) := by
  unfold sendGIFinish
  rw [exec_get_bind, exec_of_bind, hg]
  simp only
  rw [exec_bind_ok (printFrame_ok hb _ _ _), exec_sendFrame]

/-- The S-frame that acknowledges `recvIdx` frames. -/
def sFrame (recvIdx : ℕ) : Frame := [0x68, 0x04, 0x01, 0x00, octet (2 * recvIdx) 0, octet recvIdx 1]

lemma exec_sendSFrame (hb : bPrintFrame env.cfg env.name = .ok b) :
    exec (sendSFrame env) s =
      (.ok ⟨⟩, { s with log := s.log ++ [.sent s.fd (sFrame s.recvIdx)] }) := by
  unfold sendSFrame
  rw [exec_get_bind, exec_bind_ok (printFrame_ok hb _ _ _)]
  rfl

/-- What the table of signals is sent as. -/
def yxMonitor (yxType : ℤ) : MonitorType := if yxType = 0 then .mSpNa1 else .mDpNa1

/-- What the table of measurements is sent as. -/
def ycMonitor (ycType : ℤ) : MonitorType :=
  if ycType = 0 then .mMeNc1
  else if ycType = 1 then .mMeNd1
  else if ycType = 2 then .mMeNa1
  else .mMeNb1

lemma isMeasure_ycMonitor (ycType : ℤ) : (ycMonitor ycType).isMeasure := by
  unfold ycMonitor
  split_ifs <;> rfl

variable (env) in
lemma sendYx_eq {yxType : ℤ} (h : yxType = 0 ∨ yxType = 1) :
    ∃ strType, sendYx env yxType = sendGIYx env (yxMonitor yxType) strType := by
  rcases h with rfl | rfl <;> exact ⟨_, rfl⟩

variable (env) in
lemma sendYc_eq {ycType : ℤ} (h : ycType = 0 ∨ ycType = 1 ∨ ycType = 2 ∨ ycType = 3) :
    ∃ strType, sendYc env ycType = sendGIYc env (ycMonitor ycType) strType := by
  rcases h with rfl | rfl | rfl | rfl <;> exact ⟨_, rfl⟩

/-! ### The transaction -/

variable (env) in
/-- The configuration is read without a fault, and the values the two tables ask for are
complete. -/
structure Answerable (yxType ycType : ℤ) (signalNum measureNum : ℕ) : Prop where
  printed : ∃ b, bPrintFrame env.cfg env.name = .ok b
  commAddr : ∃ addr, cfgInt env "commAddr" = .ok addr
  yx : cfgInt env "yxType" = .ok yxType
  yc : cfgInt env "ycType" = .ok ycType
  signalSize : pointNum env "signal" = .ok signalNum
  measureSize : pointNum env "measure" = .ok measureNum
  signals : SignalsReady env signalNum
  measures : MeasuresReady env (ycMonitor ycType) measureNum

/-- A confirmation, `yxNum` frames of signals, `ycNum` frames of measurements and an end. -/
def IsTransaction (yxType ycType : ℤ) (yxNum ycNum : ℕ) (iFrames : List Frame) : Prop :=
  ∃ con yx yc fin, iFrames = con :: yx ++ yc ++ [fin] ∧ IsOf cIcNa1 actCon con ∧
    yx.length = yxNum ∧ (∀ g ∈ yx, IsOf (yxMonitor yxType).code introgen g) ∧
    yc.length = ycNum ∧ (∀ g ∈ yc, IsOf (ycMonitor ycType).code introgen g) ∧
    IsOf cIcNa1 actTerm fin

lemma IsTransaction.length {yxType ycType : ℤ} {yxNum ycNum : ℕ} {iFrames : List Frame}
    (h : IsTransaction yxType ycType yxNum ycNum iFrames) :
    iFrames.length = 2 + yxNum + ycNum := by
  obtain ⟨con, yx, yc, fin, rfl, -, rfl, -, rfl, -, -⟩ := h
  simp only [List.cons_append, List.length_cons, List.length_append, List.length_nil]
  omega

variable {yxType ycType : ℤ} {signalNum measureNum : ℕ}

lemma processCIcNa1_burst (hgi : f.getD 6 0 = cIcNa1) (hlen : 10 ≤ f.length)
    (hyx : yxType = 0 ∨ yxType = 1) (hyc : ycType = 0 ∨ ycType = 1 ∨ ycType = 2 ∨ ycType = 3)
    (h : Answerable env yxType ycType signalNum measureNum) (s : Plug) :
    ∃ iFrames t, exec (processCIcNa1 env f) s = (.ok ⟨⟩, t) ∧
      Burst s iFrames t ∧
      IsTransaction yxType ycType (signalNum ⌈/⌉ sqMaxNum) (measureNum ⌈/⌉ sqMaxNum) iFrames := by
  obtain ⟨b, hb⟩ := h.printed
  obtain ⟨addr, hcomm⟩ := h.commAddr
  obtain ⟨con, hcon, hconOf⟩ := exists_giFrame hlen actCon s
  obtain ⟨strYx, hsendYx⟩ := sendYx_eq env hyx
  obtain ⟨strYc, hsendYc⟩ := sendYc_eq env hyc
  obtain ⟨yx, t₁, ht₁, hburst₁, hlen₁, hall₁⟩ :=
    sendGIYx_burst (s.sends con) _ strYx h.signalSize h.signals hcomm hb
  obtain ⟨yc, t₂, ht₂, hburst₂, hlen₂, hall₂⟩ :=
    sendGIYc_burst t₁ _ (isMeasure_ycMonitor _) strYc h.measureSize h.measures hcomm hb
  obtain ⟨fin, hfin, hfinOf⟩ := exists_giFrame hlen actTerm t₂
  refine ⟨con :: yx ++ yc ++ [fin], t₂.sends fin, ?_, ?_, con, yx, yc, fin, rfl, hgi ▸ hconOf,
    hlen₁, hall₁, hlen₂, hall₂, hgi ▸ hfinOf⟩
  · unfold processCIcNa1
    rw [exec_bind_ok (printFrame_ok hb _ _ _), exec_bind_ok (exec_sendGIConfim hcon hb),
      exec_of_bind, h.yx]
    simp only
    rw [exec_of_bind, h.yc]
    simp only
    rw [hsendYx, hsendYc, exec_bind_ok ht₁, exec_bind_ok ht₂, exec_sendGIFinish hfin hb]
  · have hstart : Burst s (con :: yx) t₁ := .cons (giFrame_carries hcon) hburst₁
    exact (hstart.append hburst₂).append (.one (giFrame_carries hfin))

lemma exec_analyseFrame_gi (hgi : isGI f) (hlen : 10 ≤ f.length) (s : Plug) :
    exec (analyseFrame env f) s =
      exec (do processCIcNa1 env f; sendSFrame env) (heard f s) := by
  have hi : isI f = true := (Bool.and_eq_true _ _ |>.mp hgi).1
  have htype : f.getD 6 0 = cIcNa1 := by
    have := (Bool.and_eq_true _ _ |>.mp hgi).2
    simpa using this
  have hbit : f.getD 2 0 &&& 0x01 = 0x00 := by simpa [isI] using hi
  have hu : f.getD 2 0 &&& 0x03 ≠ 0x03 := by
    have := not_isU_of_isI hi
    simpa [isU] using this
  have hpeek {i : ℕ} (h : i ≤ f.length) : peek f i = .ok (f.getD i 0) := if_pos h
  unfold analyseFrame dispatch
  rw [exec_modify_bind, exec_of_bind, hpeek (by omega)]
  simp only
  rw [if_neg hu, if_pos hbit, exec_modify_bind]
  have hheard : heard f s =
      { s with log := s.log ++ [.analysed s.fd f], recvIdx := (s.recvIdx + 1) % 65536 } := by
    rw [heard, if_pos ⟨hi, by omega⟩]
  rw [hheard]
  unfold analyseIFrame
  rw [exec_of_bind, hpeek (by omega)]
  simp only [processI, if_pos htype]

variable (env) in
/-- **General interrogation**: the plug-in answers with the confirmation, the two tables, the end
and an S-frame and nothing else. Every I-format frame carries the counters of the state the
frames before it lead to, and the send counter goes on by one for each, round `2^15`. -/
theorem interrogation_answered (f : Frame) (hgi : isGI f) (hlen : 10 ≤ f.length)
    (yxType ycType : ℤ) (hyx : yxType = 0 ∨ yxType = 1)
    (hyc : ycType = 0 ∨ ycType = 1 ∨ ycType = 2 ∨ ycType = 3) (signalNum measureNum : ℕ)
    (h : Answerable env yxType ycType signalNum measureNum) (s : Plug) (hs : s.sendIdx ≤ 32767) :
    ∃ (iFrames : List Frame) (t : Plug), exec (analyseFrame env f) s = (.ok ⟨⟩, t) ∧
      t.log = s.log ++ .analysed s.fd f :: (iFrames ++ [sFrame t.recvIdx]).map (.sent s.fd) ∧
      IsTransaction yxType ycType (signalNum ⌈/⌉ 127) (measureNum ⌈/⌉ 127) iFrames ∧
      (∀ j g, iFrames[j]? = some g → ∃ p, Burst (heard f s) (iFrames.take j) p ∧
        p.sendIdx = (s.sendIdx + j) % 32768 ∧ p.recvIdx = t.recvIdx ∧
        SendsIdx p.sendIdx g ∧ AcksIdx p.recvIdx g) ∧
      t.sendIdx = (s.sendIdx + 2 + signalNum ⌈/⌉ 127 + measureNum ⌈/⌉ 127) % 32768 := by
  obtain ⟨b, hb⟩ := h.printed
  have htype : f.getD 6 0 = cIcNa1 := by
    have := (Bool.and_eq_true _ _ |>.mp hgi).2
    simpa using this
  obtain ⟨iFrames, u, hu, hburst, hparts⟩ := processCIcNa1_burst htype hlen hyx hyc h (heard f s)
  have hidx : (heard f s).sendIdx = s.sendIdx := rfl
  have hcount := hburst.sendIdx (hidx ▸ hs)
  refine ⟨iFrames, { u with log := u.log ++ [.sent u.fd (sFrame u.recvIdx)] }, ?_, ?_, hparts, ?_,
    ?_⟩
  · rw [exec_analyseFrame_gi hgi hlen, exec_bind_ok hu, exec_sendSFrame hb]
  · have hlog : (heard f s).log = s.log ++ [.analysed s.fd f] := rfl
    have hfd : (heard f s).fd = s.fd := rfl
    simp [hburst.log, hburst.fd, hlog, hfd]
  · intro j g hg
    obtain ⟨p, hp, hsends, hacks⟩ := hburst.at hg
    obtain ⟨hj, -⟩ := List.getElem?_eq_some_iff.mp hg
    have hpidx := hp.sendIdx (hidx ▸ hs)
    rw [hidx, List.length_take, min_eq_left hj.le] at hpidx
    exact ⟨p, hp, hpidx, hp.recvIdx.trans hburst.recvIdx.symm, hsends, hacks⟩
  · show u.sendIdx = _
    rw [hcount, hparts.length, hidx, ← Nat.add_assoc, ← Nat.add_assoc]
    rfl

/-- Two signals and a measurement, with the counter going round behind the confirmation. -/
theorem small_tables_answered : ∃ (iFrames : List Frame) (t : Plug),
    exec (analyseFrame (tableEnv 2 1 []) giCommand) { Plug.init with sendIdx := 32767 } =
      (.ok ⟨⟩, t) ∧ IsTransaction 0 0 1 1 iFrames ∧ t.sendIdx = 3 := by
  obtain ⟨iFrames, t, h, -, hparts, -, hidx⟩ := interrogation_answered (tableEnv 2 1 []) giCommand
    rfl (by decide) 0 0 (by decide) (by decide) 2 1
    ⟨⟨false, rfl⟩, ⟨0, rfl⟩, rfl, rfl, rfl, rfl,
      ⟨⟨0, rfl, by decide, by decide⟩, fun _ => ⟨[0, 1], rfl, rfl, fun v _ => ⟨v, rfl⟩⟩⟩,
      ⟨⟨0, rfl, by decide, by decide⟩, fun _ => ⟨[0], rfl, rfl, fun _ _ => ⟨_, rfl⟩⟩⟩⟩
    { Plug.init with sendIdx := 32767 } (le_refl _)
  exact ⟨iFrames, t, h, hparts, hidx⟩

/-- The address of the second segment is no `int`. -/
theorem address_overflows :
    (∀ log, ∃ vecValue, (tableEnv 128 0 [("yxStart", .int 2147483647)]).getTransMultiValue log
      "T" .signal 0 128 = .ok vecValue ∧ vecValue.length = 128) ∧
    ¬ ∃ t, exec (analyseFrame (tableEnv 128 0 [("yxStart", .int 2147483647)]) giCommand)
      Plug.init = (.ok ⟨⟩, t) := by
  refine ⟨fun _ => ⟨_, rfl, rfl⟩, ?_⟩
  rintro ⟨t, h⟩
  have hfault : (exec (analyseFrame (tableEnv 128 0 [("yxStart", .int 2147483647)]) giCommand)
      Plug.init).1.toBool = false := by
    decide +kernel
  rw [h] at hfault
  exact Bool.noConfusion hfault

end DataEngine.TransIEC104
