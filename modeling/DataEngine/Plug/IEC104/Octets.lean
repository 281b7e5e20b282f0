import DataEngine.Plug.IEC104.Segments
import DataEngine.Lib.Watch

/-!
The handlers of the IEC 104 plug-in with the octets they touch.

Each handler is written again with its reads and writes watched. Without the watching it is the
handler as it was.
-/

namespace DataEngine.TransIEC104.Octets

open ConfigParse Lib.Effect Lib.Watch

/-- One octet of a buffer is read or written. -/
structure Access where
  index : ℕ
  size : ℕ

def Access.Inside (a : Access) : Prop := a.index < a.size

abbrev PlugW (α : Type) : Type := Watched Access Fault Plug α

def peek (buf : Frame) (i : ℕ) : PlugW UInt8 :=
  .access ⟨i, buf.length⟩ (TransIEC104.peek buf i)

def poke (buf : Frame) (i : ℕ) (c : UInt8) : PlugW Frame :=
  .access ⟨i, buf.length⟩ (TransIEC104.poke buf i c)

def pokes (buf : Frame) : List (ℕ × UInt8) → PlugW Frame
  | [] => pure buf
  | (i, c) :: ws => do pokes (← poke buf i c) ws

def setAPCI (s : Plug) (len : ℤ) (buf : Frame) : PlugW Frame :=
  pokes buf ([(0, 0x68), (1, octet len 0)] ++ sendField s.sendIdx ++ recvField s.recvIdx)

variable {R V : Type} [Double R] (env : Env R V)

/-! ### Sending -/

def sendUFrame (val : UInt8) : PlugW Frame :=
  pokes (List.replicate 6 0) [(0, 0x68), (1, 0x04), (2, val), (3, 0x00), (4, 0x00), (5, 0x00)]

def sendSFrame : PlugW Unit := do
  let s ← .lift get
  let sendBuf ← pokes (List.replicate 6 0) ([(0, 0x68), (1, 0x04), (2, 0x01), (3, 0x00)] ++
    recvField s.recvIdx)
  .lift (printFrame env "S帧" sendBuf)
  .lift (engineSendFrame sendBuf)

def giFrame (cause : UInt8) (s : Plug) (frameBuf : Frame) : PlugW Frame :=
  pokes frameBuf (sendField s.sendIdx ++ recvField s.recvIdx ++ [(8, cause), (9, 0)])

def sendGIConfim (frameBuf : Frame) : PlugW Unit := do
  let s ← .lift get
  let sendBuf ← giFrame actCon s frameBuf
  .lift (printFrame env "总召唤确认" sendBuf)
  .lift (sendFrame sendBuf)

def sendGIFinish (frameBuf : Frame) : PlugW Unit := do
  let s ← .lift get
  let sendBuf ← giFrame actTerm s frameBuf
  .lift (printFrame env "总召唤结束" sendBuf)
  .lift (sendFrame sendBuf)

def giBuffer (type : MonitorType) (elemLen : ℕ) : PlugW Frame := do
  let addr ← .lift (Prog.of (cfgInt env "commAddr"))
  pokes (List.replicate (apHeadLen + sqMaxNum * elemLen) 0)
    [(6, type.code), (8, introgen), (9, 0), (10, octet addr 0), (11, octet addr 1)]

def giHead (startAddr : ℤ) (k realNum : ℕ) (buf : Frame) : PlugW Frame := do
  let addr ← .lift (Prog.of (intAdd startAddr (k * sqMaxNum)))
  pokes buf [(7, 0x80 ||| .ofNat realNum), (12, octet addr 0), (13, octet addr 1),
    (14, octet addr 2)]

def sendSegments (strType : String) (segment : Plug → ℕ → ℕ → Frame → PlugW Frame)
    (n k num : ℕ) (buf : Frame) : PlugW Unit := do
  let s ← .lift get
  let sendBuf ← segment s k (min sqMaxNum num) buf
  .lift (printFrame env strType sendBuf)
  .lift (sendFrame sendBuf)
  match n with
  | 0 => pure ()
  | n + 1 =>
    if sqMaxNum < num then sendSegments strType segment n (k + 1) (num - sqMaxNum) sendBuf
    else pure ()

def yxSegment (vecValue : List V) (yxStartAddr : ℤ) (s : Plug) (k realNum : ℕ) (buf : Frame) :
    PlugW Frame := do
  let buf ← giHead yxStartAddr k realNum buf
  let buf ← (List.range realNum).foldlM (fun buf i => do
    let v ← .lift (Prog.of (valueAt vecValue (i + k * sqMaxNum)))
    let c ← .lift (Prog.of (env.asUInt8 v))
    poke buf (apHeadLen + i) c) buf
  let buf ← setAPCI s (realNum + 13) buf
  pure (resize (realNum + 15) buf)

def sendGIYx (type : MonitorType) (strType : String) : PlugW Unit := do
  let buf ← giBuffer env type 1
  let signalNum ← .lift (Prog.of (pointNum env "signal"))
  if signalNum = 0 then pure ()
  else
    let s ← .lift get
    let vecValue ← .lift (Prog.of (env.getTransMultiValue s.log env.name .signal 0 signalNum))
    let yxStartAddr ← .lift (Prog.of (cfgInt env "yxStart"))
    sendSegments env strType (yxSegment env vecValue yxStartAddr) (signalNum / sqMaxNum) 0
      signalNum buf

def ycSegment (type : MonitorType) (vecValue : List V) (ycStartAddr : ℤ)
    (byteNum qualityNum : ℕ) (s : Plug) (k realNum : ℕ) (buf : Frame) : PlugW Frame := do
  let buf ← giHead ycStartAddr k realNum buf
  let sum := byteNum + qualityNum
  let buf ← (List.range ((realNum + sum - 1) / sum)).foldlM (fun buf j => do
    let i := j * sum
    let v ← .lift (Prog.of (valueAt vecValue (i + k * sqMaxNum)))
    let value ← .lift (Prog.of (if type = .mMeNc1 then List.ofFn <$> env.floatOctets v
      else List.ofFn <$> env.shortOctets v))
    let buf ← pokes buf ((value.take byteNum).mapIdx fun b c => (apHeadLen + i + b, c))
    if qualityNum ≠ 0 then poke buf (apHeadLen + i + sum) 0 else pure buf) buf
  let buf ← setAPCI s (realNum * sum + 13) buf
  pure (resize (realNum * sum + 15) buf)

def sendGIYc (type : MonitorType) (strType : String) : PlugW Unit := do
  let buf ← giBuffer env type 5
  let measureNum ← .lift (Prog.of (pointNum env "measure"))
  if measureNum = 0 then pure ()
  else
    let s ← .lift get
    let vecValue ← .lift (Prog.of (env.getTransMultiValue s.log env.name .signal 0 measureNum))
    let ycStartAddr ← .lift (Prog.of (cfgInt env "ycStart"))
    let f := fun byteNum qualityNum =>
      sendSegments env strType (ycSegment env type vecValue ycStartAddr byteNum qualityNum)
        (measureNum / sqMaxNum) 0 measureNum buf
    match type with
    | .mMeNc1 => f 4 1
    | .mMeNd1 => f 2 0
    | .mMeNa1 | .mMeNb1 => f 2 1
    | _ => pure ()

/-! ### Commands -/

def sendYx (yxType : ℤ) : PlugW Unit :=
  if yxType = 0 then sendGIYx env .mSpNa1 "总招单点遥信"
  else if yxType = 1 then sendGIYx env .mDpNa1 "总招双点遥信"
  else pure ()

def sendYc (ycType : ℤ) : PlugW Unit :=
  if ycType = 0 then sendGIYc env .mMeNc1 "总招浮点遥测"
  else if ycType = 1 then sendGIYc env .mMeNd1 "总招无品质归一化遥测"
  else if ycType = 2 then sendGIYc env .mMeNa1 "总招有品质归一化遥测"
  else if ycType = 3 then sendGIYc env .mMeNb1 "总招标度化遥测"
  else pure ()

def processCIcNa1 (frameBuf : Frame) : PlugW Unit := do
  .lift (printFrame env "总召唤" frameBuf)
  sendGIConfim env frameBuf
  let yxType ← .lift (Prog.of (cfgInt env "yxType"))
  let ycType ← .lift (Prog.of (cfgInt env "ycType"))
  sendYx env yxType
  sendYc env ycType
  sendGIFinish env frameBuf

def clockFrame (s : Plug) (frameBuf : Frame) : PlugW (Frame × SysTime) := do
  let apduLen ← peek frameBuf 1
  let buf ← setAPCI s apduLen.toNat frameBuf
  let buf ← pokes buf [(8, actCon), (9, 0)]
  let year ← peek buf (apHeadLen + 6)
  let mon ← peek buf (apHeadLen + 5)
  let day ← peek buf (apHeadLen + 4)
  let hour ← peek buf (apHeadLen + 3)
  let min ← peek buf (apHeadLen + 2)
  let hi ← peek buf (apHeadLen + 1)
  let lo ← peek buf apHeadLen
  let sec := (shiftLeft env hi.toNat (8 + lo.toNat)).tdiv 1000
  pure (buf, { env.getSysTime s.log with
    year := year.toNat + 2000, mon := mon.toNat, day := day.toNat, hour := hour.toNat
    min := min.toNat, sec := (sec % 2 ^ 32).toNat })

def processCCsNa1 (frameBuf : Frame) : PlugW Unit := do
  let s ← .lift get
  let (sendBuf, sTime) ← clockFrame env s frameBuf
  .lift (modify fun s => { s with log := s.log ++ [.setSysTime sTime] })
  .lift (printFrame env "时钟同步" sendBuf)
  .lift (engineSendFrame sendBuf)

def processCScNa1 (frameBuf : Frame) : PlugW Unit := do
  let s ← .lift get
  let apduLen ← peek frameBuf 1
  let _ ← setAPCI s apduLen.toNat frameBuf

/-! ### Receiving -/

def processI (type : UInt8) (frameBuf : Frame) : PlugW Unit :=
  if type = cIcNa1 then processCIcNa1 env frameBuf
  else if type = cCsNa1 then processCCsNa1 env frameBuf
  else if type = cScNa1 then processCScNa1 frameBuf
  else pure ()

def analyseIFrame (frameBuf : Frame) : PlugW Unit := do
  let type ← peek frameBuf 6
  processI env type frameBuf
  sendSFrame env

def analyseSFrame (frameBuf : Frame) : PlugW Unit := .lift (printFrame env "S帧" frameBuf)

def uAnswer (ctrlField1 : UInt8) : PlugW (String × Option (String × Frame)) :=
  if ctrlField1 = startdtAct then do
    let response ← sendUFrame startdtCon
    pure ("启动帧激活", some ("启动帧应答", response))
  else if ctrlField1 = testfrAct then do
    let response ← sendUFrame testfrCon
    pure ("测试帧激活", some ("测试帧应答", response))
  else if ctrlField1 = stopdtAct then do
    let response ← sendUFrame stopdtCon
    pure ("停止帧激活", some ("停止帧应答", response))
  else if ctrlField1 = testfrCon then pure ("测试帧应答", none)
  else pure ("", none)

def analyseUFrame (frameBuf : Frame) : PlugW Unit := do
  let ctrlField1 ← peek frameBuf 2
  let (strType, answer) ← uAnswer ctrlField1
  .lift (printFrame env strType frameBuf)
  match answer with
  | none => pure ()
  | some (strType1, response) =>
    .lift (printFrame env strType1 response)
    .lift (engineSendFrame response)

def dispatch (frameBuf : Frame) : PlugW Unit := do
  let ctrlField1 ← peek frameBuf 2
  if ctrlField1 &&& 0x03 = 0x03 then analyseUFrame env frameBuf
  else if ctrlField1 &&& 0x01 = 0x00 then
    .lift (modify fun s => { s with recvIdx := (s.recvIdx + 1) % 65536 })
    analyseIFrame env frameBuf
  else if ctrlField1 = 0x01 then analyseSFrame env frameBuf
  else pure ()

def analyseFrame (frameBuf : Frame) : PlugW Unit := do
  .lift (modify fun s => { s with log := s.log ++ [.analysed s.fd frameBuf] })
  dispatch env frameBuf

/-! ### Without the watching -/

section Forget

omit [Double R]

@[simp] lemma peek_run (buf : Frame) (i : ℕ) :
    (peek buf i).run = Prog.of (TransIEC104.peek buf i) := rfl

@[simp] lemma poke_run (buf : Frame) (i : ℕ) (c : UInt8) :
    (poke buf i c).run = Prog.of (TransIEC104.poke buf i c) := rfl

@[simp] lemma pokes_run (buf : Frame) (ws : List (ℕ × UInt8)) :
    (pokes buf ws).run = Prog.of (TransIEC104.pokes buf ws) := by
  induction ws generalizing buf with
  | nil => rfl
  | cons w ws ih =>
    rw [pokes, TransIEC104.pokes, Watched.run_bind, Prog.of_bind, poke_run]
    exact congrArg _ (funext fun b => ih b)

@[simp] lemma setAPCI_run (s : Plug) (len : ℤ) (buf : Frame) :
    (setAPCI s len buf).run = Prog.of (TransIEC104.setAPCI s len buf) := pokes_run _ _

@[simp] lemma giHead_run (startAddr : ℤ) (k realNum : ℕ) (buf : Frame) :
    (giHead startAddr k realNum buf).run =
      Prog.of (TransIEC104.giHead startAddr k realNum buf) := by
  simp [giHead, TransIEC104.giHead, Prog.of_bind]

@[simp] lemma yxSegment_run (vecValue : List V) (yxStartAddr : ℤ) (s : Plug) (k realNum : ℕ)
    (buf : Frame) : (yxSegment env vecValue yxStartAddr s k realNum buf).run =
      Prog.of (TransIEC104.yxSegment env vecValue yxStartAddr s k realNum buf) := by
  simp [yxSegment, TransIEC104.yxSegment, Prog.of_bind, Prog.of_foldlM, Prog.of_ok,
    Watched.run_foldlM]

@[simp] lemma ycSegment_run (type : MonitorType) (vecValue : List V) (ycStartAddr : ℤ)
    (byteNum qualityNum : ℕ) (s : Plug) (k realNum : ℕ) (buf : Frame) :
    (ycSegment env type vecValue ycStartAddr byteNum qualityNum s k realNum buf).run =
      Prog.of (TransIEC104.ycSegment env type vecValue ycStartAddr byteNum qualityNum s k realNum
        buf) := by
  by_cases htype : type = .mMeNc1 <;> by_cases hq : qualityNum = 0 <;>
    simp [ycSegment, TransIEC104.ycSegment, Prog.of_bind, Prog.of_map, Prog.of_foldlM, Prog.of_ok,
      Watched.run_foldlM, htype, hq]

@[simp] lemma clockFrame_run (s : Plug) (frameBuf : Frame) :
    (clockFrame env s frameBuf).run = Prog.of (TransIEC104.clockFrame env s frameBuf) := by
  simp [clockFrame, TransIEC104.clockFrame, Prog.of_bind, Prog.of_ok]

end Forget

@[simp] lemma sendSFrame_run : (sendSFrame env).run = TransIEC104.sendSFrame env := by
  have hbuf (s : Plug) : TransIEC104.pokes (List.replicate 6 0)
      ([(0, 0x68), (1, 0x04), (2, 0x01), (3, 0x00)] ++ recvField s.recvIdx) =
        .ok [0x68, 0x04, 0x01, 0x00, octet (2 * s.recvIdx) 0, octet s.recvIdx 1] := rfl
  simp only [sendSFrame, TransIEC104.sendSFrame, Watched.run_bind, Watched.run_lift, pokes_run,
    hbuf, Prog.of_ok, pure_bind]

@[simp] lemma sendGIConfim_run (frameBuf : Frame) :
    (sendGIConfim env frameBuf).run = TransIEC104.sendGIConfim env frameBuf := by
  simp [sendGIConfim, TransIEC104.sendGIConfim, giFrame, TransIEC104.giFrame]

@[simp] lemma sendGIFinish_run (frameBuf : Frame) :
    (sendGIFinish env frameBuf).run = TransIEC104.sendGIFinish env frameBuf := by
  simp [sendGIFinish, TransIEC104.sendGIFinish, giFrame, TransIEC104.giFrame]

@[simp] lemma giBuffer_run (type : MonitorType) (elemLen : ℕ) :
    (giBuffer env type elemLen).run = Prog.of (TransIEC104.giBuffer env type elemLen) := by
  simp [giBuffer, TransIEC104.giBuffer, Prog.of_bind]

/-- The segment is sent, and then the rest of the table. -/
lemma sendSegments_eq (strType : String) (segment : Plug → ℕ → ℕ → Frame → PlugW Frame)
    (n k num : ℕ) (buf : Frame) : sendSegments env strType segment n k num buf = (do
      let s ← .lift get
      let sendBuf ← segment s k (min sqMaxNum num) buf
      .lift (printFrame env strType sendBuf)
      .lift (sendFrame sendBuf)
      match n with
      | 0 => pure ()
      | n + 1 =>
        if sqMaxNum < num then
          sendSegments env strType segment n (k + 1) (num - sqMaxNum) sendBuf
        else pure ()) := by
  cases n <;> rfl

lemma sendSegments_run (strType : String) {segment : Plug → ℕ → ℕ → Frame → PlugW Frame}
    {segment' : Plug → ℕ → ℕ → Frame → Except Fault Frame}
    (h : ∀ s k realNum buf, (segment s k realNum buf).run = Prog.of (segment' s k realNum buf))
    (n k num : ℕ) (buf : Frame) :
    (sendSegments env strType segment n k num buf).run =
      TransIEC104.sendSegments env strType segment' n k num buf := by
  induction n generalizing k num buf with
  | zero =>
    rw [sendSegments_eq]
    unfold TransIEC104.sendSegments
    simp only [Watched.run_bind, Watched.run_lift, Watched.run_pure, h]
  | succ n ih =>
    rw [sendSegments_eq]
    unfold TransIEC104.sendSegments
    simp only [Watched.run_bind, Watched.run_lift, Watched.run_ite, Watched.run_pure, h, ih]

@[simp] lemma sendGIYx_run (type : MonitorType) (strType : String) :
    (sendGIYx env type strType).run = TransIEC104.sendGIYx env type strType := by
  simp [sendGIYx, TransIEC104.sendGIYx, sendSegments_run env _ (yxSegment_run env _ _)]

@[simp] lemma sendGIYc_run (type : MonitorType) (strType : String) :
    (sendGIYc env type strType).run = TransIEC104.sendGIYc env type strType := by
  have hsegments (vecValue : List V) (addr : ℤ) (byteNum qualityNum n num : ℕ) (buf : Frame) :=
    sendSegments_run env strType
      (ycSegment_run env type vecValue addr byteNum qualityNum) n 0 num buf
  cases type <;> simp only [sendGIYc, TransIEC104.sendGIYc, Watched.run_bind, Watched.run_lift,
    Watched.run_ite, Watched.run_pure, giBuffer_run, hsegments]

@[simp] lemma processCIcNa1_run (frameBuf : Frame) :
    (processCIcNa1 env frameBuf).run = TransIEC104.processCIcNa1 env frameBuf := by
  simp [processCIcNa1, TransIEC104.processCIcNa1, sendYx, TransIEC104.sendYx, sendYc,
    TransIEC104.sendYc]

@[simp] lemma processCCsNa1_run (frameBuf : Frame) :
    (processCCsNa1 env frameBuf).run = TransIEC104.processCCsNa1 env frameBuf := by
  simp [processCCsNa1, TransIEC104.processCCsNa1]

omit [Double R] in
@[simp] lemma processCScNa1_run (frameBuf : Frame) :
    (processCScNa1 frameBuf).run = TransIEC104.processCScNa1 frameBuf := by
  simp [processCScNa1, TransIEC104.processCScNa1]

@[simp] lemma analyseIFrame_run (frameBuf : Frame) :
    (analyseIFrame env frameBuf).run = TransIEC104.analyseIFrame env frameBuf := by
  simp [analyseIFrame, TransIEC104.analyseIFrame, processI, TransIEC104.processI]

omit [Double R] in
@[simp] lemma uAnswer_run (ctrlField1 : UInt8) :
    (uAnswer ctrlField1).run = pure (TransIEC104.uAnswer ctrlField1) := by
  have hbuf (val : UInt8) : (sendUFrame val).run = pure (TransIEC104.sendUFrame val) := by
    rw [sendUFrame, pokes_run]
    rfl
  unfold uAnswer TransIEC104.uAnswer
  split_ifs <;> simp [hbuf]

@[simp] lemma analyseUFrame_run (frameBuf : Frame) :
    (analyseUFrame env frameBuf).run = TransIEC104.analyseUFrame env frameBuf := by
  simp only [analyseUFrame, TransIEC104.analyseUFrame, Watched.run_bind, Watched.run_lift, peek_run,
    uAnswer_run, pure_bind]
  refine congrArg _ (funext fun c => congrArg _ (funext fun _ => ?_))
  rcases (TransIEC104.uAnswer c).2 with _ | ⟨strType1, response⟩ <;> rfl

/-- **The watched handlers are the handlers.** -/
theorem analyseFrame_run (frameBuf : Frame) :
    (analyseFrame env frameBuf).run = TransIEC104.analyseFrame env frameBuf := by
  simp [analyseFrame, TransIEC104.analyseFrame, dispatch, TransIEC104.dispatch, analyseSFrame,
    TransIEC104.analyseSFrame]

end DataEngine.TransIEC104.Octets
