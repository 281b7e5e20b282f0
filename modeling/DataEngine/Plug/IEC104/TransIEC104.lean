import DataEngine.Config.ConfigParse
import DataEngine.Lib.DoWhile
import DataEngine.Lib.Effect

/-!
The IEC 104 transmit plug-in.

The plug-in serves any number of connections from one set of members. What it is told, what it
analyses and what it sends is recorded in a log, newest event last. The values of points and
the clock come from outside and may be any function of what has happened so far. Buffers are
taken to be shorter than `2^31`, where `int` and `size_t` agree.
-/

namespace DataEngine.TransIEC104

open Json ConfigParse Lib.Effect Lib.DoWhile

abbrev Frame : Type := List UInt8

/-- The two builds differ in whether a plain `char` is signed. -/
inductive Build where
  | x86 | aarch64
  deriving DecidableEq

/-- `int(c)` for a plain `char` -/
def Build.charVal : Build → UInt8 → ℤ
  | .x86, c => if c < 0x80 then c.toNat else c.toNat - 256
  | .aarch64, c => c.toNat

/-- The members of `MONITOR_TYPE104` the plug-in sends. -/
inductive MonitorType where
  | mSpNa1 | mDpNa1 | mMeNa1 | mMeNb1 | mMeNc1 | mMeNd1
  deriving DecidableEq

def MonitorType.code : MonitorType → UInt8
  | .mSpNa1 => 1
  | .mDpNa1 => 3
  | .mMeNa1 => 9
  | .mMeNb1 => 11
  | .mMeNc1 => 13
  | .mMeNd1 => 21

def cScNa1 : UInt8 := 45
def cIcNa1 : UInt8 := 100
def cCsNa1 : UInt8 := 103
def actCon : UInt8 := 7
def actTerm : UInt8 := 10
def introgen : UInt8 := 20
def testfrCon : UInt8 := 0x83
def testfrAct : UInt8 := 0x43
def stopdtCon : UInt8 := 0x23
def stopdtAct : UInt8 := 0x13
def startdtCon : UInt8 := 0x0B
def startdtAct : UInt8 := 0x07
def apHeadLen : ℕ := 15
def sqMaxNum : ℕ := 127

structure SysTime where
  milliSec : ℕ
  sec : ℕ
  min : ℕ
  hour : ℕ
  day : ℕ
  mon : ℕ
  year : ℕ
  wday : ℕ
  deriving DecidableEq

inductive Ev where
  | connect (fd : ℤ)
  | disconnect (fd : ℤ)
  | analysed (fd : ℤ) (frame : Frame)
  | sent (fd : ℤ) (frame : Frame)
  | setSysTime (time : SysTime)
  deriving DecidableEq

/-- What the plug-in finds around it. -/
structure Env (R V : Type) where
  cfg : Config R
  name : String
  /-- the values the engine appends, whatever it answers -/
  getTransMultiValue : List Ev → String → DataType → ℤ → ℤ → Except Fault (List V)
  asUInt8 : V → Except Fault UInt8
  /-- the octets of `asFloat()` -/
  floatOctets : V → Except Fault (Fin 4 → UInt8)
  /-- the octets of `asFloat()` converted to `short` -/
  shortOctets : V → Except Fault (Fin 2 → UInt8)
  getSysTime : List Ev → SysTime
  /-- a shift of an `int` by its width or more -/
  longShift : ℕ → ℕ → ℤ

/-- The members. A connection nobody has heard from has an empty buffer. -/
structure Plug where
  fd : ℤ
  sendIdx : ℕ
  recvIdx : ℕ
  vecFd : Finset ℤ
  mapRecvBuf : ℤ → List UInt8
  log : List Ev

def Plug.init : Plug := ⟨0, 0, 0, ∅, fun _ => [], []⟩

abbrev PlugM (α : Type) : Type := Prog Fault Plug α

/-! ### Octets and frames -/

/-- Octet `j` of a two's complement number. -/
def octet (x : ℤ) (j : ℕ) : UInt8 := .ofNat (x / 256 ^ j % 256).toNat

/-- An octet of a buffer, the terminator included. -/
def peek (buf : Frame) (i : ℕ) : Except Fault UInt8 :=
  if i ≤ buf.length then .ok (buf.getD i 0) else .error .undefined

/-- The terminator may be overwritten by itself only. -/
def poke (buf : Frame) (i : ℕ) (c : UInt8) : Except Fault Frame :=
  if i < buf.length then .ok (buf.set i c)
  else if i = buf.length ∧ c = 0 then .ok buf
  else .error .undefined

def pokes (buf : Frame) : List (ℕ × UInt8) → Except Fault Frame
  | [] => .ok buf
  | (i, c) :: ws => do pokes (← poke buf i c) ws

def resize (n : ℕ) (buf : Frame) : Frame := buf.take n ++ List.replicate (n - buf.length) 0

def valueAt {V : Type} (vecValue : List V) (i : ℕ) : Except Fault V :=
  match vecValue[i]? with
  | some v => .ok v
  | none => .error .undefined

/-- Octets 2 and 3 of an I-format frame. -/
def sendField (sendIdx : ℕ) : List (ℕ × UInt8) :=
  [(2, octet (2 * sendIdx) 0), (3, octet sendIdx 1)]

/-- Octets 4 and 5 of an S-format or I-format frame. -/
def recvField (recvIdx : ℕ) : List (ℕ × UInt8) :=
  [(4, octet (2 * recvIdx) 0), (5, octet recvIdx 1)]

def setAPCI (s : Plug) (len : ℤ) (buf : Frame) : Except Fault Frame :=
  pokes buf ([(0, 0x68), (1, octet len 0)] ++ sendField s.sendIdx ++ recvField s.recvIdx)

variable {R V : Type} [Double R] (env : Env R V)

/-- `m_cfgPoint`, as `init` leaves it -/
def cfgPoint : Value R := (getTransCfg env.cfg env.name .pointTable).getD .null

/-- `m_cfgValue`, as `init` leaves it -/
def cfgValue : Value R := ((getTransCfg env.cfg env.name .protocol).getD .null).get "param"

/-- `m_cfgValue[key].asInt()` -/
def cfgInt (key : String) : Except Fault ℤ := do (← (cfgValue env).member key).asInt

/-- `m_cfgPoint["param"][section].size()` -/
def pointNum (sec : String) : Except Fault ℕ := do
  .ok (← (← (cfgPoint env).member "param").member sec).size

/-- Whether frames are printed is looked up for every frame; what is printed is left out. -/
def printFrame (_strType : String) (_frameBuf : Frame) : PlugM Unit := do
  let _ ← Prog.of (bPrintFrame env.cfg env.name)

/-- `sendFrame` of the engine, to the connection being handled -/
def engineSendFrame (sendBuf : Frame) : PlugM Unit :=
  modify fun s => { s with log := s.log ++ [.sent s.fd sendBuf] }

/-! ### Sending -/

def nextSendIdx (sendIdx : ℕ) : ℕ :=
  if (sendIdx + 1) % 65536 > 32767 then 0 else (sendIdx + 1) % 65536

def increaseSendIdx : PlugM Unit := modify fun s => { s with sendIdx := nextSendIdx s.sendIdx }

def sendFrame (sendBuf : Frame) : PlugM Unit := do
  engineSendFrame sendBuf
  increaseSendIdx

def sendUFrame (val : UInt8) : Frame := [0x68, 0x04, val, 0x00, 0x00, 0x00]

def sendSFrame : PlugM Unit := do
  let s ← get
  let sendBuf := [0x68, 0x04, 0x01, 0x00, octet (2 * s.recvIdx) 0, octet s.recvIdx 1]
  printFrame env "S帧" sendBuf
  engineSendFrame sendBuf

/-- The received frame with its counters and its cause rewritten. -/
def giFrame (cause : UInt8) (s : Plug) (frameBuf : Frame) : Except Fault Frame :=
  pokes frameBuf (sendField s.sendIdx ++ recvField s.recvIdx ++ [(8, cause), (9, 0)])

def sendGIConfim (frameBuf : Frame) : PlugM Unit := do
  let sendBuf ← Prog.of (giFrame actCon (← get) frameBuf)
  printFrame env "总召唤确认" sendBuf
  sendFrame sendBuf

def sendGIFinish (frameBuf : Frame) : PlugM Unit := do
  let sendBuf ← Prog.of (giFrame actTerm (← get) frameBuf)
  printFrame env "总召唤结束" sendBuf
  sendFrame sendBuf

/-- The buffer a table is sent from, with the parts that do not change. -/
def giBuffer (type : MonitorType) (elemLen : ℕ) : Except Fault Frame := do
  let addr ← cfgInt env "commAddr"
  pokes (List.replicate (apHeadLen + sqMaxNum * elemLen) 0)
    [(6, type.code), (8, introgen), (9, 0), (10, octet addr 0), (11, octet addr 1)]

/-- The count and the address of the `k`-th segment of a table. -/
def giHead (startAddr : ℤ) (k realNum : ℕ) (buf : Frame) : Except Fault Frame := do
  let addr ← intAdd startAddr (k * sqMaxNum)
  pokes buf [(7, 0x80 ||| .ofNat realNum), (12, octet addr 0), (13, octet addr 1),
    (14, octet addr 2)]

/-- A table in segments of at most `sqMaxNum` points: `segment` rewrites the buffer for one. -/
def sendSegments (strType : String) (segment : Plug → ℕ → ℕ → Frame → Except Fault Frame)
    (n k num : ℕ) (buf : Frame) : PlugM Unit := do
  let sendBuf ← Prog.of (segment (← get) k (min sqMaxNum num) buf)
  printFrame env strType sendBuf
  sendFrame sendBuf
  match n with
  | 0 => pure ()
  | n + 1 =>
    if sqMaxNum < num then sendSegments strType segment n (k + 1) (num - sqMaxNum) sendBuf
    else pure ()

def yxSegment (vecValue : List V) (yxStartAddr : ℤ) (s : Plug) (k realNum : ℕ) (buf : Frame) :
    Except Fault Frame := do
  let buf ← giHead yxStartAddr k realNum buf
  let buf ← (List.range realNum).foldlM (fun buf i => do
    poke buf (apHeadLen + i) (← env.asUInt8 (← valueAt vecValue (i + k * sqMaxNum)))) buf
  let buf ← setAPCI s (realNum + 13) buf
  .ok (resize (realNum + 15) buf)

def sendGIYx (type : MonitorType) (strType : String) : PlugM Unit := do
  let buf ← Prog.of (giBuffer env type 1)
  let signalNum ← Prog.of (pointNum env "signal")
  if signalNum = 0 then pure ()
  else
    let vecValue ← Prog.of (env.getTransMultiValue (← get).log env.name .signal 0 signalNum)
    let yxStartAddr ← Prog.of (cfgInt env "yxStart")
    sendSegments env strType (yxSegment env vecValue yxStartAddr) (signalNum / sqMaxNum) 0
      signalNum buf

/-- The index of an element advances by the length of an element here. -/
def ycSegment (type : MonitorType) (vecValue : List V) (ycStartAddr : ℤ)
    (byteNum qualityNum : ℕ) (s : Plug) (k realNum : ℕ) (buf : Frame) : Except Fault Frame := do
  let buf ← giHead ycStartAddr k realNum buf
  let sum := byteNum + qualityNum
  let buf ← (List.range ((realNum + sum - 1) / sum)).foldlM (fun buf j => do
    let i := j * sum
    let v ← valueAt vecValue (i + k * sqMaxNum)
    let value ← if type = .mMeNc1 then List.ofFn <$> env.floatOctets v
      else List.ofFn <$> env.shortOctets v
    let buf ← pokes buf ((value.take byteNum).mapIdx fun b c => (apHeadLen + i + b, c))
    if qualityNum ≠ 0 then poke buf (apHeadLen + i + sum) 0 else .ok buf) buf
  let buf ← setAPCI s (realNum * sum + 13) buf
  .ok (resize (realNum * sum + 15) buf)

def sendGIYc (type : MonitorType) (strType : String) : PlugM Unit := do
  let buf ← Prog.of (giBuffer env type 5)
  let measureNum ← Prog.of (pointNum env "measure")
  if measureNum = 0 then pure ()
  else
    -- the values asked for are those of the signal table
    let vecValue ← Prog.of (env.getTransMultiValue (← get).log env.name .signal 0 measureNum)
    let ycStartAddr ← Prog.of (cfgInt env "ycStart")
    let f := fun byteNum qualityNum =>
      sendSegments env strType (ycSegment env type vecValue ycStartAddr byteNum qualityNum)
        (measureNum / sqMaxNum) 0 measureNum buf
    match type with
    | .mMeNc1 => f 4 1
    | .mMeNd1 => f 2 0
    | .mMeNa1 | .mMeNb1 => f 2 1
    | _ => pure ()

/-! ### Commands -/

/-- The switch on `yxType` -/
def sendYx (yxType : ℤ) : PlugM Unit :=
  if yxType = 0 then sendGIYx env .mSpNa1 "总招单点遥信"
  else if yxType = 1 then sendGIYx env .mDpNa1 "总招双点遥信"
  else pure ()

/-- The switch on `ycType` -/
def sendYc (ycType : ℤ) : PlugM Unit :=
  if ycType = 0 then sendGIYc env .mMeNc1 "总招浮点遥测"
  else if ycType = 1 then sendGIYc env .mMeNd1 "总招无品质归一化遥测"
  else if ycType = 2 then sendGIYc env .mMeNa1 "总招有品质归一化遥测"
  else if ycType = 3 then sendGIYc env .mMeNb1 "总招标度化遥测"
  else pure ()

def processCIcNa1 (frameBuf : Frame) : PlugM Unit := do
  printFrame env "总召唤" frameBuf
  sendGIConfim env frameBuf
  let yxType ← Prog.of (cfgInt env "yxType")
  let ycType ← Prog.of (cfgInt env "ycType")
  sendYx env yxType
  sendYc env ycType
  sendGIFinish env frameBuf

/-- `a << b` -/
def shiftLeft (a b : ℕ) : ℤ := if b < 32 then Int.bmod (a * 2 ^ b) (2 ^ 32) else env.longShift a b

/-- The confirmation of a clock command and the time it sets. -/
def clockFrame (s : Plug) (frameBuf : Frame) : Except Fault (Frame × SysTime) := do
  let apduLen ← peek frameBuf 1
  let buf ← setAPCI s apduLen.toNat frameBuf
  let buf ← pokes buf [(8, actCon), (9, 0)]
  let year ← peek buf (apHeadLen + 6)
  let mon ← peek buf (apHeadLen + 5)
  let day ← peek buf (apHeadLen + 4)
  let hour ← peek buf (apHeadLen + 3)
  let min ← peek buf (apHeadLen + 2)
  let hi ← peek buf (apHeadLen + 1)
  let lo ← peek buf apHeadLen
  -- the source writes `data[1] << 8 + data[0]`
  let sec := (shiftLeft env hi.toNat (8 + lo.toNat)).tdiv 1000
  .ok (buf, { env.getSysTime s.log with
    year := year.toNat + 2000, mon := mon.toNat, day := day.toNat, hour := hour.toNat
    min := min.toNat, sec := (sec % 2 ^ 32).toNat })

/-- The confirmation is sent past `sendFrame`. -/
def processCCsNa1 (frameBuf : Frame) : PlugM Unit := do
  let (sendBuf, sTime) ← Prog.of (clockFrame env (← get) frameBuf)
  modify fun s => { s with log := s.log ++ [.setSysTime sTime] }
  printFrame env "时钟同步" sendBuf
  engineSendFrame sendBuf

/-- The buffer is written and dropped. -/
def processCScNa1 (frameBuf : Frame) : PlugM Unit := do
  let s ← get
  let apduLen ← Prog.of (peek frameBuf 1)
  let _ ← Prog.of (setAPCI s apduLen.toNat frameBuf)

/-! ### Receiving -/

/-- The switch of `analyseIFrame` -/
def processI (type : UInt8) (frameBuf : Frame) : PlugM Unit :=
  if type = cIcNa1 then processCIcNa1 env frameBuf
  else if type = cCsNa1 then processCCsNa1 env frameBuf
  else if type = cScNa1 then processCScNa1 frameBuf
  else pure ()

def analyseIFrame (frameBuf : Frame) : PlugM Unit := do
  let type ← Prog.of (peek frameBuf 6)
  processI env type frameBuf
  sendSFrame env

def analyseSFrame (frameBuf : Frame) : PlugM Unit := printFrame env "S帧" frameBuf

/-- What a U-format frame is printed as, what answers it, and what the answer is printed as. -/
def uAnswer (ctrlField1 : UInt8) : String × Option (String × Frame) :=
  if ctrlField1 = startdtAct then ("启动帧激活", some ("启动帧应答", sendUFrame startdtCon))
  else if ctrlField1 = testfrAct then ("测试帧激活", some ("测试帧应答", sendUFrame testfrCon))
  else if ctrlField1 = stopdtAct then ("停止帧激活", some ("停止帧应答", sendUFrame stopdtCon))
  else if ctrlField1 = testfrCon then ("测试帧应答", none)
  else ("", none)

def analyseUFrame (frameBuf : Frame) : PlugM Unit := do
  let ctrlField1 ← Prog.of (peek frameBuf 2)
  printFrame env (uAnswer ctrlField1).1 frameBuf
  match (uAnswer ctrlField1).2 with
  | none => pure ()
  | some (strType1, response) =>
    printFrame env strType1 response
    engineSendFrame response

/-- The dispatch of `analyseFrame` -/
def dispatch (frameBuf : Frame) : PlugM Unit := do
  let ctrlField1 ← Prog.of (peek frameBuf 2)
  if ctrlField1 &&& 0x03 = 0x03 then analyseUFrame env frameBuf
  else if ctrlField1 &&& 0x01 = 0x00 then
    modify fun s => { s with recvIdx := (s.recvIdx + 1) % 65536 }
    analyseIFrame env frameBuf
  else if ctrlField1 = 0x01 then analyseSFrame env frameBuf
  else pure ()

/-- The call is recorded. -/
def analyseFrame (frameBuf : Frame) : PlugM Unit := do
  modify fun s => { s with log := s.log ++ [.analysed s.fd frameBuf] }
  dispatch env frameBuf

/-- The verdict on a buffer, and `validLen` as it is left. -/
def fixFrame (build : Build) (buf : Frame) (len validLen : ℤ) : FixFrameValue × ℤ :=
  if buf.getD 0 0 ≠ 0x68 then (.invalid, validLen)
  else if len < 2 then (.incomplete, validLen)
  else
    let frameLen := build.charVal (buf.getD 1 0) + 2
    if len < frameLen then (.incomplete, validLen) else (.complete, frameLen)

/-- An `int` passed as a `size_t`. -/
def toSize (n : ℤ) : ℕ := (n % 2 ^ 64).toNat

/-- What handling a message comes to. -/
abbrev Outcome : Type := Except Fault Unit × Plug

def setBuf (s : Plug) (fd : ℤ) (buf : List UInt8) : Plug :=
  { s with mapRecvBuf := Function.update s.mapRecvBuf fd buf }

/-- One pass of the loop of `handleMessage`. -/
def handlePass (build : Build) (fd : ℤ) (s : Plug) : Pass Plug Outcome :=
  let recvBuf := s.mapRecvBuf fd
  match fixFrame build recvBuf recvBuf.length 0 with
  | (.incomplete, _) => .leave (.ok (), s)
  | (.invalid, _) => .leave (.ok (), setBuf s fd [])
  | (.complete, validLen) =>
    let frameBuf := recvBuf.take (toSize validLen)
    match exec (analyseFrame env frameBuf) (setBuf s fd (recvBuf.drop (toSize validLen))) with
    | (.error e, t) => .leave (.error e, t)
    | (.ok _, t) => if (t.mapRecvBuf fd).isEmpty then .leave (.ok (), t) else .again t

/-- What `handleMessage` does before its loop. -/
def receive (fd : ℤ) (chunk : List UInt8) (s : Plug) : Plug :=
  { setBuf s fd (s.mapRecvBuf fd ++ chunk) with fd := fd }

/-- `handleMessage` ends with an outcome. -/
def HandleMessage (build : Build) (fd : ℤ) (chunk : List UInt8) (s : Plug) (o : Outcome) : Prop :=
  Leaves (handlePass env build fd) (receive fd chunk s) o

inductive ConnectStatus where
  | connect | disconnect

def newConnectedFunc (status : ConnectStatus) (fd : ℤ) (s : Plug) : Plug :=
  match status with
  | .connect => { s with vecFd := insert fd s.vecFd, log := s.log ++ [.connect fd] }
  | .disconnect => { s with vecFd := s.vecFd.erase fd, log := s.log ++ [.disconnect fd] }

end DataEngine.TransIEC104
