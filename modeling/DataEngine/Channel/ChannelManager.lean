import DataEngine.Config.ConfigParse
import DataEngine.Lib.Effect
import DataEngine.Tool.Tool

/-!
The channels that are created at start-up.

A channel is opened from the configuration of a task and serves the names of its content. The
manager knows a channel by its place among those created. A pointer that may be null is an
`Option`, and using a null one is one of the ways in which start-up ends.
-/

namespace DataEngine.ChannelManager

open Json ConfigParse Tool Lib.Effect

/-- How start-up ends before it is done. -/
inductive Halt where
  | raised (f : Fault)
  | nullPointer
  deriving DecidableEq

def raise {α : Type} : Except Fault α → Except Halt α
  | .ok a => .ok a
  | .error f => .error (.raised f)

/-- A channel object; `msgHandle` is null until `init` has made the handle, which is given the
name of the channel and that of the task. -/
structure IChannel where
  channelName : String
  msgHandle : Option (String × String)
  deriving DecidableEq

variable {R : Type} [Double R]

/-- `CRS485Channel::init`; `serialType` is the configuration of that name. -/
def initRS485 (cfg : Config R) (serialType content : Value R) : Except Fault IChannel := do
  match ← getTypeParamCfg cfg "RS-485" .channel "comName" with
  | none => .ok ⟨"", none⟩
  | some param =>
    let nameValue ← (← content.member "comName").asInt
    let nameRange ← (← param.member "range").asString
    let result := splitStr '#' nameRange.toList
    if 0 ≤ nameValue ∧ nameValue < result.length then
      let comName := String.ofList (result.getD nameValue.toNat [])
      let realName := "/dev/" ++ (← (← (← serialType.member "RS-485").member comName).asString)
      let _ ← (← content.member "baudrate").asInt
      let _ ← (← content.member "databits").asInt
      let _ ← (← content.member "parity").asInt
      let _ ← (← content.member "stopbits").asInt
      let taskName ← (← content.member "taskName").asString
      .ok ⟨"RS-485:" ++ realName, some ("RS-485:" ++ realName, taskName)⟩
    else .error .undefined

/-- `CTCPServerChannel::init` -/
def initTCPServer (content : Value R) : Except Fault IChannel := do
  let localIP ← (← content.member "localIP").asString
  let localPort ← (← content.member "localPort").asInt
  let _ ← (← content.member "remoteIP").asString
  let taskName ← (← content.member "taskName").asString
  let channelName := "TCPSrv#" ++ localIP ++ ":" ++ toString localPort
  .ok ⟨channelName, some (channelName, taskName)⟩

/-- `CTCPClientChannel::init` -/
def initTCPClient (content : Value R) : Except Fault IChannel := do
  let remotePort ← (← content.member "remotePort").asInt
  let remoteIP ← (← content.member "remoteIP").asString
  let taskName ← (← content.member "taskName").asString
  let channelName := "TCPCli#" ++ remoteIP ++ ":" ++ toString remotePort
  .ok ⟨channelName, some (channelName, taskName)⟩

/-- `CUDPChannel::init` -/
def initUDP (content : Value R) : Except Fault IChannel := do
  let _ ← (← content.member "localIP").asString
  let _ ← (← content.member "localPort").asInt
  let remotePort ← (← content.member "remotePort").asInt
  let remoteIP ← (← content.member "remoteIP").asString
  let taskName ← (← content.member "taskName").asString
  let channelName := "UDP#" ++ remoteIP ++ ":" ++ toString remotePort
  .ok ⟨channelName, some (channelName, taskName)⟩

/-- The kinds of channel there is a class for. -/
inductive Kind where
  | rs485 | tcpServer | tcpClient | udp
  deriving DecidableEq

/-- `none` if the type is not known; otherwise the pointer, which may be null. -/
def createChannelPtr (strType : String) : Option (Option Kind) :=
  if strType = "RS-485" then some (some .rs485)
  else if strType = "RS-232" then some none
  else if strType = "TCPServer" then some (some .tcpServer)
  else if strType = "TCPClient" then some (some .tcpClient)
  else if strType = "UDP" then some (some .udp)
  else none

def Kind.init (cfg : Config R) (serialType content : Value R) : Kind → Except Fault IChannel
  | .rs485 => initRS485 cfg serialType content
  | .tcpServer => initTCPServer content
  | .tcpClient => initTCPClient content
  | .udp => initUDP content

variable (cfg : Config R) (serialType : Value R)

/-- Whether an entry of the channel configuration has both its parts. -/
def isComplete (cfgChannel : Value R) : Except Fault Bool := do
  .ok ((← cfgChannel.isMember "template") && (← cfgChannel.isMember "content"))

def strTypeOf (cfgChannel : Value R) : Except Fault String := do
  (← cfgChannel.member "template").asString

/-- The names the channel of an entry is to serve. -/
def namesOf (cfgChannel : Value R) : Except Fault (List String) := do
  (← indexed (← cfgChannel.member "names")).mapM Value.asString

def openKind (cfgChannel : Value R) (kind : Kind) :
    Except Halt (Option (IChannel × List String)) := do
  let channel ← raise (do kind.init cfg serialType (← cfgChannel.member "content"))
  -- `attachDealMsg` goes through the handle
  if channel.msgHandle = none then .error .nullPointer
  else .ok (some (channel, ← raise (namesOf cfgChannel)))

def openType (cfgChannel : Value R) (strType : String) :
    Except Halt (Option (IChannel × List String)) :=
  if strType = "" then .ok none
  else
    match createChannelPtr strType with
    | none => .ok none
    | some none => .error .nullPointer
    | some (some kind) => openKind cfg serialType cfgChannel kind

/-- The channel an entry asks for, if any, with its names. -/
def openChannel (cfgChannel : Value R) : Except Halt (Option (IChannel × List String)) := do
  if !(← raise (isComplete cfgChannel)) then .ok none
  else openType cfg serialType cfgChannel (← raise (strTypeOf cfgChannel))

structure Manager where
  mapChannel : Map String ℕ
  vecChannel : List IChannel

def Manager.add (m : Manager) : Option (IChannel × List String) → Manager
  | none => m
  | some (channel, names) =>
    ⟨names.foldl (fun map name => map.insert name m.vecChannel.length) m.mapChannel,
      m.vecChannel ++ [channel]⟩

def createChannel (vecCfgChannel : List (Value R)) : Except Halt Manager := do
  let opened ← vecCfgChannel.mapM (openChannel cfg serialType)
  return opened.foldl Manager.add ⟨∅, []⟩

/-- The pointer of a name that has none is created as null. -/
def getChannelName (m : Manager) (devName : String) : Except Halt String :=
  match m.mapChannel[devName]? >>= fun i => m.vecChannel[i]? with
  | none => .error .nullPointer
  | some channel => .ok channel.channelName

/-! ### Null pointers -/

lemma raise_eq_ok {α : Type} {x : Except Fault α} {a : α} : raise x = .ok a ↔ x = .ok a := by
  cases x <;> simp [raise]

lemma raise_ne_null {α : Type} (x : Except Fault α) : raise x ≠ .error .nullPointer := by
  cases x <;> simp [raise]

lemma raise_bind_null {α β : Type} {x : Except Fault α} {f : α → Except Halt β} :
    (raise x >>= f) = .error .nullPointer ↔ ∃ a, x = .ok a ∧ f a = .error .nullPointer := by
  rw [bind_eq_error, or_iff_right (raise_ne_null x)]
  simp only [raise_eq_ok]

variable {cfg serialType}

/-- A channel has its handle after `init`, unless it is a serial one without a parameter for its
port. -/
lemma Kind.init_msgHandle {content : Value R} {kind : Kind} {channel : IChannel}
    (h : kind.init cfg serialType content = .ok channel) :
    channel.msgHandle = none ↔
      kind = .rs485 ∧ getTypeParamCfg cfg "RS-485" .channel "comName" = .ok none := by
  cases kind with
  | rs485 =>
    rw [and_iff_right rfl]
    obtain ⟨param, hparam, h⟩ := bind_eq_ok.mp h
    rw [hparam]
    cases param with
    | none =>
      obtain rfl := Except.ok.inj h
      simp
    | some param =>
      repeat obtain ⟨_, _, h⟩ := bind_eq_ok.mp h
      dsimp only at h
      split_ifs at h
      repeat obtain ⟨_, _, h⟩ := bind_eq_ok.mp h
      obtain rfl := Except.ok.inj h
      simp
  | _ =>
    unfold init at h
    repeat obtain ⟨_, _, h⟩ := bind_eq_ok.mp h
    obtain rfl := Except.ok.inj h
    simp

/-- The types of channel there is a class for. -/
def classes : List String := ["RS-485", "TCPServer", "TCPClient", "UDP"]

lemma createChannelPtr_null {strType : String} :
    createChannelPtr strType = some none ↔ strType = "RS-232" := by
  unfold createChannelPtr
  split_ifs <;> simp_all

lemma createChannelPtr_rs485 {strType : String} :
    createChannelPtr strType = some (some .rs485) ↔ strType = "RS-485" := by
  unfold createChannelPtr
  split_ifs <;> simp_all

lemma createChannelPtr_class {strType : String} :
    (∃ kind, createChannelPtr strType = some (some kind)) ↔ strType ∈ classes := by
  unfold createChannelPtr classes
  split_ifs <;> simp_all

variable (cfg) in
/-- An entry that is opened through a null pointer: of a type that has no class, or of a serial
channel whose template has no parameter for the port. -/
def NullChannel (cfgChannel : Value R) : Prop :=
  isComplete cfgChannel = .ok true ∧ ∃ strType, strTypeOf cfgChannel = .ok strType ∧
    (strType = "RS-232" ∨
      strType = "RS-485" ∧ getTypeParamCfg cfg "RS-485" .channel "comName" = .ok none)

/-- An entry of a type that there is a class for, among whose names is `name`. -/
def Offers (cfgChannel : Value R) (name : String) : Prop :=
  isComplete cfgChannel = .ok true ∧ (∃ strType ∈ classes, strTypeOf cfgChannel = .ok strType) ∧
    ∃ names, namesOf cfgChannel = .ok names ∧ name ∈ names

lemma openChannel_of_complete {c : Value R} (h : isComplete c = .ok true) {strType : String}
    (ht : strTypeOf c = .ok strType) :
    openChannel cfg serialType c = openType cfg serialType c strType := by
  simp only [openChannel, h, ht, raise]
  rfl

omit [Double R] in
lemma member_of_complete {c : Value R} (h : isComplete c = .ok true) :
    ∃ content, c.member "content" = .ok content := by
  cases c with
  | object ms => exact ⟨_, if_pos rfl⟩
  | _ => simp [isComplete, Value.isMember, bind, Except.bind] at h

lemma openKind_null {c : Value R} (h : isComplete c = .ok true) {kind : Kind} :
    openKind cfg serialType c kind = .error .nullPointer ↔
      kind = .rs485 ∧ getTypeParamCfg cfg "RS-485" .channel "comName" = .ok none := by
  unfold openKind
  rw [raise_bind_null]
  constructor
  · rintro ⟨channel, hinit, hnull⟩
    obtain ⟨content, -, hinit⟩ := bind_eq_ok.mp hinit
    rw [← Kind.init_msgHandle hinit]
    by_contra hhandle
    rw [if_neg hhandle, raise_bind_null] at hnull
    obtain ⟨names, -, hnull⟩ := hnull
    cases hnull
  · rintro ⟨rfl, hparam⟩
    obtain ⟨content, hcontent⟩ := member_of_complete h
    refine ⟨⟨"", none⟩, ?_, if_pos rfl⟩
    rw [hcontent]
    simp only [bind, Except.bind, Kind.init, initRS485, hparam]

lemma openType_null {c : Value R} (h : isComplete c = .ok true) {strType : String} :
    openType cfg serialType c strType = .error .nullPointer ↔
      strType = "RS-232" ∨
        strType = "RS-485" ∧ getTypeParamCfg cfg "RS-485" .channel "comName" = .ok none := by
  rw [← createChannelPtr_null, ← createChannelPtr_rs485]
  unfold openType
  split_ifs with he
  · subst he
    simp [createChannelPtr]
  rcases createChannelPtr strType with _ | _ | kind
  · simp
  · simp
  · simpa using openKind_null h

lemma openChannel_null {c : Value R} :
    openChannel cfg serialType c = .error .nullPointer ↔ NullChannel cfg c := by
  constructor
  · intro h
    obtain ⟨b, hb, h⟩ := raise_bind_null.mp h
    cases b with
    | false => cases h
    | true =>
      obtain ⟨strType, ht, h⟩ := raise_bind_null.mp h
      exact ⟨hb, strType, ht, (openType_null hb).mp h⟩
  · rintro ⟨hb, strType, ht, h⟩
    rw [openChannel_of_complete hb ht]
    exact (openType_null hb).mpr h

/-- An entry that is opened has a channel if there is a class for its type. -/
lemma openType_ok {c : Value R} {strType : String} {x : Option (IChannel × List String)}
    (h : openType cfg serialType c strType = .ok x) :
    x = none ∧ strType ∉ classes ∨
      ∃ channel names, x = some (channel, names) ∧ strType ∈ classes ∧ namesOf c = .ok names := by
  rw [← createChannelPtr_class]
  unfold openType at h
  split_ifs at h with he
  · subst he
    exact .inl ⟨(Except.ok.inj h).symm, by simp [createChannelPtr]⟩
  rcases hptr : createChannelPtr strType with _ | _ | kind <;> rw [hptr] at h
  · exact .inl ⟨(Except.ok.inj h).symm, by simp⟩
  · cases h
  · obtain ⟨channel, -, h⟩ := bind_eq_ok.mp h
    split_ifs at h
    obtain ⟨names, hnames, h⟩ := bind_eq_ok.mp h
    exact .inr ⟨channel, names, (Except.ok.inj h).symm, ⟨kind, rfl⟩, raise_eq_ok.mp hnames⟩

/-- The names an opened entry is put down for. -/
lemma openChannel_offers {c : Value R} {x : Option (IChannel × List String)}
    (h : openChannel cfg serialType c = .ok x) (name : String) :
    (∃ channel names, x = some (channel, names) ∧ name ∈ names) ↔ Offers c name := by
  obtain ⟨b, hb, h⟩ := bind_eq_ok.mp h
  rw [raise_eq_ok] at hb
  cases b with
  | false =>
    obtain rfl := Except.ok.inj h
    simp [Offers, hb]
  | true =>
    obtain ⟨strType, ht, h⟩ := bind_eq_ok.mp h
    rw [raise_eq_ok] at ht
    obtain ⟨rfl, hclass⟩ | ⟨channel, names, rfl, hclass, hnames⟩ := openType_ok h
    · simp [Offers, ht, hclass]
    · simp [Offers, hb, ht, hclass, hnames]

/-- A name has the channel of the last entry that is put down for it. -/
lemma channel_of_opened (opened : List (Option (IChannel × List String))) (name : String) :
    (∃ i, (opened.foldl Manager.add ⟨∅, []⟩).mapChannel[name]? = some i) ↔
      ∃ channel names, some (channel, names) ∈ opened ∧ name ∈ names := by
  induction opened using List.reverseRecOn with
  | nil => simp
  | append_singleton opened x ih =>
    rw [List.foldl_append, List.foldl_cons, List.foldl_nil]
    rcases x with _ | ⟨channel, names⟩
    · simpa [Manager.add] using ih
    · simp only [Manager.add, Map.getElem?_foldl_insert]
      by_cases hn : name ∈ names
      · simp only [hn, if_true, Option.some.injEq, exists_eq', true_iff]
        exact ⟨channel, names, by simp, hn⟩
      · simp only [hn, if_false, ih, List.mem_append, List.mem_singleton]
        constructor
        · rintro ⟨ch, ns, hmem, hname⟩
          exact ⟨ch, ns, .inl hmem, hname⟩
        · rintro ⟨ch, ns, hmem | heq, hname⟩
          · exact ⟨ch, ns, hmem, hname⟩
          · obtain ⟨-, rfl⟩ := Prod.mk.inj (Option.some.inj heq)
            exact absurd hname hn

/-- The manager knows the channels it has pointers to. -/
lemma channel_lt (opened : List (Option (IChannel × List String))) {name : String} {i : ℕ}
    (h : (opened.foldl Manager.add ⟨∅, []⟩).mapChannel[name]? = some i) :
    i < (opened.foldl Manager.add ⟨∅, []⟩).vecChannel.length := by
  induction opened using List.reverseRecOn with
  | nil => simp at h
  | append_singleton opened x ih =>
    rw [List.foldl_append, List.foldl_cons, List.foldl_nil] at h ⊢
    rcases x with _ | ⟨channel, names⟩
    · exact ih h
    · simp only [Manager.add, Map.getElem?_foldl_insert, List.length_append,
        List.length_singleton] at h ⊢
      split_ifs at h with hn
      · obtain rfl := Option.some.inj h
        omega
      · exact (ih h).trans (Nat.lt_succ_self _)

lemma offered_iff {cs : List (Value R)} {opened : List (Option (IChannel × List String))}
    (h : List.Forall₂ (fun c x => openChannel cfg serialType c = .ok x) cs opened)
    (name : String) :
    (∃ channel names, some (channel, names) ∈ opened ∧ name ∈ names) ↔
      ∃ c ∈ cs, Offers c name := by
  induction h with
  | nil => simp
  | cons hx _ ih =>
    simp only [List.mem_cons, or_and_right, exists_or, exists_eq_left, ih]
    refine or_congr_left ?_
    rw [← openChannel_offers hx name]
    simp only [eq_comm]

variable (cfg serialType) in
/-- The entry is opened, or passed over, with no exception and no null pointer. -/
def Opens (cfgChannel : Value R) : Prop := ∃ x, openChannel cfg serialType cfgChannel = .ok x

/-- **The channels of the names**: a name has a channel exactly if some entry offers one. -/
lemma getChannelName_null {cs : List (Value R)} {m : Manager}
    (h : createChannel cfg serialType cs = .ok m) (name : String) :
    getChannelName m name = .error .nullPointer ↔ ¬ ∃ c ∈ cs, Offers c name := by
  obtain ⟨opened, hopened, h⟩ := bind_eq_ok.mp h
  obtain rfl := Except.ok.inj h
  rw [mapM_eq_ok] at hopened
  have hname : (∃ i, (opened.foldl Manager.add ⟨∅, []⟩).mapChannel[name]? = some i) ↔
      ∃ c ∈ cs, Offers c name := by
    rw [channel_of_opened, offered_iff hopened]
  rw [← hname]
  unfold getChannelName
  rcases hi : (opened.foldl Manager.add ⟨∅, []⟩).mapChannel[name]? with _ | i
  · simp
  · have hlt := channel_lt opened hi
    simp [List.getElem?_eq_getElem hlt]

/-- Opening the channels meets a null pointer at the first entry that does not open, if that is
one that is opened through a null pointer. -/
lemma createChannel_null {cs : List (Value R)} :
    createChannel cfg serialType cs = .error .nullPointer ↔ ∃ pre c post, cs = pre ++ c :: post ∧
      (∀ d ∈ pre, Opens cfg serialType d) ∧ NullChannel cfg c := by
  simp only [createChannel, bind_eq_error, mapM_eq_error, openChannel_null, Opens]
  refine or_iff_left ?_
  rintro ⟨opened, -, h⟩
  cases h

/-! ### Shared channels -/

/-- Of the entries that offer a channel to either name, the last one offers it to both. -/
def Shares (cs : List (Value R)) (d d' : String) : Prop :=
  ∃ pre c post, cs = pre ++ c :: post ∧ Offers c d ∧ Offers c d' ∧
    ∀ e ∈ post, ¬ Offers e d ∧ ¬ Offers e d'

lemma shares_snoc {cs : List (Value R)} {c : Value R} {d d' : String} :
    Shares (cs ++ [c]) d d' ↔
      Offers c d ∧ Offers c d' ∨ ¬ Offers c d ∧ ¬ Offers c d' ∧ Shares cs d d' := by
  constructor
  · rintro ⟨pre, e, post, hcs, hd, hd', hpost⟩
    rcases List.eq_nil_or_concat post with rfl | ⟨post, x, rfl⟩
    · obtain ⟨rfl, he⟩ := List.append_inj' hcs rfl
      obtain rfl : c = e := by simpa using he
      exact .inl ⟨hd, hd'⟩
    · rw [List.concat_eq_append] at hcs hpost
      rw [← List.cons_append, ← List.append_assoc] at hcs
      obtain ⟨rfl, he⟩ := List.append_inj' hcs rfl
      obtain rfl : c = x := by simpa using he
      obtain ⟨hx, hx'⟩ := hpost c (by simp)
      exact .inr ⟨hx, hx', pre, e, post, rfl, hd, hd', fun y hy => hpost y (by simp [hy])⟩
  · rintro (⟨hd, hd'⟩ | ⟨hx, hx', pre, e, post, rfl, hd, hd', hpost⟩)
    · exact ⟨cs, c, [], rfl, hd, hd', by simp⟩
    · refine ⟨pre, e, post ++ [c], by simp, hd, hd', fun y hy => ?_⟩
      rcases List.mem_append.mp hy with hy | hy
      · exact hpost y hy
      · obtain rfl := List.mem_singleton.mp hy
        exact ⟨hx, hx'⟩

lemma createChannel_snoc {cs : List (Value R)} {c : Value R} {m : Manager} :
    createChannel cfg serialType (cs ++ [c]) = .ok m ↔ ∃ m' x,
      createChannel cfg serialType cs = .ok m' ∧ openChannel cfg serialType c = .ok x ∧
        m = m'.add x := by
  simp only [createChannel, List.mapM_append, List.mapM_cons, List.mapM_nil, bind_eq_ok, pure,
    Except.pure, Except.ok.injEq]
  constructor
  · rintro ⟨_, ⟨opened, hopened, _, ⟨x, hx, _, rfl, rfl⟩, rfl⟩, rfl⟩
    exact ⟨_, x, ⟨opened, hopened, rfl⟩, hx, by simp⟩
  · rintro ⟨_, x, ⟨opened, hopened, rfl⟩, hx, rfl⟩
    exact ⟨_, ⟨opened, hopened, _, ⟨x, hx, _, rfl, rfl⟩, rfl⟩, by simp⟩

/-- A name that the entry offers a channel to gets that channel, any other keeps its own. -/
lemma mapChannel_add {c : Value R} {x : Option (IChannel × List String)}
    (h : openChannel cfg serialType c = .ok x) (m : Manager) (name : String) :
    Offers c name ∧ (m.add x).mapChannel[name]? = some m.vecChannel.length ∨
      ¬ Offers c name ∧ (m.add x).mapChannel[name]? = m.mapChannel[name]? := by
  rw [← openChannel_offers h]
  rcases x with _ | ⟨channel, names⟩
  · simp [Manager.add]
  · by_cases hn : name ∈ names <;> simp [Manager.add, Map.getElem?_foldl_insert, hn]

lemma createChannel_lt {cs : List (Value R)} {m : Manager}
    (h : createChannel cfg serialType cs = .ok m) {name : String} {i : ℕ}
    (hi : m.mapChannel[name]? = some i) : i < m.vecChannel.length := by
  obtain ⟨opened, -, h⟩ := bind_eq_ok.mp h
  obtain rfl := Except.ok.inj h
  exact channel_lt opened hi

/-- **Who shares a channel**, by the entries of the configuration. -/
lemma same_channel_iff {cs : List (Value R)} {m : Manager}
    (h : createChannel cfg serialType cs = .ok m) (d d' : String) :
    (∃ i, m.mapChannel[d]? = some i ∧ m.mapChannel[d']? = some i) ↔ Shares cs d d' := by
  induction cs using List.reverseRecOn generalizing m with
  | nil =>
    obtain rfl := Except.ok.inj h
    simp [Shares]
  | append_singleton cs c ih =>
    obtain ⟨m, x, hm, hx, rfl⟩ := createChannel_snoc.mp h
    -- the channel that is added is none of those there were
    have hnew : ∀ name, m.mapChannel[name]? ≠ some m.vecChannel.length := fun name hi =>
      (createChannel_lt hm hi).ne rfl
    rw [shares_snoc, ← ih hm]
    rcases mapChannel_add hx m d with ⟨hd, hi⟩ | ⟨hd, hi⟩ <;>
      rcases mapChannel_add hx m d' with ⟨hd', hi'⟩ | ⟨hd', hi'⟩
    · simp [hd, hd', hi, hi']
    · simpa [hd, hd', hi, hi', eq_comm] using (hnew d').symm
    · simp [hd, hd', hi, hi', hnew]
    · simp [hd, hd', hi, hi']

end DataEngine.ChannelManager
