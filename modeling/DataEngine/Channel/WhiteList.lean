import DataEngine.Channel.ChannelManager
import DataEngine.Rational
import DataEngine.Tool.Split

/-!
The addresses a server channel admits.

The parameter `remoteIP` names one address or several with `#` between them. `splitStr` gives
nothing for a single one, so that it is put into the set as it stands.
-/

namespace DataEngine.ChannelManager

open Json Tool Lib.Effect

variable {R : Type} [Double R]

/-- A `base::CTcpServer`, with what `setWhiteList` has been called with -/
structure TcpServer where
  localIP : String
  localPort : ℤ
  whiteLists : List (Finset String)

/-- A channel with its server -/
structure TCPServerChannel extends IChannel where
  tcpSrv : TcpServer

/-- The set `init` collects from a `remoteIP` that is not empty -/
def setIP (remoteIP : String) : Finset String :=
  let result := splitStr '#' remoteIP.toList
  if result ≠ [] then (result.map String.ofList).toFinset else {remoteIP}

/-- `CTCPServerChannel::init`, with the server -/
def TCPServerChannel.init (content : Value R) : Except Fault TCPServerChannel := do
  let localIP ← (← content.member "localIP").asString
  let localPort ← (← content.member "localPort").asInt
  let remoteIP ← (← content.member "remoteIP").asString
  let taskName ← (← content.member "taskName").asString
  let channelName := "TCPSrv#" ++ localIP ++ ":" ++ toString localPort
  let whiteLists := if remoteIP = "" then [] else [setIP remoteIP]
  .ok ⟨⟨channelName, some (channelName, taskName)⟩, ⟨localIP, localPort, whiteLists⟩⟩

/-- The manager sees the channel without its server. -/
theorem initTCPServer_eq (content : Value R) :
    initTCPServer content = TCPServerChannel.toIChannel <$> TCPServerChannel.init content := by
  unfold initTCPServer TCPServerChannel.init
  simp only [map_bind]
  rfl

/-- Strings that `#` can be put between -/
def Addresses (ips : List String) : Prop := ∀ ip ∈ ips, ip ≠ "" ∧ '#' ∉ ip.toList

namespace Addresses

variable {ips : List String}

lemma joinable (h : Addresses ips) : Joinable '#' (ips.map String.toList) where
  nonempty := by simpa using fun ip hip => (h ip hip).1
  free := by simpa using fun ip hip => (h ip hip).2

lemma join_ne_empty (h : Addresses ips) (hne : ips ≠ []) : "#".intercalate ips ≠ "" := by
  obtain ⟨ip, rest, rfl⟩ := List.exists_cons_of_ne_nil hne
  have hip := (h ip List.mem_cons_self).1
  cases rest with
  | nil => simpa using hip
  | cons ip' rest => simp [String.intercalate_cons_cons, hip]

/-- `splitStr` undoes the join, except for a single address. -/
lemma splitStr_join (h : Addresses ips) :
    splitStr '#' ("#".intercalate ips).toList =
      if 2 ≤ ips.length then ips.map String.toList else [] := by
  have hsplit := Tool.splitStr_join h.joinable
  rw [List.length_map] at hsplit
  rw [String.toList_intercalate]
  exact hsplit

/-- What `init` collects is the set of the addresses. -/
lemma setIP_join (h : Addresses ips) (hne : ips ≠ []) :
    setIP ("#".intercalate ips) = ips.toFinset := by
  unfold setIP
  rw [h.splitStr_join]
  rcases ips with _ | ⟨ip, _ | ⟨ip', rest⟩⟩
  · exact absurd rfl hne
  · simp
  · simp

end Addresses

/-- What a channel that has been initialised was told of its clients -/
lemma whiteLists_of_init {content : Value R} {channel : TCPServerChannel}
    (h : TCPServerChannel.init content = .ok channel) {remoteIP : String}
    (hremote : (content.get "remoteIP").asString = .ok remoteIP) :
    channel.tcpSrv.whiteLists = if remoteIP = "" then [] else [setIP remoteIP] := by
  unfold TCPServerChannel.init at h
  obtain ⟨_, -, h⟩ := bind_eq_ok.mp h
  obtain ⟨localIP, -, h⟩ := bind_eq_ok.mp h
  obtain ⟨_, -, h⟩ := bind_eq_ok.mp h
  obtain ⟨localPort, -, h⟩ := bind_eq_ok.mp h
  obtain ⟨v, hv, h⟩ := bind_eq_ok.mp h
  obtain ⟨text, htext, h⟩ := bind_eq_ok.mp h
  obtain ⟨_, -, h⟩ := bind_eq_ok.mp h
  obtain ⟨taskName, -, h⟩ := bind_eq_ok.mp h
  obtain rfl := Except.ok.inj h
  obtain ⟨-, rfl⟩ := Value.member_eq_ok hv
  obtain rfl : text = remoteIP := Except.ok.inj (htext.symm.trans hremote)
  rfl

/-- **The white list** is the set of the addresses that `remoteIP` joins, be it one or several, and
there is none if `remoteIP` is empty. -/
theorem white_list_spec (content : Value R) (channel : TCPServerChannel)
    (hinit : TCPServerChannel.init content = .ok channel) :
    ((content.get "remoteIP").asString = .ok "" → channel.tcpSrv.whiteLists = []) ∧
    ∀ ips : List String, ips ≠ [] → (∀ ip ∈ ips, ip ≠ "" ∧ '#' ∉ ip.toList) →
      (content.get "remoteIP").asString = .ok ("#".intercalate ips) →
        channel.tcpSrv.whiteLists = [ips.toFinset] := by
  refine ⟨fun hempty => ?_, fun ips hne hips hjoin => ?_⟩
  · rw [whiteLists_of_init hinit hempty, if_pos rfl]
  · have haddr : Addresses ips := hips
    rw [whiteLists_of_init hinit hjoin, if_neg (haddr.join_ne_empty hne), haddr.setIP_join hne]

/-- A server for three clients -/
def threeClients : Value ℚ :=
  .object [("localIP", .string "0.0.0.0"), ("localPort", .int 2404),
    ("remoteIP", .string "192.168.1.99#192.168.1.100#10.0.0.7")]

theorem three_clients_admitted : ∃ channel, TCPServerChannel.init threeClients = .ok channel ∧
    channel.tcpSrv.whiteLists = [{"192.168.1.99", "192.168.1.100", "10.0.0.7"}] := by
  have hinit : TCPServerChannel.init threeClients = .ok ⟨⟨"TCPSrv#0.0.0.0:2404",
      some ("TCPSrv#0.0.0.0:2404", "")⟩,
      ⟨"0.0.0.0", 2404, [setIP "192.168.1.99#192.168.1.100#10.0.0.7"]⟩⟩ := by
    rfl
  exact ⟨_, hinit, (white_list_spec threeClients _ hinit).2
    ["192.168.1.99", "192.168.1.100", "10.0.0.7"] (by decide) (by decide) rfl⟩

end DataEngine.ChannelManager
