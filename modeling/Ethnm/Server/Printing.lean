import Ethnm.Clients.Endpoints
import Ethnm.Server.TcpServer

/-! What the server prints. An address goes to text and back without loss, so the lines that
give one address and one port each are right, but for the port of a listener's server; and the
flags that `TcpServer::Display` prints are those that are set.
-/

namespace Ethnm
open DottedText

-----------------------------------------------------------------------------------------
-- Words and texts
-----------------------------------------------------------------------------------------

/-- A word is loaded and stored without loss. -/
@[simp]
theorem InAddr.toWord_ofWord (value : UInt32) : (InAddr.ofWord value).toWord = value := by
  have bound := value.toNat_lt
  have byte (number : Nat) : (UInt8.ofNat number).toNat = number % 256 := UInt8.toNat_ofNat'
  refine UInt32.toNat_inj.mp ?_
  rw [InAddr.toWord, UInt32.toNat_ofNat']
  simp only [InAddr.ofWord, byte]
  omega

theorem htonl_htonl (value : UInt32) : htonl (htonl value) = value := by
  have once : htonl value = (InAddr.ofWord value).swapped.toWord := rfl
  rw [once, htonl_toWord, InAddr.swapped_swapped, InAddr.toWord_ofWord]

/-- The text that is read is the text of the value that is read. -/
theorem decimal_of_parseDecimal {text : List Char} {number : Nat}
    (parsed : parseDecimal text = some number)
    : decimal number = text := by
  rw [parseDecimal] at parsed
  split at parsed
  · rename_i same
    cases parsed
    exact same
  · cases parsed

/-- By induction on the texts of the numbers. -/
theorem map_decimal_of_mapM {texts : List (List Char)} {numbers : List Nat}
    (parsed : texts.mapM parseDecimal = some numbers)
    : numbers.map decimal = texts := by
  induction texts generalizing numbers with
  | nil =>
      cases parsed
      rfl
  | cons text rest ih =>
      rw [List.mapM_cons] at parsed
      obtain ⟨number, first, parsed⟩ := Option.bind_eq_some_iff.mp parsed
      obtain ⟨others, later, parsed⟩ := Option.bind_eq_some_iff.mp parsed
      cases parsed
      rw [List.map_cons, decimal_of_parseDecimal first, ih later]

theorem dotted_of_parseDotted {text : List Char} {numbers : List Nat}
    (parsed : parseDotted text = some numbers)
    : dotted numbers = text := by
  rw [dotted, map_decimal_of_mapM parsed]
  exact List.intercalate_splitOn '.'

/-- A text that is accepted is the text of its address. -/
theorem inetNtop_of_inetPton {text : List Char} {address : InAddr}
    (accepted : inetPton text = some address)
    : inetNtop address = text := by
  rw [inetPton] at accepted
  split at accepted
  · rename_i first second third fourth parsed
    split at accepted
    · rename_i bytes
      cases accepted
      obtain ⟨one, two, three, four⟩ := bytes
      rw [← dotted_of_parseDotted parsed, inetNtop]
      simp only [UInt8.toNat_ofNat', Nat.reducePow, Nat.mod_eq_of_lt one, Nat.mod_eq_of_lt two,
        Nat.mod_eq_of_lt three, Nat.mod_eq_of_lt four]
    · cases accepted
  · cases accepted

/-- A word goes to text and back without loss, whatever was in the output buffer; and a text
goes to a word and back if and only if it is the text of an address.
-/
theorem convert_round_trip
    : (∀ (ipAddr : UInt32) (out : List Char),
        networkCovertIpPToN (stringAt (networkConvertIpNToP ipAddr out)) = ipAddr)
      ∧ ∀ text out : List Char,
        stringAt (networkConvertIpNToP (networkCovertIpPToN text) out) = text
        ↔ (inetPton text).isSome := by
  constructor
  · intro ipAddr out
    rw [stringAt_networkConvertIpNToP, networkCovertIpPToN, inetPton_inetNtop]
    simp only [InAddr.toWord_ofWord, htonl_htonl]
  · intro text out
    rw [stringAt_networkConvertIpNToP, networkCovertIpPToN]
    constructor
    · intro same
      rw [← same, inetPton_inetNtop]
      rfl
    · intro accepted
      obtain ⟨address, parsed⟩ := Option.isSome_iff_exists.mp accepted
      simp only [parsed, htonl_toWord, InAddr.swapped_swapped, InAddr.ofWord_toWord]
      exact inetNtop_of_inetPton parsed

-----------------------------------------------------------------------------------------
-- Lines with one address
-----------------------------------------------------------------------------------------

/-- `[%s, %d]`. -/
def endpointText (ip : List Char) (port : Nat) : List Char :=
  '[' :: ip ++ ',' :: ' ' :: decimal port ++ [']']

/-- The text of an address that `printf` finds in `str_ip`. -/
def addressText (ipAddr : UInt32) (strIp : List Char) : List Char :=
  stringAt (networkConvertIpNToP ipAddr strIp)

namespace ServerEndpoint

/-- What `TcpServer::Start` prints. -/
def startLine (server : ServerEndpoint) (strIp : List Char) : List Char :=
  "tcp server Start ".toList ++ endpointText (addressText server.ip strIp) server.port.toNat
    ++ "\nok\n".toList

/-- What `TcpServer::Display` prints of the endpoint. -/
def listeningLine (server : ServerEndpoint) (strIp : List Char) : List Char :=
  "listening on: ".toList ++ endpointText (addressText server.ip strIp) server.port.toNat
    ++ "\n".toList

/-- The address that `ConnectionManager::StartThreadInternal` binds its socket to. -/
def sAddr (server : ServerEndpoint) : SockaddrIn :=
  { sinAddr := htonl server.ip, sinPort := htons server.port }

/-- `PrintServer` of the program `tcpsrv`. -/
def printServer (server : ServerEndpoint) (strIp : List Char) : List Char :=
  endpointText (addressText server.ip strIp) (htons server.port).toNat ++ "\n".toList

end ServerEndpoint

/-- What `ConnectionManager::StartThreadInternal` prints of a connection. -/
def SockaddrIn.acceptedLine (cAddr : SockaddrIn) (strIp : List Char) : List Char :=
  "connection accepted from client ".toList
    ++ endpointText (addressText (htonl cAddr.sinAddr) strIp) (htons cAddr.sinPort).toNat
    ++ "\n".toList

/-- `PrintClient` of the program `tcpsrv`. -/
def ClientEndpoints.printClient (client : ClientEndpoints) (strIp : List Char) : List Char :=
  endpointText (addressText (htonl client.ip) strIp) (htons client.port).toNat ++ "\n".toList

/-- The bytes of a port are swapped back. -/
theorem htons_htons (port : UInt16) : htons (htons port) = port := by
  have small := port.toNat_lt
  have byte (number : Nat) : (UInt8.ofNat number).toNat = number % 256 := UInt8.toNat_ofNat'
  have swapped (value : UInt16)
      : (htons value).toNat = value.toNat / 256 % 256 + 256 * (value.toNat % 256) := by
    change (UInt16.ofNat ((UInt8.ofNat (value.toNat / 256)).toNat
      + 256 * (UInt8.ofNat value.toNat).toNat)).toNat = _
    rw [UInt16.toNat_ofNat', byte, byte]
    omega
  have parts : port.toNat = port.toNat % 256 + 256 * (port.toNat / 256 % 256) := by omega
  have high : port.toNat / 256 % 256 < 256 := Nat.mod_lt _ (by decide)
  refine UInt16.toNat_inj.mp ?_
  rw [swapped, swapped, Nat.add_mul_div_left _ _ (by decide), Nat.div_eq_of_lt high,
    Nat.add_mul_mod_self_left, Nat.mod_mod]
  omega

/-- The pair and what follows it are read off the text. -/
theorem endpointText_inj {left right : InAddr} {port other : Nat} {rest rest' : List Char}
    (same : endpointText (inetNtop left) port ++ rest
      = endpointText (inetNtop right) other ++ rest')
    : left = right ∧ port = other ∧ rest = rest' := by
  have comma (address : InAddr) : ',' ∉ inetNtop address :=
    notMem_inetNtop (by decide) (by decide) address
  have bracket (number : Nat) : ']' ∉ decimal number := notMem_decimal (by decide) number
  simp only [endpointText, List.append_assoc, List.cons_append, List.nil_append] at same
  obtain ⟨first, behind⟩ := append_cons_inj (comma left) (comma right) (List.cons.inj same).2
  obtain ⟨second, behind⟩ :=
    append_cons_inj (bracket port) (bracket other) (List.cons.inj behind).2
  exact ⟨inetNtop_inj first, decimal_inj second, behind⟩

section Lines

variable (server peer : InAddr) (serverPort peerPort : UInt16) (strIp : List Char)

theorem addressText_create
    : addressText (ServerEndpoint.create (inetNtop server) serverPort).ip strIp
      = inetNtop server := by
  rw [addressText, srvIp_create, stringAt_networkConvertIpNToP, htonl_toWord,
    InAddr.swapped_swapped, InAddr.ofWord_toWord]

omit peerPort in
theorem port_create : (ServerEndpoint.create (inetNtop server) serverPort).port = serverPort :=
  rfl

theorem addressText_accepted
    : addressText (htonl (SockaddrIn.accepted peer peerPort).sinAddr) strIp
      = inetNtop peer := by
  rw [addressText, stringAt_networkConvertIpNToP, htonl_htonl, SockaddrIn.accepted,
    InAddr.ofWord_toWord]

theorem port_accepted
    : (htons (SockaddrIn.accepted peer peerPort).sinPort).toNat = peerPort.toNat :=
  congrArg UInt16.toNat (htons_htons peerPort)

theorem startLine_create
    : (ServerEndpoint.create (inetNtop server) serverPort).startLine strIp
      = "tcp server Start ".toList ++ endpointText (inetNtop server) serverPort.toNat
        ++ "\nok\n".toList := by
  unfold ServerEndpoint.startLine
  rw [addressText_create, port_create]

theorem listeningLine_create
    : (ServerEndpoint.create (inetNtop server) serverPort).listeningLine strIp
      = "listening on: ".toList ++ endpointText (inetNtop server) serverPort.toNat
        ++ "\n".toList := by
  unfold ServerEndpoint.listeningLine
  rw [addressText_create, port_create]

theorem acceptedLine_accepted
    : (SockaddrIn.accepted peer peerPort).acceptedLine strIp
      = "connection accepted from client ".toList
        ++ endpointText (inetNtop peer) peerPort.toNat ++ "\n".toList := by
  unfold SockaddrIn.acceptedLine
  rw [addressText_accepted, port_accepted]

theorem printClient_create
    : (ClientEndpoints.create (.create (inetNtop server) serverPort)
        (.accepted peer peerPort)).printClient strIp
      = endpointText (inetNtop peer) peerPort.toNat ++ "\n".toList := by
  rw [ClientEndpoints.printClient, ClientEndpoints.create, addressText_accepted, port_accepted]

theorem sAddr_create
    : (ServerEndpoint.create (inetNtop server) serverPort).sAddr
      = SockaddrIn.accepted server serverPort := by
  rw [ServerEndpoint.sAddr, srvIp_create, htonl_toWord, InAddr.swapped_swapped, port_create,
    SockaddrIn.accepted]

/-- `htons` swaps the bytes of a port that is in the order of the host. -/
theorem printServer_create_iff
    : (ServerEndpoint.create (inetNtop server) serverPort).printServer strIp
      = endpointText (inetNtop server) serverPort.toNat ++ "\n".toList
      ↔ htons serverPort = serverPort := by
  rw [ServerEndpoint.printServer, addressText_create, port_create]
  constructor
  · exact fun same => UInt16.toNat_inj.mp (endpointText_inj same).2.1
  · intro same
    rw [same]

/-- The server listens at the address and port that it was given. Whatever the buffer held, its
own lines show them, and the lines about a connection those of the peer. What a listener prints
of the server shows both if and only if the two bytes of the port are equal.
-/
theorem lines_show_endpoints
    : (ServerEndpoint.create (inetNtop server) serverPort).sAddr
        = SockaddrIn.accepted server serverPort
      ∧ (ServerEndpoint.create (inetNtop server) serverPort).startLine strIp
        = "tcp server Start ".toList ++ endpointText (inetNtop server) serverPort.toNat
          ++ "\nok\n".toList
      ∧ (ServerEndpoint.create (inetNtop server) serverPort).listeningLine strIp
        = "listening on: ".toList ++ endpointText (inetNtop server) serverPort.toNat
          ++ "\n".toList
      ∧ (SockaddrIn.accepted peer peerPort).acceptedLine strIp
        = "connection accepted from client ".toList
          ++ endpointText (inetNtop peer) peerPort.toNat ++ "\n".toList
      ∧ (ClientEndpoints.create (.create (inetNtop server) serverPort)
          (.accepted peer peerPort)).printClient strIp
        = endpointText (inetNtop peer) peerPort.toNat ++ "\n".toList
      ∧ ((ServerEndpoint.create (inetNtop server) serverPort).printServer strIp
          = endpointText (inetNtop server) serverPort.toNat ++ "\n".toList
        ↔ htons serverPort = serverPort) :=
  ⟨sAddr_create server serverPort, startLine_create server serverPort strIp,
    listeningLine_create server serverPort strIp, acceptedLine_accepted peer peerPort strIp,
    printClient_create server peer serverPort peerPort strIp,
    printServer_create_iff server serverPort strIp⟩

end Lines

-----------------------------------------------------------------------------------------
-- The flags
-----------------------------------------------------------------------------------------

/-- What `Display` prints for a flag. -/
def flagText (set : Bool) (yes no : String) : List Char :=
  if set then yes.toList else no.toList

/-- What `TcpServer::Display` prints before the clients. -/
def TcpServer.displayText (name : List Char) (endpoint : ServerEndpoint) (strIp : List Char)
    (server : TcpServer)
    : List Char :=
  "server name: ".toList ++ name ++ "\n".toList
  ++ if !server.isBitSet tcpServerRunning then
      "tcp server not running\n".toList
    else
      endpoint.listeningLine strIp
      ++ "flags:  ".toList
      ++ flagText (server.isBitSet tcpServerInitialized) "I" "Un-I"
      ++ flagText (server.isBitSet tcpServerRunning) " R" " Not-R"
      ++ flagText (server.isBitSet tcpServerNotAcceptingNewConnections) " Not-Acc" " Acc"
      ++ flagText (server.isBitSet tcpServerNotListeningClients) " Not-L" " L"
      ++ flagText (server.isBitSet tcpServerCreateMultiThreadedClient) " M" " Not-M"
      ++ "\n".toList

/-- Neither text begins with the other. -/
def Apart (left right : List Char) : Prop :=
  ¬ left <+: right ∧ ¬ right <+: left

instance (left right : List Char) : Decidable (Apart left right) :=
  inferInstanceAs (Decidable (_ ∧ _))

theorem append_ne_of_apart {left right : List Char} (apart : Apart left right)
    (rest rest' : List Char)
    : left ++ rest ≠ right ++ rest' := by
  intro same
  rcases List.append_eq_append_iff.mp same with ⟨more, longer, -⟩ | ⟨more, longer, -⟩
  · exact apart.1 ⟨more, longer.symm⟩
  · exact apart.2 ⟨more, longer.symm⟩

/-- A flag and what follows it are read off the text. -/
theorem flagText_inj {yes no : String} (apart : Apart yes.toList no.toList) {set set' : Bool}
    {rest rest' : List Char}
    (same : flagText set yes no ++ rest = flagText set' yes no ++ rest')
    : set = set' ∧ rest = rest' := by
  cases set <;> cases set'
  · exact ⟨rfl, List.append_cancel_left same⟩
  · exact absurd same.symm (append_ne_of_apart apart _ _)
  · exact absurd same (append_ne_of_apart apart _ _)
  · exact ⟨rfl, List.append_cancel_left same⟩

/-- The flags that are shown. -/
def shownFlags : List (BitVec 32) :=
  [tcpServerInitialized, tcpServerRunning, tcpServerNotAcceptingNewConnections,
    tcpServerNotListeningClients, tcpServerCreateMultiThreadedClient]

/-- Whatever is printed behind it, the text of a server tells whether it runs, and that of a
running server tells its endpoint and its flags.
-/
theorem displayText_inj {name : List Char} {left right : InAddr} {port other : UInt16}
    {strIp strIp' : List Char} {server server' : TcpServer} {rest rest' : List Char}
    (same : server.displayText name (.create (inetNtop left) port) strIp ++ rest
      = server'.displayText name (.create (inetNtop right) other) strIp' ++ rest')
    : server.isBitSet tcpServerRunning = server'.isBitSet tcpServerRunning
      ∧ (server.isBitSet tcpServerRunning = true →
          left = right ∧ port = other ∧ rest = rest'
          ∧ ∀ flag ∈ shownFlags, server.isBitSet flag = server'.isBitSet flag) := by
  have opening : Apart "tcp server not running\n".toList "listening on: ".toList := by
    decide +kernel
  unfold TcpServer.displayText at same
  simp only [listeningLine_create, List.append_assoc] at same
  replace same := List.append_cancel_left (List.append_cancel_left (List.append_cancel_left same))
  cases running : server.isBitSet tcpServerRunning
  <;> cases running' : server'.isBitSet tcpServerRunning
  <;> rw [running, running'] at same
  · exact ⟨rfl, nofun⟩
  · exact absurd same (append_ne_of_apart opening _ _)
  · exact absurd same.symm (append_ne_of_apart opening _ _)
  · simp only [Bool.not_true, Bool.false_eq_true, if_false, List.append_assoc] at same
    obtain ⟨address, ports, same⟩ := endpointText_inj (List.append_cancel_left same)
    replace same := List.append_cancel_left (List.append_cancel_left same)
    obtain ⟨initialized, same⟩ := flagText_inj (by decide +kernel) same
    obtain ⟨-, same⟩ := flagText_inj (by decide +kernel) same
    obtain ⟨notAccepting, same⟩ := flagText_inj (by decide +kernel) same
    obtain ⟨notListening, same⟩ := flagText_inj (by decide +kernel) same
    obtain ⟨multiThreaded, same⟩ := flagText_inj (by decide +kernel) same
    refine ⟨rfl, fun _ =>
      ⟨address, UInt16.toNat_inj.mp ports, List.append_cancel_left same, ?_⟩⟩
    intro flag shown
    simp only [shownFlags, List.mem_cons, List.not_mem_nil, or_false] at shown
    rcases shown with rfl | rfl | rfl | rfl | rfl
    · exact initialized
    · rw [running, running']
    · exact notAccepting
    · exact notListening
    · exact multiThreaded

/-- Before and after a pause of the connection manager, over different contents of the buffer. -/
theorem displayText_inj_running
    : let server := TcpServer.mk 3 (some 2) none none
      let other := TcpServer.mk 3 (some 6) none none
      server.isBitSet tcpServerRunning = true
        ∧ ∀ flag ∈ shownFlags, server.isBitSet flag = other.isBitSet flag := by
  intro server other
  have listening (strIp : List Char) :=
    listeningLine_create ⟨127, 0, 0, 1⟩ 40000 strIp
  have same
      : server.displayText [] (.create (inetNtop ⟨127, 0, 0, 1⟩) 40000) [] ++ []
        = other.displayText [] (.create (inetNtop ⟨127, 0, 0, 1⟩) 40000) ['1'] ++ [] := by
    unfold TcpServer.displayText
    rw [listening, listening]
    rfl
  have running : (TcpServer.mk 3 (some 2) none none).isBitSet tcpServerRunning = true := by
    decide
  exact ⟨running, ((displayText_inj same).2 running).2.2.2⟩

end Ethnm
