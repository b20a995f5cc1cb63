import Ethnm.Library.DottedText
import Ethnm.Delimiter.MsgDelimiter

/-! The endpoints that `TcpClient::Display` prints: how they get from `TcpServer` and `accept`
into the client, through which byte orders, and what becomes of the two address texts in one
static buffer.
-/

namespace Ethnm
open DottedText

-----------------------------------------------------------------------------------------
-- Addresses and ports in memory
-----------------------------------------------------------------------------------------

/-- The bytes of an IPv4 address, in the order of the network. -/
structure InAddr where
  first : UInt8
  second : UInt8
  third : UInt8
  fourth : UInt8
  deriving DecidableEq, Repr

namespace InAddr

/-- The value of the `uint32_t` object with these bytes, on a little-endian host. -/
def toWord (address : InAddr) : UInt32 :=
  .ofNat (address.first.toNat + 256 * address.second.toNat + 65536 * address.third.toNat
    + 16777216 * address.fourth.toNat)

/-- The bytes of a `uint32_t` object. -/
def ofWord (value : UInt32) : InAddr where
  first := .ofNat value.toNat
  second := .ofNat (value.toNat / 256)
  third := .ofNat (value.toNat / 65536)
  fourth := .ofNat (value.toNat / 16777216)

def swapped (address : InAddr) : InAddr :=
  ⟨address.fourth, address.third, address.second, address.first⟩

@[simp] theorem swapped_swapped (address : InAddr) : address.swapped.swapped = address := rfl

/-- Four bytes are stored and loaded without loss. -/
@[simp]
theorem ofWord_toWord (address : InAddr) : ofWord address.toWord = address := by
  have first := address.first.toNat_lt
  have second := address.second.toNat_lt
  have third := address.third.toNat_lt
  have fourth := address.fourth.toNat_lt
  have value : address.toWord.toNat
      = address.first.toNat + 256 * address.second.toNat + 65536 * address.third.toNat
        + 16777216 * address.fourth.toNat := by
    rw [toWord, UInt32.toNat_ofNat', Nat.mod_eq_of_lt (by omega)]
  have byte (number : Nat) (expected : UInt8) (same : number % 256 = expected.toNat)
      : UInt8.ofNat number = expected :=
    UInt8.toNat_inj.mp same
  rw [ofWord, value, byte _ address.first (by omega), byte _ address.second (by omega),
    byte _ address.third (by omega), byte _ address.fourth (by omega)]

end InAddr

/-- `htonl` on a little-endian host. -/
def htonl (value : UInt32) : UInt32 :=
  (InAddr.ofWord value).swapped.toWord

/-- `htons` on a little-endian host. -/
def htons (value : UInt16) : UInt16 :=
  hostOrder (objectBytes value).reverse

@[simp]
theorem htonl_toWord (address : InAddr) : htonl address.toWord = address.swapped.toWord := by
  rw [htonl, InAddr.ofWord_toWord]

-----------------------------------------------------------------------------------------
-- Addresses as text
-----------------------------------------------------------------------------------------

/-- The text that `inet_ntop(AF_INET, …)` writes for an address in memory. -/
def inetNtop (address : InAddr) : List Char :=
  dotted [address.first.toNat, address.second.toNat, address.third.toNat, address.fourth.toNat]

/-- The address that `inet_pton(AF_INET, …)` writes for a text, if it accepts the text. -/
def inetPton (text : List Char) : Option InAddr :=
  match parseDotted text with
  | some [first, second, third, fourth] =>
      if first < 256 ∧ second < 256 ∧ third < 256 ∧ fourth < 256 then
        some ⟨.ofNat first, .ofNat second, .ofNat third, .ofNat fourth⟩
      else
        none
  | _ => none

theorem inetPton_inetNtop (address : InAddr) : inetPton (inetNtop address) = some address := by
  have bytes : address.first.toNat < 256 ∧ address.second.toNat < 256
      ∧ address.third.toNat < 256 ∧ address.fourth.toNat < 256 :=
    ⟨address.first.toNat_lt, address.second.toNat_lt, address.third.toNat_lt,
      address.fourth.toNat_lt⟩
  rw [inetPton, inetNtop, parseDotted_dotted (List.cons_ne_nil _ _)]
  simp only [if_pos bytes, UInt8.ofNat_toNat]

theorem inetNtop_inj {left right : InAddr} (same : inetNtop left = inetNtop right)
    : left = right := by
  have parsed := congrArg inetPton same
  rw [inetPton_inetNtop, inetPton_inetNtop] at parsed
  exact Option.some.inj parsed

theorem length_decimal_byte (byte : UInt8) : (decimal byte.toNat).length ≤ 3 :=
  (Nat.length_toDigits_le_iff (by decide) (by decide)).mpr (Nat.lt_trans byte.toNat_lt (by decide))

theorem length_inetNtop_lt (address : InAddr) : (inetNtop address).length < 16 := by
  have fields : ∀ number ∈ [address.first.toNat, address.second.toNat, address.third.toNat,
      address.fourth.toNat], (decimal number).length ≤ 3 := by
    simp [length_decimal_byte]
  exact length_dotted_lt (List.cons_ne_nil _ _) fields

/-- An address as text has neither of the characters around it in a line. -/
theorem notMem_inetNtop {character : Char} (other : character.isDigit = false)
    (noDot : character ≠ '.') (address : InAddr)
    : character ∉ inetNtop address :=
  notMem_dotted other noDot _

/-- The character that ends a string. -/
def nul : Char :=
  Char.ofNat 0

/-- The string that a buffer holds. -/
def stringAt (out : List Char) : List Char :=
  out.takeWhile (· ≠ nul)

/-- What `network_convert_ip_n_to_p` leaves in `out`, which is the static `str_ip` when there is
no output buffer. The text and its end take at most 16 characters.
-/
def networkConvertIpNToP (ipAddr : UInt32) (out : List Char) : List Char :=
  let out := List.replicate 16 nul ++ out.drop 16
  let ipAddr := htonl ipAddr
  let text := inetNtop (.ofWord ipAddr)
  let out := text ++ nul :: out.drop (text.length + 1)
  out.set 15 nul

def networkCovertIpPToN (ipAddr : List Char) : UInt32 :=
  let binaryPrefix := match inetPton ipAddr with
    | some address => address.toWord
    | none => 0
  htonl binaryPrefix

/-- Ending a buffer once more behind its end does not change the string it holds. -/
theorem stringAt_set {text : List Char} (rest : List Char) (short : text.length < 16)
    (absent : nul ∉ text)
    : stringAt ((text ++ nul :: rest).set 15 nul) = text := by
  have shape : ∃ other, (text ++ nul :: rest).set 15 nul = text ++ nul :: other := by
    rw [List.set_append_right _ _ (by omega)]
    cases 15 - text.length with
    | zero => exact ⟨rest, rfl⟩
    | succ offset => exact ⟨rest.set offset nul, rfl⟩
  obtain ⟨other, shape⟩ := shape
  rw [shape]
  exact takeWhile_append_cons absent

/-- The buffer holds the text of the address whose bytes are those of `ipAddr`, reversed. -/
theorem stringAt_networkConvertIpNToP (ipAddr : UInt32) (out : List Char)
    : stringAt (networkConvertIpNToP ipAddr out) = inetNtop (.ofWord (htonl ipAddr)) :=
  stringAt_set _ (length_inetNtop_lt _) (notMem_inetNtop (by decide) (by decide) _)

-----------------------------------------------------------------------------------------
-- From the server and from `accept` to the client
-----------------------------------------------------------------------------------------

/-- The endpoint of a `TcpServer`. -/
structure ServerEndpoint where
  ip : UInt32
  port : UInt16

/-- `TcpServer::TcpServer(ip, port, …)`. -/
def ServerEndpoint.create (ip : List Char) (port : UInt16) : ServerEndpoint :=
  { ip := networkCovertIpPToN ip, port }

/-- A `sockaddr_in`, both members of which are in network order. -/
structure SockaddrIn where
  sinAddr : UInt32
  sinPort : UInt16

/-- What `accept` stores for a peer. -/
def SockaddrIn.accepted (address : InAddr) (port : UInt16) : SockaddrIn :=
  { sinAddr := address.toWord, sinPort := htons port }

/-- The members of a `TcpClient` that `Display` reads. -/
structure ClientEndpoints where
  ip : UInt32
  port : UInt16
  srvIp : UInt32
  srvPort : UInt16

/-- The client that `ConnectionManager::StartThreadInternal` makes of a connection. -/
def ClientEndpoints.create (server : ServerEndpoint) (cAddr : SockaddrIn) : ClientEndpoints where
  ip := cAddr.sinAddr
  port := cAddr.sinPort
  srvIp := server.ip
  srvPort := server.port

-----------------------------------------------------------------------------------------
-- The printed line
-----------------------------------------------------------------------------------------

/-- The arguments of `printf` behind the format. -/
inductive DisplayArgument
  | ip
  | port
  | srvIp
  | srvPort
  deriving DecidableEq, Repr

/-- `printf("tcp client: [%s, %d] connected to [%s, %d]\n", …)`. -/
def displayLine (ip : List Char) (port : Nat) (srvIp : List Char) (srvPort : Nat) : List Char :=
  "tcp client: [".toList ++ ip ++ ',' :: ' ' :: decimal port ++ ']' :: " connected to [".toList
    ++ srvIp ++ ',' :: ' ' :: decimal srvPort ++ "]\n".toList

namespace ClientEndpoints

/-- What the evaluation of an argument leaves in `str_ip`. -/
def evaluate (client : ClientEndpoints) (strIp : List Char) : DisplayArgument → List Char
  | .ip => networkConvertIpNToP (htonl client.ip) strIp
  | .srvIp => networkConvertIpNToP (htonl client.srvIp) strIp
  | .port | .srvPort => strIp

/-- `TcpClient::Display`, with its arguments evaluated in the given order. Both address arguments
point to `str_ip`, which is read when all of them have been evaluated.
-/
def display (client : ClientEndpoints) (order : List DisplayArgument) (strIp : List Char)
    : List Char :=
  let strIp := order.foldl client.evaluate strIp
  displayLine (stringAt strIp) client.port.toNat (stringAt strIp) client.srvPort.toNat

end ClientEndpoints

/-- Whatever the order of evaluation, the line shows the peer in the first pair and the server
in the second one.
-/
def DisplaysEndpoints (server : InAddr) (serverPort : UInt16) (peer : InAddr) (peerPort : UInt16)
    : Prop :=
  ∀ order strIp, order.Perm [.ip, .port, .srvIp, .srvPort] →
    (ClientEndpoints.create (.create (inetNtop server) serverPort)
        (.accepted peer peerPort)).display order strIp
      = displayLine (inetNtop peer) peerPort.toNat (inetNtop server) serverPort.toNat

section Displaying

/-- Two lines with the same text around their pairs have the same addresses and first ports: the
characters behind an address and a port occur in neither.
-/
theorem pairs_inj {opening middle closing : List Char} {left right left' right' : InAddr}
    {port port' srvPort : Nat}
    (same : opening ++ inetNtop left ++ ',' :: ' ' :: decimal port ++ ']' :: middle
        ++ inetNtop right ++ ',' :: ' ' :: decimal srvPort ++ closing
      = opening ++ inetNtop left' ++ ',' :: ' ' :: decimal port' ++ ']' :: middle
        ++ inetNtop right' ++ ',' :: ' ' :: decimal srvPort ++ closing)
    : left = left' ∧ port = port' ∧ right = right' := by
  have comma (address : InAddr) : ',' ∉ inetNtop address :=
    notMem_inetNtop (by decide) (by decide) address
  have bracket (number : Nat) : ']' ∉ decimal number := notMem_decimal (by decide) number
  simp only [List.append_assoc, List.cons_append] at same
  obtain ⟨first, behind⟩ :=
    append_cons_inj (comma left) (comma left') (List.append_cancel_left same)
  obtain ⟨second, behind⟩ :=
    append_cons_inj (bracket port) (bracket port') (List.cons.inj behind).2
  obtain ⟨third, -⟩ :=
    append_cons_inj (comma right) (comma right') (List.append_cancel_left behind)
  exact ⟨inetNtop_inj first, decimal_inj second, inetNtop_inj third⟩

/-- A line shows its addresses and its first port. -/
theorem displayLine_inj {left right left' right' : InAddr} {port port' srvPort : Nat}
    (same : displayLine (inetNtop left) port (inetNtop right) srvPort
      = displayLine (inetNtop left') port' (inetNtop right') srvPort)
    : left = left' ∧ port = port' ∧ right = right' :=
  pairs_inj same

variable {server peer : InAddr} {serverPort peerPort : UInt16}

/-- The server's address is kept in the order of the host. -/
theorem srvIp_create (server : InAddr) (port : UInt16)
    : (ServerEndpoint.create (inetNtop server) port).ip = server.swapped.toWord := by
  simp only [ServerEndpoint.create, networkCovertIpPToN, inetPton_inetNtop, htonl_toWord]

/-- What the evaluation of the two address arguments leaves in `str_ip`. -/
theorem stringAt_evaluate (server peer : InAddr) (serverPort peerPort : UInt16)
    (strIp : List Char)
    : let client := ClientEndpoints.create (.create (inetNtop server) serverPort)
        (.accepted peer peerPort)
      stringAt (client.evaluate strIp .ip) = inetNtop peer
      ∧ stringAt (client.evaluate strIp .srvIp) = inetNtop server.swapped := by
  simp only [ClientEndpoints.evaluate, ClientEndpoints.create, srvIp_create, SockaddrIn.accepted,
    stringAt_networkConvertIpNToP, htonl_toWord, InAddr.swapped_swapped, InAddr.ofWord_toWord,
    and_self]

/-- Both orders of the address arguments give the endpoints only if these agree. -/
theorem DisplaysEndpoints.agree (displays : DisplaysEndpoints server serverPort peer peerPort)
    : peer = server ∧ server.swapped = server ∧ htons peerPort = peerPort := by
  have peerLast := displays [.srvIp, .srvPort, .port, .ip] [] (by decide)
  have serverLast := displays [.ip, .port, .srvPort, .srvIp] [] (by decide)
  have texts := stringAt_evaluate server peer serverPort peerPort
  simp only [ClientEndpoints.display, List.foldl_cons, List.foldl_nil, (texts _).1, (texts _).2]
    at peerLast serverLast
  obtain ⟨-, port, same⟩ := displayLine_inj peerLast
  obtain ⟨-, -, palindrome⟩ := displayLine_inj serverLast
  exact ⟨same, palindrome, UInt16.toNat_inj.mp port⟩

/-- Once the text of an address argument is in `str_ip`, it stays; by induction on the arguments.
-/
theorem stringAt_foldl (palindrome : server.swapped = server) {order : List DisplayArgument}
    {strIp : List Char} (shown : stringAt strIp = inetNtop server ∨ .ip ∈ order)
    : stringAt
        (order.foldl
          (ClientEndpoints.create (.create (inetNtop server) serverPort)
            (.accepted server peerPort)).evaluate strIp)
      = inetNtop server := by
  have texts := stringAt_evaluate server server serverPort peerPort
  induction order generalizing strIp with
  | nil =>
      rcases shown with shown | member
      · exact shown
      · cases member
  | cons argument rest ih =>
      rw [List.foldl_cons]
      apply ih
      cases argument with
      | ip => exact .inl (texts strIp).1
      | srvIp =>
          have text := (texts strIp).2
          rw [palindrome] at text
          exact .inl text
      | port | srvPort =>
          rcases shown with shown | member
          · exact .inl shown
          · exact .inr ((List.mem_cons.mp member).resolve_left (by decide))

/-- The line shows both endpoints exactly when they have the same address, which reads the same
backwards, and both bytes of the peer's port are equal.
-/
theorem displaysEndpoints_iff (server : InAddr) (serverPort : UInt16) (peer : InAddr)
    (peerPort : UInt16)
    : DisplaysEndpoints server serverPort peer peerPort
      ↔ peer = server ∧ server.swapped = server ∧ htons peerPort = peerPort := by
  refine ⟨DisplaysEndpoints.agree, ?_⟩
  rintro ⟨rfl, palindrome, port⟩ order strIp permuted
  have member : DisplayArgument.ip ∈ order := permuted.mem_iff.mpr (by decide)
  simp only [ClientEndpoints.display, stringAt_foldl palindrome (.inr member)]
  simp only [ClientEndpoints.create, SockaddrIn.accepted, ServerEndpoint.create, port]

end Displaying

/-- A peer of the local network at a server on the loopback interface. -/
theorem not_displaysEndpoints_loopback
    : ¬ DisplaysEndpoints ⟨127, 0, 0, 1⟩ 40000 ⟨192, 168, 0, 7⟩ 50123 := by
  intro displays
  exact absurd displays.agree.1 (by decide)

end Ethnm
