import Ethnm.Programs.Tcpsrv

/-! The test client `tcpclistr` at the server `tcpsrv`. It sends two texts for ever, which TCP cuts
up anywhere. When it is the only client, the server prints the texts as they come, in pieces, as
long as no piece fills the receive buffer.
-/

namespace Ethnm
open DottedText ListCursor

namespace Tcpclistr

/-- The bytes of a text, without its zero. -/
def bytesOf (text : String) : List UInt8 :=
  text.toList.map (fun char => .ofNat char.toNat)

def msg1 : List UInt8 := bytesOf "Hello Abhishek, "
def msg2 : List UInt8 := bytesOf "how are you"

/-- What the loop of `setup_tcp_communication` gives to `sendto` in so many turns. -/
def setupTcpCommunication : Nat → List (List UInt8)
  | 0 => []
  | turns + 1 => msg1 :: msg2 :: setupTcpCommunication turns

/-- The bytes that are sent in so many turns. -/
def sentBytes (turns : Nat) : List UInt8 :=
  (setupTcpCommunication turns).flatten

/-- The texts are sent without their zeros; by induction on the turns. -/
theorem zero_notMem_sentBytes (turns : Nat) : 0 ∉ sentBytes turns := by
  induction turns with
  | zero => exact List.not_mem_nil
  | succ turns ih =>
      have first : 0 ∉ msg1 := by decide
      have second : 0 ∉ msg2 := by decide
      rw [sentBytes, setupTcpCommunication, List.flatten_cons, List.flatten_cons]
      exact List.not_mem_append first (List.not_mem_append second ih)

end Tcpclistr

/-- What `ReceivedListener` prints for a chunk at the start of a buffer of zeros: the chunk, unless
it fills the buffer and the string has no end.
-/
def chunkPrinted (chunk : List UInt8) : Option (List Char) :=
  if chunk.length < kBufferSize then some (receivedLine chunk.length chunk) else none

section OneClient

variable {objects : Address → Option TcpClient} {client : Address} {fd fuel : Nat}
  {service : Service} {round : Round}

/-- A string that begins with these bytes ends behind them, if there is room for a zero. -/
theorem receivedListener_padded {chunk : List UInt8} (clean : 0 ∉ chunk)
    (sized : chunk.length ≤ kBufferSize)
    : receivedListener (chunk ++ List.replicate (kBufferSize - chunk.length) 0)
        (.ofInt chunk.length)
      = chunkPrinted chunk := by
  rw [receivedListener, toNat_ofInt_length sized, chunkPrinted]
  split
  · rename_i within
    obtain ⟨count, more⟩ : ∃ count, kBufferSize - chunk.length = count + 1 :=
      Nat.exists_eq_succ_of_ne_zero (by omega)
    rw [more, List.replicate_succ, cString_append clean]
    rfl
  · rename_i full
    have none : kBufferSize - chunk.length = 0 := by omega
    rw [none, List.replicate_zero, List.append_nil, cString, if_neg clean]
    rfl

/-- A round with a single client, over a cleared buffer, prints its chunk and clears the buffer
again.
-/
theorem serveRounds_cons_single (present : service.objects client = some ⟨fd, none⟩)
    (passive : ∀ buf, (round.around 0).received 0 buf = buf)
    (cleared : service.data = List.replicate kBufferSize 0)
    (nonempty : round.chunk 0 fd [] ≠ []) (clean : 0 ∉ round.chunk 0 fd []) (rest : List Round)
    : ∃ next call,
        serveRounds true fuel [client] (round :: rest) service
          = serveRounds true fuel [client] rest next
        ∧ next.objects = service.objects
        ∧ next.data = List.replicate kBufferSize 0
        ∧ next.invocations = service.invocations ++ [call]
        ∧ call.printed = chunkPrinted (round.chunk 0 fd []) := by
  obtain ⟨ready, sized, result⟩ := Round.bytes_of_chunk nonempty
  generalize round.chunk 0 fd [] = chunk at nonempty clean sized result
  have received : service.receive round 0 fd
      = {
        service with
        data := chunk ++ List.replicate (kBufferSize - chunk.length) 0
        dataLen := chunk.length
      } := by
    rw [Service.receive, if_pos ready, result, Recvfrom.fill, Recvfrom.dataLen, cleared,
      List.drop_replicate]
  let data := chunk ++ List.replicate (kBufferSize - chunk.length) 0
  let call : Invocation := { round, turn := 0, client, data, size := .ofInt chunk.length }
  let served : Service :=
    {
      service with
      data
      dataLen := chunk.length
      invocations := service.invocations ++ [call]
      heard := service.heard ++ [{ client, msg := data, len := .ofInt chunk.length }]
    }
  have turns : serveClients true fuel round 0 [client] service = .ok served := by
    have turn : serveClient true fuel round 0 client service = .ok served := by
      simp only [serveClient, present, received, passive, if_true]
      rfl
    rw [serveClients, turn]
    rfl
  have emptied : List.replicate chunk.length 0 ++ data.drop chunk.length
      = List.replicate kBufferSize 0 := by
    rw [List.drop_left, List.replicate_append_replicate]
    congr 1
    omega
  have clears : served.clear = .ok { served with data := List.replicate kBufferSize 0 } := by
    have room : chunk.length ≤ served.data.length := by
      change _ ≤ (chunk ++ _).length
      rw [List.length_append]
      exact Nat.le_add_right _ _
    have count : served.dataLen.toNat = chunk.length := Int.toNat_natCast _
    rw [Service.clear, count, if_pos ⟨Int.natCast_nonneg _, room⟩]
    exact congrArg (fun data => (.ok { served with data } : ServiceOutcome)) emptied
  refine ⟨{ served with data := List.replicate kBufferSize 0 }, call, ?_, rfl, rfl, rfl, ?_⟩
  · rw [serveRounds, turns]
    change (served.clear >>= _) = _
    rw [clears]
    rfl
  · exact receivedListener_padded clean sized

/-- Rounds with a single client print its chunks, each on its own; by induction on the rounds. -/
theorem serveRounds_single (fuel : Nat) {rounds : List Round} {service : Service}
    (present : service.objects client = some ⟨fd, none⟩)
    (passive : ∀ round ∈ rounds, ∀ buf, (round.around 0).received 0 buf = buf)
    (cleared : service.data = List.replicate kBufferSize 0)
    (nonempty : ∀ round ∈ rounds, round.chunk 0 fd [] ≠ [])
    (clean : ∀ round ∈ rounds, 0 ∉ round.chunk 0 fd [])
    : ∃ last,
        serveRounds true fuel [client] rounds service = .ok last
        ∧ last.invocations.map Invocation.printed
          = service.invocations.map Invocation.printed
            ++ rounds.map (fun round => chunkPrinted (round.chunk 0 fd [])) := by
  induction rounds generalizing service with
  | nil => exact ⟨service, rfl, (List.append_nil _).symm⟩
  | cons round rest ih =>
      obtain ⟨passiveNow, passiveLater⟩ := List.forall_mem_cons.mp passive
      obtain ⟨nonemptyNow, nonemptyLater⟩ := List.forall_mem_cons.mp nonempty
      obtain ⟨cleanNow, cleanLater⟩ := List.forall_mem_cons.mp clean
      obtain ⟨next, call, goes, objects, emptied, calls, printed⟩ :=
        @serveRounds_cons_single _ _ fuel _ _ present passiveNow cleared nonemptyNow cleanNow rest
      obtain ⟨last, returned, prints⟩ :=
        ih (objects ▸ present) passiveLater emptied nonemptyLater cleanLater
      refine ⟨last, goes.trans returned, ?_⟩
      rw [prints, calls, List.map_append, List.map_cons, List.map_nil, printed, List.map_cons,
        List.append_assoc]
      rfl

end OneClient

/-- When `tcpclistr` is the only client of `tcpsrv`, every round prints what it has received, with
its length, however TCP cuts up what is sent; only a chunk that fills the receive buffer is
printed past its end.
-/
theorem tcpclistr_printed {objects : Address → Option TcpClient} {client : Address} {fd : Nat}
    (plain : objects client = some ⟨fd, none⟩) {rounds : List Round}
    (passive : ∀ round ∈ rounds, round.Passive objects [client])
    (nonempty : ∀ round ∈ rounds, round.chunk 0 fd [] ≠ []) {turns : Nat}
    (sent : (rounds.map (fun round => round.chunk 0 fd [])).flatten <+: Tcpclistr.sentBytes turns)
    (fuel : Nat) (dataLen : Int)
    : ∃ last,
        serveRounds true fuel [client] rounds
            (.start objects (List.replicate kBufferSize 0) dataLen)
          = .ok last
        ∧ last.invocations.map Invocation.printed
          = rounds.map (fun round => chunkPrinted (round.chunk 0 fd [])) := by
  have clean (round : Round) (member : round ∈ rounds) : 0 ∉ round.chunk 0 fd [] := by
    intro zero
    refine Tcpclistr.zero_notMem_sentBytes turns (sent.subset (List.mem_flatten.mpr ?_))
    exact ⟨_, List.mem_map.mpr ⟨round, member, rfl⟩, zero⟩
  exact serveRounds_single fuel plain
    (fun round member => passive round member 0 client fd rfl plain) rfl nonempty clean

/-- A round in which the only client is sent some of the first turn's bytes. -/
def pieceRound (position length : Nat) : Round where
  activeFdSet := fun _ => true
  recvfrom := fun _ =>
    .bytes ((((Tcpclistr.sentBytes 1).drop position).take length).take kBufferSize)
      (List.length_take_le _ _)
  around := fun _ => .holding 0 0

/-- The two texts of a turn arrive in two other pieces, and are printed as these. -/
theorem tcpclistr_printed_pieces
    : ∃ last,
        serveRounds true 0 [1] [pieceRound 0 19, pieceRound 19 8]
            (.start plainObjects (List.replicate kBufferSize 0) 0)
          = .ok last
        ∧ last.invocations.map Invocation.printed
          = [
            some (receivedLine 19 (Tcpclistr.bytesOf "Hello Abhishek, how")),
            some (receivedLine 8 (Tcpclistr.bytesOf " are you"))
          ] := by
  have passive : ∀ round ∈ [pieceRound 0 19, pieceRound 19 8],
      round.Passive plainObjects [1] := by
    intro round member turn client fd _ _ buf
    simp only [List.mem_cons, List.not_mem_nil, or_false] at member
    rcases member with rfl | rfl <;> rfl
  obtain ⟨last, returned, printed⟩ := tcpclistr_printed (by rfl) passive (by decide)
    (by decide : _ <+: Tcpclistr.sentBytes 1) 0 0
  exact ⟨last, returned, printed⟩

end Ethnm
