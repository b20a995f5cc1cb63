import Ethnm.Clients.Isolation
import Ethnm.Delimiter.Records
import Ethnm.Delimiter.Containment

/-! The service thread as many delimiters, each on its own. All clients of a round share the
receive buffer, so a client is handed what was received in its own turn or, if it was not
ready, what an earlier turn has left; apart from that no client depends on another.
-/

namespace Ethnm
open ListCursor

-----------------------------------------------------------------------------------------
-- What is handed to each client
-----------------------------------------------------------------------------------------

/-- What `recvfrom` has stored; nothing when it has failed. -/
def Recvfrom.stored : Recvfrom → List UInt8
  | .error => []
  | .bytes stored _ => stored

/-- The bytes that a turn gives to a client's handler. -/
structure HandOver where
  client : Address
  around : Surroundings
  chunk : List UInt8

/-- A hand-over as the delimiter sees it, unless there is nothing in it. -/
def HandOver.arrival (handOver : HandOver) : Option Arrival :=
  if sizes : 0 < handOver.chunk.length ∧ handOver.chunk.length ≤ kBufferSize then
    some ⟨handOver.chunk, handOver.around, sizes.1, sizes.2⟩
  else
    none

/-- The chunks for one client. -/
def arrivalsOf (client : Address) (handOvers : List HandOver) : List Arrival :=
  handOvers.filterMap (fun handOver =>
    if handOver.client = client then handOver.arrival else none)

/-- A client that is ready gets what it has sent, and any other one what is left. -/
def Round.chunk (round : Round) (turn fd : Nat) (left : List UInt8) : List UInt8 :=
  if round.activeFdSet fd then (round.recvfrom turn).stored else left

/-- What a turn has received at all was given by a socket that was ready. -/
theorem Round.bytes_of_chunk {round : Round} {turn fd : Nat}
    (nonempty : round.chunk turn fd [] ≠ [])
    : round.activeFdSet fd = true
      ∧ ∃ sized, round.recvfrom turn = .bytes (round.chunk turn fd []) sized := by
  unfold Round.chunk at nonempty ⊢
  split at nonempty
  · rename_i ready
    rw [if_pos ready]
    refine ⟨ready, ?_⟩
    cases result : round.recvfrom turn with
    | error =>
        rw [result] at nonempty
        exact absurd rfl nonempty
    | bytes stored sized => exact ⟨sized, rfl⟩
  · exact absurd rfl nonempty

/-- What a turn hands to its client. -/
def Round.handOver (round : Round) (turn : Nat) (client : Address) (fd : Nat)
    (left : List UInt8)
    : HandOver where
  client := client
  around := round.around turn
  chunk := round.chunk turn fd left

/-- The hand-overs of a round from some turn on, and what they leave. -/
def Round.handOvers (fds : Address → Nat) (round : Round)
    : Nat → List UInt8 → List Address → List HandOver × List UInt8
  | _, left, [] => ([], left)
  | turn, left, client :: rest =>
      let handOver := round.handOver turn client (fds client) left
      let (later, last) := Round.handOvers fds round (turn + 1) handOver.chunk rest
      (handOver :: later, last)

/-- The hand-overs of a run. Each round ends with `memset`. -/
def handOvers (fds : Address → Nat) (clients : List Address)
    : List UInt8 → List Round → List HandOver
  | _, [] => []
  | left, round :: rest =>
      let (turns, last) := round.handOvers fds 0 left clients
      turns ++ handOvers fds clients (List.replicate last.length 0) rest

/-- The descriptors of the clients. -/
def fdsOf (objects : Address → Option TcpClient) (client : Address) : Nat :=
  ((objects client).map TcpClient.fd).getD 0

/-- A client whose delimiter has been fed with these chunks, and nothing else. -/
def TcpClient.fed (fuel : Nat) (arrivals : List Arrival) (object : TcpClient)
    : Except (Stop × Progress) TcpClient :=
  match object.msgDelimiter with
  | none => .ok object
  | some (framing, delimiter) => do
      let progress ← feed framing fuel delimiter.unrecorded arrivals
      return { object with msgDelimiter := some (framing, progress.delimiter) }

/-- The call as a hand-over. -/
def Invocation.handOver (invocation : Invocation) : HandOver where
  client := invocation.client
  around := invocation.round.around invocation.turn
  chunk := invocation.data.take invocation.size.toNat

instance (registered : Bool) (client : TcpClient) : Decidable (client.Handled registered) :=
  inferInstanceAs (Decidable (_ ∨ _))

/-- Where there are delimiters, the application listens to what they deliver. -/
def Listened (objects : Address → Option TcpClient) (registered : Bool) : Prop :=
  ∀ client fd handler, objects client = some ⟨fd, some handler⟩ → registered = true

/-- Some handler is called for the client. -/
def handles (objects : Address → Option TcpClient) (registered : Bool) (handOver : HandOver)
    : Bool :=
  (objects handOver.client).any (fun object => decide (object.Handled registered))

-----------------------------------------------------------------------------------------
-- The chunks of one client
-----------------------------------------------------------------------------------------

theorem arrivalsOf_append (client : Address) (first second : List HandOver)
    : arrivalsOf client (first ++ second)
      = arrivalsOf client first ++ arrivalsOf client second :=
  List.filterMap_append

/-- A hand-over to another client does not matter. -/
theorem arrivalsOf_concat_ne {client : Address} {handOver : HandOver}
    (other : handOver.client ≠ client) (first : List HandOver)
    : arrivalsOf client (first ++ [handOver]) = arrivalsOf client first := by
  rw [arrivalsOf_append, arrivalsOf, arrivalsOf, List.filterMap_cons, if_neg other,
    List.filterMap_nil, List.append_nil]

/-- A hand-over to the client is its next chunk. -/
theorem arrivalsOf_concat_self {handOver : HandOver} (nonempty : 0 < handOver.chunk.length)
    (sized : handOver.chunk.length ≤ kBufferSize) (first : List HandOver)
    : arrivalsOf handOver.client (first ++ [handOver])
      = arrivalsOf handOver.client first
        ++ [⟨handOver.chunk, handOver.around, nonempty, sized⟩] := by
  rw [arrivalsOf_append, arrivalsOf, arrivalsOf, List.filterMap_cons, if_pos rfl,
    HandOver.arrival, dif_pos ⟨nonempty, sized⟩, List.filterMap_nil]

/-- What a delimiter stopped at, it stops at also when more is to come. -/
theorem TcpClient.fed_append_error {fuel : Nat} {object : TcpClient} {first : List Arrival}
    {stop : Stop × Progress} (stopped : object.fed fuel first = .error stop)
    (second : List Arrival)
    : object.fed fuel (first ++ second) = .error stop := by
  obtain ⟨fd, handler⟩ := object
  cases handler with
  | none => cases stopped
  | some handler =>
      simp only [TcpClient.fed, feed_append] at stopped ⊢
      cases result : feed handler.1 fuel handler.2.unrecorded first with
      | error other =>
          rw [result] at stopped
          exact stopped
      | ok progress =>
          rw [result] at stopped
          cases stopped

-----------------------------------------------------------------------------------------
-- What a run keeps
-----------------------------------------------------------------------------------------

/-- The loop returned something good, or it stopped and something bad is known. -/
def ServiceOutcome.Meets (good : Service → Prop) (bad : Prop) : ServiceOutcome → Prop
  | .ok service => good service
  | .error _ => bad

theorem ServiceOutcome.Meets.imp {good : Service → Prop} {bad bad' : Prop}
    {outcome : ServiceOutcome} (meets : outcome.Meets good bad) (stopped : bad → bad')
    : outcome.Meets good bad' := by
  cases outcome with
  | error stop => exact stopped meets
  | ok service => exact meets

/-- What both parts meet, they meet one after the other. -/
theorem ServiceOutcome.Meets.bind {good good' : Service → Prop} {bad : Prop}
    {outcome : ServiceOutcome} {next : Service → ServiceOutcome}
    (first : outcome.Meets good bad)
    (second : ∀ service, good service → (next service).Meets good' bad)
    : ServiceOutcome.Meets good' bad (outcome >>= next) := by
  cases outcome with
  | error stop => exact first
  | ok service => exact second service first

/-- The receive buffer shows these bytes, if any. -/
structure Service.Holds (left : List UInt8) (service : Service) : Prop where
  room : service.data.length = kBufferSize
  shown : left ≠ [] → service.dataLen = left.length ∧ service.data.take left.length = left

/-- Each client is what it was at first, fed with what was handed to it; and the calls were
those hand-overs.
-/
structure Service.Follows (objects : Address → Option TcpClient) (registered : Bool)
    (fuel : Nat) (done : List HandOver) (left : List UInt8) (service : Service) : Prop
    extends Service.Holds left service where
  same : ∀ client object, objects client = some object →
    ∃ now, object.fed fuel (arrivalsOf client done) = .ok now
      ∧ service.objects client = some now
  calls : service.invocations.map Invocation.handOver = done.filter (handles objects registered)

/-- The delimiter of some client stops at what was handed to it. -/
def Stuck (objects : Address → Option TcpClient) (fuel : Nat) (done : List HandOver) : Prop :=
  ∃ client object stop, objects client = some object
    ∧ object.fed fuel (arrivalsOf client done) = .error stop

theorem Stuck.append {objects : Address → Option TcpClient} {fuel : Nat}
    {first : List HandOver} (stuck : Stuck objects fuel first) (second : List HandOver)
    : Stuck objects fuel (first ++ second) := by
  obtain ⟨client, object, stop, present, stopped⟩ := stuck
  refine ⟨client, object, stop, present, ?_⟩
  rw [arrivalsOf_append]
  exact TcpClient.fed_append_error stopped _

section Turns

variable {objects : Address → Option TcpClient} {registered : Bool} {fuel : Nat}
  {done : List HandOver} {left : List UInt8} {service : Service} {round : Round} {turn : Nat}
  {client : Address} {object : TcpClient}

/-- What the buffer shows fits in it. -/
theorem Service.Holds.sized (holds : service.Holds left) (nonempty : left ≠ [])
    : left.length ≤ kBufferSize := by
  have short := congrArg List.length (holds.shown nonempty).2
  rw [List.length_take, holds.room] at short
  omega

/-- After `recvfrom`, or without it, the buffer shows the turn's chunk. -/
theorem Service.Holds.receive (holds : service.Holds left) (round : Round) (turn fd : Nat)
    : (service.receive round turn fd).Holds (round.chunk turn fd left) := by
  unfold Service.receive Round.chunk
  split
  · refine ⟨Recvfrom.length_fill _ holds.room, fun nonempty => ?_⟩
    cases result : round.recvfrom turn with
    | error =>
        rw [result] at nonempty
        exact absurd rfl nonempty
    | bytes stored sized => exact ⟨rfl, List.take_left⟩
  · exact holds

/-- The call is given what the buffer shows. -/
theorem Service.Holds.handOver (holds : service.Holds left) (nonempty : left ≠ [])
    (round : Round) (turn : Nat) (client : Address)
    : Invocation.handOver
          { round, turn, client, data := service.data, size := .ofInt service.dataLen }
      = { client, around := round.around turn, chunk := left } := by
  obtain ⟨dataLen, shown⟩ := holds.shown nonempty
  rw [Invocation.handOver, dataLen, toNat_ofInt_length (holds.sized nonempty), shown]

/-- A length that fits is the same as a size, whichever way it is converted. -/
theorem ofInt_length {length : Nat} (fits : length ≤ kBufferSize)
    : UInt16.ofInt length = .ofNat length := by
  refine UInt16.toNat_inj.mp ?_
  rw [toNat_ofInt_length fits, UInt16.toNat_ofNat', Nat.mod_eq_of_lt]
  unfold kBufferSize at fits
  omega

/-- The delimiter is called as if the chunk was all that the buffer holds. -/
theorem Service.Holds.process (holds : service.Holds left) (nonempty : left ≠ [])
    (framing : Framing) (fuel : Nat) (around : Surroundings) (progress : Progress)
    : process framing fuel around progress service.data (.ofInt service.dataLen)
      = process framing fuel around progress left (.ofNat left.length) := by
  obtain ⟨dataLen, shown⟩ := holds.shown nonempty
  have sized := holds.sized nonempty
  rw [dataLen, ← process_take, toNat_ofInt_length sized, shown, ofInt_length sized]

/-- A client that was handed one more chunk is one whose delimiter has made one more call. -/
theorem TcpClient.fed_concat {fd : Nat} {framing : Framing} {delimiter : MsgDelimiter}
    {progress : Progress} {arrivals : List Arrival}
    (fed : feed framing fuel delimiter.unrecorded arrivals = .ok progress) (arrival : Arrival)
    : TcpClient.fed fuel (arrivals ++ [arrival]) ⟨fd, some (framing, delimiter)⟩
      = (do
          let next ← process framing fuel arrival.around progress arrival.chunk
            (.ofNat arrival.chunk.length)
          return ⟨fd, some (framing, next.delimiter)⟩) := by
  rw [← feed_concat fed]
  rfl

/-- Another client's turn does not matter to a client. -/
theorem Service.Follows.others (follows : service.Follows objects registered fuel done left)
    {handOver : HandOver} {other : Address} (differs : handOver.client ≠ other)
    {now : TcpClient} (present : objects other = some now)
    : ∃ next, now.fed fuel (arrivalsOf other (done ++ [handOver])) = .ok next
        ∧ service.objects other = some next := by
  rw [arrivalsOf_concat_ne differs]
  exact follows.same other now present

/-- A call for a client with a handler is one more hand-over. -/
theorem Service.Follows.calls_concat
    (follows : service.Follows objects registered fuel done left)
    (present : objects client = some object) (handled : object.Handled registered)
    {invocation : Invocation} {handOver : HandOver} (given : invocation.handOver = handOver)
    (receiver : handOver.client = client)
    : (service.invocations ++ [invocation]).map Invocation.handOver
      = (done ++ [handOver]).filter (handles objects registered) := by
  have counted : handles objects registered handOver = true := by
    rw [handles, receiver, present, Option.any_some]
    exact decide_eq_true handled
  rw [List.map_append, List.filter_append, follows.calls, List.filter_cons_of_pos counted,
    List.map_singleton, given, List.filter_nil]

/-- A turn for a client with a delimiter is a call of its delimiter on the turn's chunk. -/
theorem Service.Follows.turn_delimiter
    (follows : service.Follows objects registered fuel done left) (listens : registered = true)
    {fd : Nat} {framing : Framing} {delimiter : MsgDelimiter}
    (present : objects client = some ⟨fd, some (framing, delimiter)⟩)
    {handOver : HandOver} (handed : round.handOver turn client fd left = handOver)
    (nonempty : handOver.chunk ≠ [])
    : (serveClient registered fuel round turn client service).Meets
        (Service.Follows objects registered fuel (done ++ [handOver]) handOver.chunk)
        (Stuck objects fuel (done ++ [handOver])) := by
  obtain ⟨now, fed, current⟩ := follows.same client _ present
  obtain ⟨progress, returned, rest⟩ := Runs.bind_eq_ok.mp fed
  cases rest
  have holds : (service.receive round turn fd).Holds handOver.chunk :=
    handed ▸ follows.toHolds.receive round turn fd
  have sized := holds.sized nonempty
  have positive := List.length_pos_iff.mpr nonempty
  have receiver : handOver.client = client := handed ▸ rfl
  have around : handOver.around = round.around turn := handed ▸ rfl
  have arrivals := arrivalsOf_concat_self positive sized done
  have next := @TcpClient.fed_concat fuel fd _ _ _ _ returned
    ⟨handOver.chunk, handOver.around, positive, sized⟩
  have call := holds.process nonempty framing fuel (round.around turn)
    progress.delimiter.unrecorded
  rw [receiver] at arrivals
  rw [← arrivals, process_eq_unrecorded, around, ← call, MsgDelimiter.unrecorded] at next
  subst listens
  simp only [serveClient, current, Service.invoke, Bool.true_eq_false, false_and, if_false]
  cases result : process framing fuel (round.around turn)
      { delimiter := progress.delimiter, asked := [], iterations := [] }
      (service.receive round turn fd).data
      (.ofInt (service.receive round turn fd).dataLen) with
  | error stop =>
      rw [result] at next
      exact ⟨client, _, _, present, next⟩
  | ok last =>
      rw [result] at next
      refine ⟨⟨holds.room, holds.shown⟩, fun other object live => ?_, ?_⟩
      · by_cases self : other = client
        · subst self
          rw [present, Option.some.injEq] at live
          subst live
          exact ⟨_, next, if_pos rfl⟩
        · obtain ⟨after, fed, same⟩ := follows.others (receiver ▸ Ne.symm self) live
          refine ⟨after, fed, (if_neg self).trans ?_⟩
          exact (congrFun (Service.objects_receive ..) other).trans same
      · change List.map Invocation.handOver ((service.receive round turn fd).invocations ++ [_])
          = _
        rw [Service.invocations_receive]
        refine follows.calls_concat present (.inl rfl) ?_ receiver
        rw [holds.handOver nonempty, ← handed]
        rfl

/-- A turn for a client without a delimiter leaves all clients alone. -/
theorem Service.Follows.turn_plain
    (follows : service.Follows objects registered fuel done left) {fd : Nat}
    (present : objects client = some ⟨fd, none⟩)
    (passive : ∀ buf, (round.around turn).received 0 buf = buf)
    {handOver : HandOver} (handed : round.handOver turn client fd left = handOver)
    (nonempty : handOver.chunk ≠ [])
    : (serveClient registered fuel round turn client service).Meets
        (Service.Follows objects registered fuel (done ++ [handOver]) handOver.chunk)
        (Stuck objects fuel (done ++ [handOver])) := by
  obtain ⟨now, fed, current⟩ := follows.same client _ present
  cases fed
  have holds : (service.receive round turn fd).Holds handOver.chunk :=
    handed ▸ follows.toHolds.receive round turn fd
  have receiver : handOver.client = client := handed ▸ rfl
  have same : ∀ other object, objects other = some object →
      ∃ now, object.fed fuel (arrivalsOf other (done ++ [handOver])) = .ok now
        ∧ (service.receive round turn fd).objects other = some now := by
    intro other object live
    rw [Service.objects_receive]
    by_cases self : handOver.client = other
    · rw [← self, receiver, present, Option.some.injEq] at live
      subst live
      rw [← self, receiver]
      exact ⟨_, rfl, current⟩
    · exact follows.others self live
  simp only [serveClient, current]
  by_cases listens : registered = true
  · rw [if_pos listens, passive]
    refine ⟨⟨holds.room, holds.shown⟩, same, ?_⟩
    change List.map Invocation.handOver ((service.receive round turn fd).invocations ++ [_]) = _
    rw [Service.invocations_receive]
    refine follows.calls_concat present (.inr listens) ?_ receiver
    rw [holds.handOver nonempty, ← handed]
    rfl
  · rw [if_neg listens]
    refine ⟨holds, same, ?_⟩
    have silent : handles objects registered handOver = false := by
      rw [handles, receiver, present, Option.any_some]
      exact decide_eq_false (by simp [TcpClient.Handled, listens])
    rw [Service.invocations_receive, List.filter_append, follows.calls,
      List.filter_cons_of_neg (by rw [silent]; exact Bool.false_ne_true), List.filter_nil,
      List.append_nil]

/-- The application leaves the receive buffer alone, as far as it is given it. -/
def Round.Passive (objects : Address → Option TcpClient) (clients : List Address)
    (round : Round)
    : Prop :=
  ∀ turn client fd, clients[turn]? = some client → objects client = some ⟨fd, none⟩ →
    ∀ buf, (round.around turn).received 0 buf = buf

/-- A turn hands its chunk to its client. -/
theorem Service.Follows.after_turn {clients : List Address}
    (follows : service.Follows objects registered fuel done left)
    (position : clients[turn]? = some client) (live : (objects client).isSome)
    (passive : round.Passive objects clients) (listened : Listened objects registered)
    {handOver : HandOver}
    (handed : round.handOver turn client (fdsOf objects client) left = handOver)
    (nonempty : handOver.chunk ≠ [])
    : (serveClient registered fuel round turn client service).Meets
        (Service.Follows objects registered fuel (done ++ [handOver]) handOver.chunk)
        (Stuck objects fuel (done ++ [handOver])) := by
  obtain ⟨⟨fd, handler⟩, present⟩ := Option.isSome_iff_exists.mp live
  rw [fdsOf, present] at handed
  cases handler with
  | none =>
      exact follows.turn_plain present (passive turn client fd position present) handed nonempty
  | some handler =>
      exact follows.turn_delimiter (listened client fd handler present) present handed nonempty

/-- A round hands its chunks to its clients, by induction on those still to be served. -/
theorem Service.Follows.after_round {clients rest : List Address}
    (live : ∀ client ∈ clients, (objects client).isSome)
    (passive : round.Passive objects clients) (listened : Listened objects registered)
    (follows : service.Follows objects registered fuel done left)
    (position : clients.drop turn = rest)
    (nonempty
      : ∀ handOver ∈ (round.handOvers (fdsOf objects) turn left rest).1, handOver.chunk ≠ [])
    : (serveClients registered fuel round turn rest service).Meets
        (Service.Follows objects registered fuel
          (done ++ (round.handOvers (fdsOf objects) turn left rest).1)
          (round.handOvers (fdsOf objects) turn left rest).2)
        (Stuck objects fuel (done ++ (round.handOvers (fdsOf objects) turn left rest).1)) := by
  induction rest generalizing turn service done left with
  | nil =>
      rw [Round.handOvers, List.append_nil]
      exact follows
  | cons client rest ih =>
      rw [Round.handOvers] at nonempty ⊢
      have here := getElem?_of_drop_eq_cons position
      have first := follows.after_turn here (live client (List.mem_of_getElem? here)) passive
        listened rfl (nonempty _ List.mem_cons_self)
      rw [List.append_cons]
      refine ServiceOutcome.Meets.bind (first.imp fun stuck => stuck.append _) ?_
      intro served next
      exact ih next (drop_succ_of_drop_eq_cons position)
        (fun handOver member => nonempty handOver (.tail _ member))

/-- A round leaves what its last turn has handed over, by induction on the turns. -/
theorem Round.left_ne_nil {fds : Address → Nat} {rest : List Address}
    (some : left ≠ [] ∨ rest ≠ [])
    (nonempty : ∀ handOver ∈ (round.handOvers fds turn left rest).1, handOver.chunk ≠ [])
    : (round.handOvers fds turn left rest).2 ≠ [] := by
  induction rest generalizing turn left with
  | nil => exact some.resolve_right (fun none => none rfl)
  | cons client rest ih =>
      rw [Round.handOvers] at nonempty ⊢
      exact ih (.inl (nonempty _ List.mem_cons_self))
        (fun handOver member => nonempty handOver (.tail _ member))

/-- `memset` clears what the buffer shows, and nothing else. -/
theorem Service.Follows.after_clear
    (follows : service.Follows objects registered fuel done left) (nonempty : left ≠ [])
    : service.clear.Meets
        (Service.Follows objects registered fuel done (List.replicate left.length 0))
        (Stuck objects fuel done) := by
  obtain ⟨dataLen, -⟩ := follows.shown nonempty
  have sized := follows.toHolds.sized nonempty
  have count : service.dataLen.toNat = left.length := by rw [dataLen, Int.toNat_natCast]
  have room := follows.room
  rw [Service.clear, count, if_pos ⟨by omega, by omega⟩]
  refine ⟨⟨?_, fun _ => ?_⟩, follows.same, follows.calls⟩
  · change (List.replicate _ 0 ++ service.data.drop _).length = _
    rw [List.length_append, List.length_replicate, List.length_drop]
    omega
  · rw [List.length_replicate]
    exact ⟨dataLen, List.take_left' List.length_replicate⟩

/-- A run hands its chunks to its clients, by induction on the rounds. -/
theorem Service.Follows.after_rounds {clients : List Address} (someone : clients ≠ [])
    (live : ∀ client ∈ clients, (objects client).isSome) {rounds : List Round}
    (passive : ∀ round ∈ rounds, round.Passive objects clients)
    (listened : Listened objects registered)
    (follows : service.Follows objects registered fuel done left)
    (nonempty
      : ∀ handOver ∈ handOvers (fdsOf objects) clients left rounds, handOver.chunk ≠ [])
    : (serveRounds registered fuel clients rounds service).Meets
        (fun last => ∃ shown, last.Follows objects registered fuel
          (done ++ handOvers (fdsOf objects) clients left rounds) shown)
        (Stuck objects fuel (done ++ handOvers (fdsOf objects) clients left rounds)) := by
  induction rounds generalizing service done left with
  | nil =>
      rw [handOvers, List.append_nil]
      exact ⟨left, follows⟩
  | cons round rest ih =>
      rw [handOvers] at nonempty ⊢
      obtain ⟨turns, later⟩ := List.forall_mem_append.mp nonempty
      rw [← List.append_assoc]
      have served :=
        follows.after_round live (passive round List.mem_cons_self) listened rfl turns
      refine ServiceOutcome.Meets.bind (served.imp fun stuck => stuck.append _) ?_
      intro last next
      have cleared := next.after_clear (Round.left_ne_nil (.inr someone) turns)
      refine ServiceOutcome.Meets.bind (cleared.imp fun stuck => stuck.append _) ?_
      intro empty begun
      exact ih (fun other member => passive other (.tail _ member)) begun later

end Turns

/-- From the start of the thread, a run hands its chunks to its clients. -/
theorem follows_serveRounds {objects : Address → Option TcpClient} {clients : List Address}
    (someone : clients ≠ []) (live : ∀ client ∈ clients, (objects client).isSome)
    {rounds : List Round} (passive : ∀ round ∈ rounds, round.Passive objects clients)
    (nonempty
      : ∀ handOver ∈ handOvers (fdsOf objects) clients [] rounds, handOver.chunk ≠ [])
    {registered : Bool} (listened : Listened objects registered) (fuel : Nat)
    {data : List UInt8} (room : data.length = kBufferSize) (dataLen : Int)
    : let handed := handOvers (fdsOf objects) clients [] rounds
      (serveRounds registered fuel clients rounds (.start objects data dataLen)).Meets
        (fun last => ∃ shown, last.Follows objects registered fuel handed shown)
        (Stuck objects fuel handed) := by
  have start : (Service.start objects data dataLen).Follows objects registered fuel [] [] := by
    refine ⟨⟨room, fun shown => absurd rfl shown⟩, fun client object present => ?_, rfl⟩
    obtain ⟨fd, handler⟩ := object
    cases handler with
    | none => exact ⟨_, rfl, present⟩
    | some handler => exact ⟨_, rfl, present⟩
  exact start.after_rounds someone live passive listened nonempty

/-- The service thread gets through its rounds exactly when each delimiter, on its own, gets
through the chunks that are handed to its client. It then leaves each client as if it had
been alone with them, and has made one call for each chunk.
-/
theorem serveRounds_feeds {objects : Address → Option TcpClient} {clients : List Address}
    (someone : clients ≠ []) (live : ∀ client ∈ clients, (objects client).isSome)
    {rounds : List Round} (passive : ∀ round ∈ rounds, round.Passive objects clients)
    (nonempty
      : ∀ handOver ∈ handOvers (fdsOf objects) clients [] rounds, handOver.chunk ≠ [])
    {registered : Bool} (listened : Listened objects registered) (fuel : Nat)
    {data : List UInt8} (room : data.length = kBufferSize) (dataLen : Int)
    : let run := serveRounds registered fuel clients rounds (.start objects data dataLen)
      let handed := handOvers (fdsOf objects) clients [] rounds
      ((∃ last, run = .ok last)
        ↔ ∀ client object, objects client = some object →
            ∃ now, object.fed fuel (arrivalsOf client handed) = .ok now)
      ∧ ∀ last, run = .ok last →
          (∀ client object, objects client = some object →
            ∃ now, object.fed fuel (arrivalsOf client handed) = .ok now
              ∧ last.objects client = some now)
          ∧ last.invocations.map Invocation.handOver
            = handed.filter (handles objects registered) := by
  intro run handed
  have meets := follows_serveRounds someone live passive nonempty listened fuel room dataLen
  cases result : serveRounds registered fuel clients rounds (.start objects data dataLen) with
  | error stop =>
      rw [result] at meets
      obtain ⟨client, object, stopped, present, stuck⟩ := meets
      refine ⟨⟨fun ⟨last, returned⟩ => ?_, fun returns => ?_⟩, fun last returned => ?_⟩
      · exact nomatch result.symm.trans returned
      · obtain ⟨now, fed⟩ := returns client object present
        exact nomatch stuck.symm.trans fed
      · exact nomatch result.symm.trans returned
  | ok last =>
      rw [result] at meets
      obtain ⟨shown, follows⟩ := meets
      refine ⟨⟨fun _ client object present => ?_, fun _ => ⟨last, result⟩⟩, ?_⟩
      · obtain ⟨now, fed, -⟩ := follows.same client object present
        exact ⟨now, fed⟩
      · intro other returned
        obtain rfl : last = other := Except.ok.inj (result.symm.trans returned)
        exact ⟨follows.same, follows.calls⟩

-----------------------------------------------------------------------------------------
-- Clients that are ready in every round
-----------------------------------------------------------------------------------------

section Own

variable {fds : Address → Nat} {round : Round} {turn : Nat} {client : Address}

end Own

/-- A client with a delimiter for single bytes, and one without. -/
def mixedObjects : Address → Option TcpClient :=
  fun address =>
    if address = 1 then
      some ⟨5, some (.fixed 1, .create kBcbSize)⟩
    else
      some ⟨address + 4, none⟩

/-- The callback of `readyFive` does nothing. -/
theorem readyFive_passive (objects : Address → Option TcpClient) (clients : List Address)
    : ∀ round ∈ [readyFive], round.Passive objects clients := by
  intro round member turn client fd _ _ buf
  rw [List.mem_singleton.mp member]
  rfl

/-- The second client is handed the byte of the first one. -/
theorem serveRounds_feeds_mixed
    : let run := serveRounds true 10241 [1, 2] [readyFive]
        (.start mixedObjects (List.replicate kBufferSize 0) 0)
      let handed : List HandOver :=
        [⟨1, .holding 0 0, [65]⟩, ⟨2, .holding 0 0, [65]⟩]
      ((∃ last, run = .ok last)
        ↔ ∀ client object, mixedObjects client = some object →
            ∃ now, object.fed 10241 (arrivalsOf client handed) = .ok now)
      ∧ ∀ last, run = .ok last →
          (∀ client object, mixedObjects client = some object →
            ∃ now, object.fed 10241 (arrivalsOf client handed) = .ok now
              ∧ last.objects client = some now)
          ∧ last.invocations.map Invocation.handOver
            = handed.filter (handles mixedObjects true) :=
  serveRounds_feeds (by decide) (by decide) (readyFive_passive _ _)
    (by decide) (fun _ _ _ _ => rfl) 10241 List.length_replicate 0

end Ethnm
