import Ethnm.Clients.TcpClient

/-! The loop of `ClientService::StartThreadInternal` over rounds of `select`. The receive
buffer and `data_len` are shared by all clients and keep their values from turn to turn.
-/

namespace Ethnm

/-- What `recvfrom` returns: `-1`, or the number of bytes it stored (none at end of file). -/
inductive Recvfrom
  | error
  | bytes (stored : List UInt8) (sized : stored.length ≤ kBufferSize)

def Recvfrom.dataLen : Recvfrom → Int
  | .error => -1
  | .bytes stored _ => stored.length

/-- The receive buffer after the call. -/
def Recvfrom.fill (data : List UInt8) : Recvfrom → List UInt8
  | .error => data
  | .bytes stored _ => stored ++ data.drop stored.length

/-- A round of the loop: the descriptors that `select` leaves in the set, and for each turn
of the round what its `recvfrom` returns and what else its calls depend on.
-/
structure Round where
  activeFdSet : Nat → Bool
  recvfrom : Nat → Recvfrom
  around : Nat → Surroundings

/-- A call of `Process` or of `received` for a client, and the turn that made it. -/
structure Invocation where
  round : Round
  turn : Nat
  client : Address
  data : List UInt8
  size : UInt16

/-- What a call of the application's listener is given for a client. -/
structure Heard where
  client : Address
  msg : List UInt8
  len : UInt16
  deriving DecidableEq, Repr

/-- `dataLen` is uninitialised at first. What the listener has `heard` comes straight from the
loop or from a delimiter.
-/
structure Service where
  objects : Address → Option TcpClient
  data : List UInt8
  dataLen : Int
  invocations : List Invocation
  heard : List Heard

/-- The service before its first round. -/
def Service.start (objects : Address → Option TcpClient) (data : List UInt8) (dataLen : Int)
    : Service :=
  { objects, data, dataLen, invocations := [], heard := [] }

abbrev ServiceOutcome := Except (Stop × Service) Service

/-- What has happened so far, whether or not the loop goes on. -/
def ServiceOutcome.service : ServiceOutcome → Service
  | .ok service => service
  | .error (_, service) => service

/-- What holds after a first part and is kept by the second holds after both. -/
theorem ServiceOutcome.bind_kept (kept : Service → Prop) {outcome : ServiceOutcome}
    {next : Service → ServiceOutcome} (first : kept (ServiceOutcome.service outcome))
    (second : ∀ service, kept service → kept (ServiceOutcome.service (next service)))
    : kept (ServiceOutcome.service (outcome >>= next)) := by
  cases outcome with
  | error stop => exact first
  | ok service => exact second service first

/-- `if (FD_ISSET(client->fd, …)) data_len = recvfrom(client->fd, data, …)`. -/
def Service.receive (service : Service) (round : Round) (turn fd : Nat) : Service :=
  if round.activeFdSet fd then
    {
      service with
      data := (round.recvfrom turn).fill service.data
      dataLen := (round.recvfrom turn).dataLen
    }
  else
    service

@[simp]
theorem Service.objects_receive (service : Service) (round : Round) (turn fd : Nat)
    : (service.receive round turn fd).objects = service.objects := by
  unfold Service.receive
  split <;> rfl

@[simp]
theorem Service.invocations_receive (service : Service) (round : Round) (turn fd : Nat)
    : (service.receive round turn fd).invocations = service.invocations := by
  unfold Service.receive
  split <;> rfl

/-- The call that hands `data` and `data_len` to the delimiter or to the application. -/
def Service.invoke (service : Service) (round : Round) (turn : Nat) (client : Address)
    : Service :=
  let size := UInt16.ofInt service.dataLen
  {
    service with
    invocations := service.invocations ++ [{ round, turn, client, data := service.data, size }]
  }

/-- Calls of the listener. -/
def Service.hear (service : Service) (heard : List Heard) : Service :=
  { service with heard := service.heard ++ heard }

/-- The messages that a delimiter has cut off, as the listener is given them. -/
def heardOf (client : Address) (iterations : List Iteration) : List Heard :=
  iterations.map (fun iteration => { client, msg := iteration.msg, len := iteration.len })

/-- A client object is changed in place. -/
def Service.store (service : Service) (client : Address) (object : TcpClient) : Service :=
  {
    service with
    objects := fun address => if address = client then some object else service.objects address
  }

/-- One turn of the `for` loop. `registered` says whether `server->received` is set; a delimiter
calls it without a test.
-/
def serveClient (registered : Bool) (fuel : Nat) (round : Round) (turn : Nat)
    (client : Address) (service : Service)
    : ServiceOutcome :=
  match service.objects client with
  | none => .error (.aborted .useAfterFree, service)
  | some object =>
      let service := service.receive round turn object.fd
      let size := UInt16.ofInt service.dataLen
      match object.msgDelimiter with
      | some (framing, delimiter) =>
          let service := service.invoke round turn client
          let progress := { delimiter, asked := [], iterations := [] }
          let outcome := process framing fuel (round.around turn) progress service.data size
          let messages := heardOf client (Outcome.progress outcome).iterations
          if registered = false ∧ messages ≠ [] then
            .error (.aborted .nullPointer, service)
          else
            let service := service.hear messages
            match outcome with
            | .error (stop, _) => .error (stop, service)
            | .ok progress =>
                let object := { object with msgDelimiter := some (framing, progress.delimiter) }
                .ok (service.store client object)
      | none =>
          if registered then
            let service := service.invoke round turn client
            let service := service.hear [{ client, msg := service.data, len := size }]
            .ok { service with data := (round.around turn).received 0 service.data }
          else
            .ok service

/-- The `for` loop of a round. The iterator is one ahead of the client that a turn serves;
what is read from the end of the list is not used.
-/
def serveClients (registered : Bool) (fuel : Nat) (round : Round)
    : Nat → List Address → Service → ServiceOutcome
  | _, [], service => .ok service
  | turn, client :: rest, service => do
      let service ← serveClient registered fuel round turn client service
      serveClients registered fuel round (turn + 1) rest service

/-- `memset(data, 0, data_len)`; a negative `data_len` becomes a huge size. -/
def Service.clear (service : Service) : ServiceOutcome :=
  let count := service.dataLen.toNat
  if 0 ≤ service.dataLen ∧ count ≤ service.data.length then
    .ok { service with data := List.replicate count 0 ++ service.data.drop count }
  else
    .error (.aborted .outOfRange, service)

/-- Clearing the buffer makes no calls. -/
theorem Service.invocations_clear (service : Service)
    : (ServiceOutcome.service service.clear).invocations = service.invocations := by
  unfold Service.clear
  simp only
  split <;> rfl

/-- The rounds of the `while` loop. -/
def serveRounds (registered : Bool) (fuel : Nat) (clients : List Address)
    : List Round → Service → ServiceOutcome
  | [], service => .ok service
  | round :: rest, service => do
      let service ← serveClients registered fuel round 0 clients service
      let service ← service.clear
      serveRounds registered fuel clients rest service

end Ethnm
