import Ethnm.Clients.ServiceLoop
import Ethnm.Server.Threads

/-! The server with all that an application can do with it: its listeners, the public calls
that neither start nor stop a component, and the loops of the client services' threads. A value
that was never set is what the storage held before.
-/

namespace Ethnm

/-- The arguments of `RegisterListener`. Zero is the null pointer. -/
structure Listeners where
  connected : Nat
  disconnected : Nat
  received : Nat
  deriving DecidableEq, Repr

/-- What the storage held for everything that is read and that no constructor sets. The local
`data_len` is one of each client service's thread.
-/
structure PriorContents extends Storage where
  listeners : Listeners
  dataLen : Nat → Int

/-- Where a client service's thread is in its loop: before `select`, before the test of the
iterator, or past the turn's `recvfrom`.
-/
inductive Loop
  | select
  | receive (round : Round) (turn : Nat)
  | handOver (round : Round) (turn : Nat) (client : Address)

/-- What is seen of the server: what `IsBitSet` returns wherever it is called, what calls give
to the application, and the calls of its listeners.
-/
inductive Observation
  | isBitSet (bit : BitVec 32) (set : Bool)
  | displayed (clients : List Address)
  | copied (clients : List Address)
  | connected (listener : Nat) (client : Address)
  | nothingReceived (client : Address)
  | received (listener : Nat) (client : Address) (msg : List UInt8) (len : UInt16)
  deriving DecidableEq, Repr

/-- `listeners` and `dataLens` are those that were set. `adders` are the application's own
calls of `AddClient`, and `written` the flags that were ever set or cleared.
-/
structure Session where
  system : System
  prior : PriorContents
  listeners : Option Listeners
  adders : List AcceptThread
  data : List UInt8
  dataLens : Nat → Option Int
  loops : Nat → Loop
  observed : List Observation
  written : BitVec 32

/-- Why an event does not go through. -/
inductive Refusal
  | disabled
  | stopped (stop : Stop)
  deriving DecidableEq, Repr

def Halt.refusal : Halt → Refusal
  | .disabled => .disabled
  | .fault reason => .stopped (.aborted reason)

abbrev SessionOutcome := Except (Refusal × Session) Session

/-- What can happen next: a step of the system, another call of the application, a statement
of an `AddClient` that the application called, or of the loop of a client service's thread.
-/
inductive Event
  | server (action : Action)
  | registerListener (listeners : Listeners)
  | setBit (bit : BitVec 32)
  | unSetBit (bit : BitVec 32)
  | isBitSet (bit : BitVec 32)
  | display
  | copyClients
  | addClient (client : TcpClient)
  | add (index : Nat)
  | destroy
  | select (index : Nat) (round : Round)
  | serve (index : Nat)

namespace System

/-- The flag that a step tests. -/
def tests (system : System) : Action → Option (BitVec 32)
  | .main =>
      match system.main with
      | .stopAcceptTest _ | .startAcceptTest => some tcpServerNotAcceptingNewConnections
      | .stopServiceTest _ | .startServiceTest => some tcpServerNotListeningClients
      | _ => none
  | .service index =>
      match system.serviceThreads[index]? with
      | some thread =>
          if thread.prologue = .test then some tcpServerNotListeningClients else none
      | none => none
  | _ => none

/-- The flags that a step sets or clears. -/
def writes (system : System) : Action → BitVec 32
  | .main =>
      match system.main with
      | .startSetRunning | .stopUnSetRunning => tcpServerRunning
      | .stopAcceptSetBit _ | .startAcceptUnSetBit | .stopSetNotAccepting =>
          tcpServerNotAcceptingNewConnections
      | .stopServiceSetBit _ | .startServiceUnSetBit | .stopSetNotListening =>
          tcpServerNotListeningClients
      | _ => 0
  | _ => 0

/-- The connection manager whose descriptor a step closes. -/
def closes (system : System) : Action → Option Address
  | .main =>
      match system.main with
      | .stopAcceptManagerStop _ => system.server.connectionManager
      | _ => none
  | _ => none

/-- The flags that `Display` tests. -/
def displays (system : System) : List (BitVec 32) :=
  if system.server.isBitSet tcpServerRunning then
    [
      tcpServerRunning, tcpServerInitialized, tcpServerRunning,
      tcpServerNotAcceptingNewConnections, tcpServerNotListeningClients,
      tcpServerCreateMultiThreadedClient
    ]
  else
    [tcpServerRunning]

end System

namespace Session

/-- The listeners as they are read. -/
def listener (session : Session) : Listeners :=
  session.listeners.getD session.prior.listeners

/-- A thread's `data_len` as it is read. -/
def dataLen (thread : Nat) (session : Session) : Int :=
  (session.dataLens thread).getD (session.prior.dataLen thread)

def observe (seen : List Observation) (session : Session) : Session :=
  { session with observed := session.observed ++ seen }

/-- What is seen of tests of flags. -/
def observeFlags (bits : List (BitVec 32)) (session : Session) : Session :=
  session.observe (bits.map (fun bit => .isBitSet bit (session.system.server.isBitSet bit)))

/-- A thread goes on in its loop. -/
def setLoop (thread : Nat) (loop : Loop) (session : Session) : Session :=
  {
    session with
    loops := fun other => if other = thread then loop else session.loops other
  }

/-- A part of an event that can fail. -/
def attempt {α : Type} (session : Session) : Except Halt α → Except (Refusal × Session) α
  | .ok value => .ok value
  | .error halt => .error (halt.refusal, session)

/-- A call that needs nothing but the server. -/
def call (change : Session → Session) (session : Session) : SessionOutcome := do
  let _ ← session.attempt session.system.tcpServer
  return change session

/-- `connected(server, client)`, if it is set. -/
def callConnected (client : Address) (session : Session) : Session :=
  let listener := session.listener.connected
  if listener = 0 then session else session.observe [.connected listener client]

/-- `received(server, client, data, data_len)`, if it is set. -/
def callReceived (client : Address) (around : Surroundings) (size : UInt16)
    (session : Session)
    : Session :=
  let listener := session.listener.received
  if listener = 0 then
    session
  else
    {
      session.observe [.received listener client session.data size] with
      data := around.received 0 session.data
    }

/-- A step of the system. The accept thread calls `connected` for a client it has made. -/
def serverStep (action : Action) (session : Session) : SessionOutcome := do
  let system ← session.attempt (step session.system action)
  let session := session.observeFlags (session.system.tests action).toList
  let client := session.system.fresh
  let written := session.written ||| session.system.writes action
  let session := { session with system, written }
  match action with
  | .connect _ _ => return session.callConnected client
  | _ => return session

def registerListener (listeners : Listeners) (session : Session) : Session :=
  { session with listeners := some listeners }

def setBit (bit : BitVec 32) (session : Session) : Session :=
  { session with system := session.system.setBit bit, written := session.written ||| bit }

def unSetBit (bit : BitVec 32) (session : Session) : Session :=
  { session with system := session.system.unSetBit bit, written := session.written ||| bit }

def display (session : Session) : SessionOutcome := do
  let server ← session.attempt session.system.tcpServer
  let session := session.observeFlags session.system.displays
  if server.isBitSet tcpServerRunning then
    let clients ← session.attempt (follow server.clientDb)
    let live := fun client => (session.system.heap.objects client).isSome
    let session := session.observe [.displayed (clients.takeWhile live)]
    if clients.all live then
      return session
    else
      .error (.stopped (.aborted .useAfterFree), session)
  else
    return session

def copyClients (session : Session) : SessionOutcome := do
  let server ← session.attempt session.system.tcpServer
  let clients ← session.attempt (follow server.clientDb)
  return session.observe [.copied clients]

/-- The application calls `AddClient` for a client that it has made. -/
def addClient (client : TcpClient) (session : Session) : Session :=
  let system := session.system
  let objects :=
    fun address => if address = system.fresh then some client else system.heap.objects address
  {
    session with
    system := { system with heap := { system.heap with objects }, fresh := system.fresh + 1 }
    adders := session.adders ++ [.update system.fresh]
  }

/-- `AddClient` is the same code for the application as for an accept thread. -/
def addStep (index : Nat) (session : Session) : SessionOutcome := do
  let added ←
    session.attempt (acceptStep index { session.system with acceptThreads := session.adders })
  return {
    session with
    system := { added with acceptThreads := session.system.acceptThreads }
    adders := added.acceptThreads
  }

/-- The application calls the destructor. -/
def destroy (session : Session) : SessionOutcome :=
  match session.system.main with
  | .constructed | .idle =>
      .ok { session with system := session.system.goto .stopDelete }
  | _ => .error (.disabled, session)

/-- A thread past its prologue begins a round. -/
def select (index : Nat) (round : Round) (session : Session) : SessionOutcome :=
  match session.system.serviceThreads[index]? with
  | none => .error (.disabled, session)
  | some thread =>
      match thread.prologue, session.loops thread.id with
      | .passed, .select => do
          let _ ← session.attempt (session.system.service thread.service)
          return session.setLoop thread.id (.receive round 0)
      | _, _ => .error (.disabled, session)

/-- `memset(data, 0, data_len)`, at the end of a round. -/
def clear (thread : Nat) (session : Session) : SessionOutcome :=
  let service := Service.start session.system.heap.objects session.data (session.dataLen thread)
  match service.clear with
  | .error (stop, _) => .error (.stopped stop, session)
  | .ok service => .ok ({ session with data := service.data }.setLoop thread .select)

/-- A turn up to `recvfrom`, or the end of the round. -/
def receive (thread : ServiceThread) (round : Round) (turn : Nat) (session : Session)
    : SessionOutcome := do
  let service ← session.attempt (session.system.service thread.service)
  match service.clients[turn]? with
  | none => session.clear thread.id
  | some client =>
      match session.system.heap.objects client with
      | none => .error (.stopped (.aborted .useAfterFree), session)
      | some object =>
          let session :=
            if round.activeFdSet object.fd then
              let result := round.recvfrom turn
              {
                session with
                data := result.fill session.data
                dataLens :=
                  fun other =>
                    if other = thread.id then some result.dataLen else session.dataLens other
              }
            else
              session
          return session.setLoop thread.id (.handOver round turn client)

/-- The messages that a delimiter has cut off go to `received`, which is not tested. -/
def deliver (client : Address) (iterations : List Iteration) (session : Session)
    : SessionOutcome :=
  if iterations = [] then
    .ok session
  else do
    let _ ← session.attempt session.system.tcpServer
    let listener := session.listener.received
    if listener = 0 then
      .error (.stopped (.aborted .nullPointer), session)
    else
      return session.observe
        (iterations.map (fun iteration =>
          .received listener client iteration.msg iteration.len))

/-- The call of `Process` for a client with a delimiter. -/
def process (fuel : Nat) (round : Round) (turn : Nat) (delimiter : Framing × MsgDelimiter)
    (size : UInt16) (session : Session)
    : Outcome :=
  Ethnm.process delimiter.1 fuel (round.around turn)
    { delimiter := delimiter.2, asked := [], iterations := [] } session.data size

/-- A client object is changed in place. -/
def store (client : Address) (object : TcpClient) (session : Session) : Session :=
  let heap := session.system.heap
  let objects := fun address => if address = client then some object else heap.objects address
  { session with system := { session.system with heap := { heap with objects } } }

/-- A turn notices when `data_len` is zero. -/
def notice (thread : Nat) (client : Address) (session : Session) : Session :=
  if session.dataLen thread = 0 then session.observe [.nothingReceived client] else session

/-- A turn hands the buffer to the client's delimiter or to the application. The thread is not
cancelled inside `Process`, or inside what the application does with a message.
-/
def handOver (fuel thread : Nat) (round : Round) (turn : Nat) (client : Address) (size : UInt16)
    (session : Session)
    : SessionOutcome :=
  match session.system.heap.objects client with
  | none => .error (.stopped (.aborted .useAfterFree), session)
  | some object =>
      match object.msgDelimiter with
      | some delimiter => do
          let outcome := session.process fuel round turn delimiter size
          let session ← session.deliver client (Outcome.progress outcome).iterations
          match outcome with
          | .error (stop, _) => .error (.stopped stop, session)
          | .ok progress =>
              let object :=
                { object with msgDelimiter := some (delimiter.1, progress.delimiter) }
              return (session.store client object).setLoop thread (.receive round (turn + 1))
      | none => do
          let _ ← session.attempt session.system.tcpServer
          let session := session.callReceived client (round.around turn) size
          return session.setLoop thread (.receive round (turn + 1))

/-- A thread goes on in its loop. -/
def serve (fuel index : Nat) (session : Session) : SessionOutcome :=
  match session.system.serviceThreads[index]? with
  | none => .error (.disabled, session)
  | some thread =>
      match session.loops thread.id with
      | .select => .error (.disabled, session)
      | .receive round turn => session.receive thread round turn
      | .handOver round turn client =>
          let size := UInt16.ofInt (session.dataLen thread.id)
          (session.notice thread.id client).handOver fuel thread.id round turn client size

def step (fuel : Nat) (session : Session) : Event → SessionOutcome
  | .server action => session.serverStep action
  | .registerListener listeners => session.call (registerListener listeners)
  | .setBit bit => session.call (setBit bit)
  | .unSetBit bit => session.call (unSetBit bit)
  | .isBitSet bit => session.call (observeFlags [bit])
  | .display => session.display
  | .copyClients => session.copyClients
  | .addClient client => session.call (addClient client)
  | .add index => session.addStep index
  | .destroy => session.destroy
  | .select index round => session.select index round
  | .serve index => session.serve fuel index

/-- The server is constructed in storage with the given contents. -/
def construct (prior : PriorContents) : Session :=
  {
    system := TcpServer.construct prior.toStorage
    prior
    listeners := none
    adders := []
    data := List.replicate kBufferSize 0
    dataLens := fun _ => none
    loops := fun _ => .select
    observed := []
    written := tcpServerInitialized
  }

end Session

end Ethnm
