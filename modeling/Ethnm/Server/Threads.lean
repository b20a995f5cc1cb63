import Ethnm.Library.Runs
import Ethnm.Server.TcpServer

/-! The statements of the main thread, of the accept threads and of the client services'
threads as steps. Any interleaving of them is a run.
-/

namespace Ethnm

/-- Where `StopConnectionAcceptance` returns to. -/
def Caller.afterStopAccept : Caller → Statement
  | .application => .idle
  | .stop => .stopSetNotAccepting

/-- Where `StopClientService` returns to. -/
def Caller.afterStopService : Caller → Statement
  | .application => .idle
  | .stop => .stopSetNotListening

namespace System

/-- The main thread goes to a statement. -/
def goto (main : Statement) (system : System) : System :=
  { system with main }

/-- An accept thread goes to a statement. -/
def setAccept (index : Nat) (thread : AcceptThread) (system : System) : System :=
  { system with acceptThreads := system.acceptThreads.set index thread }

/-- A client service's thread goes on in its prologue. -/
def setService (index : Nat) (thread : ServiceThread) (system : System) : System :=
  { system with serviceThreads := system.serviceThreads.set index thread }

/-- The server, if it still exists. -/
def tcpServer (system : System) : Except Halt TcpServer :=
  if system.main = .deleted then .error (.fault .useAfterFree) else .ok system.server

end System

/-- The next statement of the main thread. -/
def mainStep (system : System) : Except Halt System :=
  match system.main with
  | .constructed => .error .disabled
  | .idle => .error .disabled
  | .deleted => .error .disabled
  -- Start
  | .startStartManager => do
      let system ← ConnectionManager.startThread system
      return system.goto .startStartService
  | .startStartService => do
      let service ← follow system.server.clientService
      let system ← ClientService.startThread service system
      return system.goto .startCreateDb
  | .startCreateDb => do
      let _ ← follow system.server.clientDb
      return system.goto .startSetRunning
  | .startSetRunning => .ok ((system.setBit tcpServerRunning).goto .idle)
  -- StopConnectionAcceptance
  | .stopAcceptTest caller =>
      if system.server.isBitSet tcpServerNotAcceptingNewConnections then
        .ok (system.goto caller.afterStopAccept)
      else
        .ok (system.goto (.stopAcceptSetBit caller))
  | .stopAcceptSetBit caller =>
      let system := system.setBit tcpServerNotAcceptingNewConnections
      .ok (system.goto (.stopAcceptManagerStop caller))
  | .stopAcceptManagerStop caller => do
      let system ← ConnectionManager.stop system
      return system.goto (.stopAcceptClear caller)
  | .stopAcceptClear caller =>
      let server := { system.server with connectionManager := none }
      .ok ({ system with server }.goto caller.afterStopAccept)
  -- StartConnectionAcceptance
  | .startAcceptTest =>
      if system.server.isBitSet tcpServerNotAcceptingNewConnections then
        .ok (system.goto .startAcceptUnSetBit)
      else
        .ok (system.goto .idle)
  | .startAcceptUnSetBit =>
      .ok ((system.unSetBit tcpServerNotAcceptingNewConnections).goto .startAcceptNew)
  | .startAcceptNew => .ok ((ConnectionManager.construct system).goto .startAcceptStartThread)
  | .startAcceptStartThread => do
      let system ← ConnectionManager.startThread system
      return system.goto .idle
  -- StopClientService
  | .stopServiceTest caller =>
      if system.server.isBitSet tcpServerNotListeningClients then
        .ok (system.goto caller.afterStopService)
      else
        .ok (system.goto (.stopServiceStopThread caller))
  | .stopServiceStopThread caller => do
      let service ← follow system.server.clientService
      let system ← ClientService.stopThread service system
      return system.goto (.stopServiceCleanup caller)
  | .stopServiceCleanup caller => do
      let service ← follow system.server.clientService
      let system ← ClientService.dropClients service system
      return system.goto (.stopServiceDelete caller)
  | .stopServiceDelete caller => do
      let service ← follow system.server.clientService
      let system ← ClientService.delete service system
      return system.goto (.stopServiceSetBit caller)
  | .stopServiceSetBit caller =>
      .ok ((system.setBit tcpServerNotListeningClients).goto (.stopServiceClear caller))
  | .stopServiceClear caller =>
      let server := { system.server with clientService := none }
      .ok ({ system with server }.goto caller.afterStopService)
  -- StartClientService
  | .startServiceTest =>
      if system.server.isBitSet tcpServerNotListeningClients then
        .ok (system.goto .startServiceNew)
      else
        .ok (system.goto .idle)
  | .startServiceNew => .ok ((ClientService.construct system).goto .startServiceStartThread)
  | .startServiceStartThread => do
      let service ← follow system.server.clientService
      let system ← ClientService.startThread service system
      return system.goto .startServiceUnSetBit
  | .startServiceUnSetBit => .ok ((system.unSetBit tcpServerNotListeningClients).goto .idle)
  -- Stop
  | .stopTestManager =>
      if system.server.connectionManager.isSome then
        .ok (system.goto (.stopAcceptTest .stop))
      else
        .ok (system.goto .stopTestService)
  | .stopSetNotAccepting =>
      .ok ((system.setBit tcpServerNotAcceptingNewConnections).goto .stopTestService)
  | .stopTestService =>
      if system.server.clientService.isSome then
        .ok (system.goto (.stopServiceTest .stop))
      else
        .ok (system.goto .stopPurge)
  | .stopSetNotListening =>
      .ok ((system.setBit tcpServerNotListeningClients).goto .stopPurge)
  | .stopPurge => do
      let system ← ClientDB.purgeAll system
      return system.goto .stopDeleteDb
  | .stopDeleteDb =>
      let server := { system.server with clientDb := none }
      .ok ({ system with server }.goto .stopUnSetRunning)
  | .stopUnSetRunning => .ok ((system.unSetBit tcpServerRunning).goto .stopDelete)
  | .stopDelete =>
      if system.server.connectionManager.isNone ∧ system.server.clientDb.isNone
          ∧ system.server.clientService.isNone then
        .ok (system.goto .deleted)
      else
        .error (.fault .assertionFailed)

/-- The calls that an application makes over the life of a server. -/
inductive ServerCall
  | start
  | stopConnectionAcceptance
  | startConnectionAcceptance
  | stopClientService
  | startClientService
  | stop
  deriving DecidableEq, Repr

/-- The first statement of a call. -/
def ServerCall.entry : ServerCall → Statement
  | .start => .startStartManager
  | .stopConnectionAcceptance => .stopAcceptTest .application
  | .startConnectionAcceptance => .startAcceptTest
  | .stopClientService => .stopServiceTest .application
  | .startClientService => .startServiceTest
  | .stop => .stopTestManager

/-- The main thread makes a call when it is in none. -/
def callStep (call : ServerCall) (system : System) : Except Halt System :=
  match system.main with
  | .constructed | .idle => .ok (system.goto call.entry)
  | _ => .error .disabled

/-- `accept` returns a descriptor: the thread makes a client without a delimiter. -/
def connectStep (index fd : Nat) (system : System) : Except Halt System :=
  match system.acceptThreads[index]? with
  | some .accept => do
      let _ ← system.tcpServer
      let client := { fd, msgDelimiter := none }
      let objects :=
        fun address => if address = system.fresh then some client else system.heap.objects address
      return {
        system.setAccept index (.update system.fresh) with
        heap := { system.heap with objects }
        fresh := system.fresh + 1
      }
  | _ => .error .disabled

/-- The next statement of `AddClient` and `Listen` in an accept thread. -/
def acceptStep (index : Nat) (system : System) : Except Halt System :=
  match system.acceptThreads[index]? with
  | none => .error .disabled
  | some .accept => .error .disabled
  | some (.update client) => do
      let _ ← system.tcpServer
      let system ← ClientDB.update client system
      return system.setAccept index (.listen client)
  | some (.listen client) => do
      let server ← system.tcpServer
      let service ← follow server.clientService
      return system.setAccept index (.stopThread service client)
  | some (.stopThread service client) => do
      let system ← ClientService.stopThread service system
      return system.setAccept index (.pushBack service client)
  | some (.pushBack service client) => do
      let system ← ClientService.addClient service client system
      return system.setAccept index (.calloc service)
  | some (.calloc service) => do
      let system ← ClientService.callocThread service system
      return system.setAccept index (.startThread service)
  | some (.startThread service) => do
      let system ← ClientService.startThread service system
      return system.setAccept index .accept

/-- The prologue of `ClientService::StartThreadInternal`: the clients are copied if the flag
is set when it is tested.
-/
def serviceStep (index : Nat) (system : System) : Except Halt System :=
  match system.serviceThreads[index]? with
  | none => .error .disabled
  | some thread =>
      match thread.prologue with
      | .test => do
          let _ ← system.service thread.service
          let server ← system.tcpServer
          let copies := server.isBitSet tcpServerNotListeningClients
          let prologue := if copies then .copy else .passed
          return system.setService index { thread with prologue }
      | .copy => do
          let _ ← system.tcpServer
          let system ← ClientDB.copy thread.service system
          return system.setService index { thread with prologue := .passed }
      | .passed => .error .disabled

/-- What can happen next: the application makes a call, or a thread goes on. -/
inductive Action
  | call (call : ServerCall)
  | main
  | connect (index fd : Nat)
  | accept (index : Nat)
  | service (index : Nat)
  deriving DecidableEq, Repr

def step (system : System) : Action → Except Halt System
  | .call call => callStep call system
  | .main => mainStep system
  | .connect index fd => connectStep index fd system
  | .accept index => acceptStep index system
  | .service index => serviceStep index system

/-- Whether an accept thread is inside a call of `AddClient`. -/
def AcceptThread.inAddClient : AcceptThread → Bool
  | .accept | .update _ => false
  | _ => true

/-- `Start` is the first call, and is made once. -/
def StartsOnce (system : System) : Action → Prop
  | .call .start => system.main = .constructed
  | .call _ => system.main = .idle
  | _ => True

instance (system : System) (action : Action) : Decidable (StartsOnce system action) := by
  unfold StartsOnce
  split <;> infer_instance

end Ethnm
