import Ethnm.Clients.Purge

/-! The server and the objects it creates, with the threads that run on them, and the
operations of these objects that a statement of a thread calls.
-/

namespace Ethnm

def tcpServerInitialized : BitVec 32 := 1
def tcpServerRunning : BitVec 32 := 2
def tcpServerNotAcceptingNewConnections : BitVec 32 := 4
def tcpServerNotListeningClients : BitVec 32 := 8
def tcpServerCreateMultiThreadedClient : BitVec 32 := 16

structure TcpServer where
  state : BitVec 32
  connectionManager : Option Address
  clientDb : Option (List Address)
  clientService : Option Address

namespace TcpServer

def setBit (server : TcpServer) (bit : BitVec 32) : TcpServer :=
  { server with state := server.state ||| bit }

def unSetBit (server : TcpServer) (bit : BitVec 32) : TcpServer :=
  { server with state := server.state &&& ~~~bit }

def isBitSet (server : TcpServer) (bit : BitVec 32) : Bool :=
  server.state &&& bit != 0

end TcpServer

/-- `masterSockUdp` is the descriptor that `Stop` closes. -/
structure ConnectionManager where
  masterSockUdp : Int
  deriving DecidableEq, Repr

/-- What a `pthread_t *` of a client service points to: nothing, zeroed storage in which no
thread was stored yet, or a thread.
-/
inductive Handle
  | null
  | zeroed
  | created (thread : Nat)
  deriving DecidableEq, Repr

structure ClientService where
  clients : List Address
  thread : Handle
  deriving DecidableEq, Repr

/-- Where a client service's thread is: before the test of its prologue, before the copy, or
past the prologue.
-/
inductive Prologue
  | test
  | copy
  | passed
  deriving DecidableEq, Repr

structure ServiceThread where
  id : Nat
  service : Address
  prologue : Prologue
  deriving DecidableEq, Repr

/-- The statement that an accept thread executes next: `accept` itself, or a statement of
`AddClient` and of `Listen`, which `AddClient` calls for the service it has read.
-/
inductive AcceptThread
  | accept
  | update (client : Address)
  | listen (client : Address)
  | stopThread (service client : Address)
  | pushBack (service client : Address)
  | calloc (service : Address)
  | startThread (service : Address)
  deriving DecidableEq, Repr

/-- `StopConnectionAcceptance` and `StopClientService` return to the application or to
`Stop`.
-/
inductive Caller
  | application
  | stop
  deriving DecidableEq, Repr

/-- The statement that the main thread executes next. Between calls it is before its first
call, idle, or past the deletion of the server.
-/
inductive Statement
  | constructed
  | idle
  | deleted
  | startStartManager
  | startStartService
  | startCreateDb
  | startSetRunning
  | stopAcceptTest (caller : Caller)
  | stopAcceptSetBit (caller : Caller)
  | stopAcceptManagerStop (caller : Caller)
  | stopAcceptClear (caller : Caller)
  | startAcceptTest
  | startAcceptUnSetBit
  | startAcceptNew
  | startAcceptStartThread
  | stopServiceTest (caller : Caller)
  | stopServiceStopThread (caller : Caller)
  | stopServiceCleanup (caller : Caller)
  | stopServiceDelete (caller : Caller)
  | stopServiceSetBit (caller : Caller)
  | stopServiceClear (caller : Caller)
  | startServiceTest
  | startServiceNew
  | startServiceStartThread
  | startServiceUnSetBit
  | stopTestManager
  | stopSetNotAccepting
  | stopTestService
  | stopSetNotListening
  | stopPurge
  | stopDeleteDb
  | stopUnSetRunning
  | stopDelete
  deriving DecidableEq, Repr

/-- What the storage held in which the objects are constructed, for the fields that their
constructors leave as they were.
-/
structure Storage where
  state : BitVec 32
  masterSockUdp : Address → Int

/-- `closed` are the descriptors that the connection managers closed. `fresh` is an address,
and a thread, that was never used.
-/
structure System where
  server : TcpServer
  main : Statement
  managers : Address → Option ConnectionManager
  services : Address → Option ClientService
  serviceThreads : List ServiceThread
  acceptThreads : List AcceptThread
  heap : ClientHeap
  closed : List Int
  storage : Storage
  fresh : Nat

/-- Why a step is not made: its thread is not at a statement, or the statement is undefined
behaviour.
-/
inductive Halt
  | disabled
  | fault (fault : Fault)
  deriving DecidableEq, Repr

namespace System

def setBit (bit : BitVec 32) (system : System) : System :=
  { system with server := system.server.setBit bit }

def unSetBit (bit : BitVec 32) (system : System) : System :=
  { system with server := system.server.unSetBit bit }

/-- The connection manager at an address. -/
def manager (address : Address) (system : System) : Except Halt ConnectionManager :=
  match system.managers address with
  | none => .error (.fault .useAfterFree)
  | some manager => .ok manager

/-- The client service at an address, if it still exists. -/
def service (address : Address) (system : System) : Except Halt ClientService :=
  match system.services address with
  | none => .error (.fault .useAfterFree)
  | some service => .ok service

/-- A client service is changed in place. -/
def store (address : Address) (service : ClientService) (system : System) : System :=
  {
    system with
    services := fun other => if other = address then some service else system.services other
  }

end System

/-- Follow a pointer of the server. -/
def follow {α : Type} (pointer : Option α) : Except Halt α :=
  match pointer with
  | none => .error (.fault .nullPointer)
  | some object => .ok object

/-- `new ConnectionManager(this)`, which does not set `master_sock_udp`. -/
def ConnectionManager.construct (system : System) : System :=
  let manager := { masterSockUdp := system.storage.masterSockUdp system.fresh }
  {
    system with
    server := { system.server with connectionManager := some system.fresh }
    managers := fun other => if other = system.fresh then some manager else system.managers other
    fresh := system.fresh + 1
  }

/-- `connection_manager_->StartThread()`. The program exits when `pthread_create` fails. -/
def ConnectionManager.startThread (system : System) : Except Halt System := do
  let _ ← follow system.server.connectionManager
  return { system with acceptThreads := system.acceptThreads ++ [.accept] }

/-- `connection_manager_->Stop()`: it closes a descriptor; its thread goes on. -/
def ConnectionManager.stop (system : System) : Except Halt System := do
  let address ← follow system.server.connectionManager
  let manager ← system.manager address
  return { system with closed := system.closed ++ [manager.masterSockUdp] }

/-- `new ClientService(this)`. -/
def ClientService.construct (system : System) : System :=
  {
    system.store system.fresh { clients := [], thread := .zeroed } with
    server := { system.server with clientService := some system.fresh }
    fresh := system.fresh + 1
  }

/-- `ClientService::StartThread`. The program exits when `pthread_create` fails. -/
def ClientService.startThread (address : Address) (system : System) : Except Halt System := do
  let service ← system.service address
  if service.thread = .null then
    .error (.fault .nullPointer)
  else
    return {
      system.store address { service with thread := .created system.fresh } with
      serviceThreads :=
        system.serviceThreads ++ [{ id := system.fresh, service := address, prologue := .test }]
      fresh := system.fresh + 1
    }

/-- `ClientService::StopThread`: the thread is cancelled and joined, and its handle freed. It can
be cancelled at any statement here, not at cancellation points alone, but a call of `Process` or
of a listener is one statement.
-/
def ClientService.stopThread (address : Address) (system : System) : Except Halt System := do
  let service ← system.service address
  match service.thread with
  | .null => .error (.fault .nullPointer)
  | .zeroed => .error (.fault .noThread)
  | .created thread =>
      return {
        system.store address { service with thread := .null } with
        serviceThreads := system.serviceThreads.filter (·.id ≠ thread)
      }

/-- `ClientService::AddClient`. -/
def ClientService.addClient (address client : Address) (system : System)
    : Except Halt System := do
  let service ← system.service address
  return system.store address { service with clients := service.clients ++ [client] }

/-- `this->thread = calloc(1, sizeof(pthread_t))`. -/
def ClientService.callocThread (address : Address) (system : System) : Except Halt System := do
  let service ← system.service address
  return system.store address { service with thread := .zeroed }

/-- The rest of `ClientService::Stop` up to `delete this`: the assertion and the loop. -/
def ClientService.dropClients (address : Address) (system : System) : Except Halt System := do
  let service ← system.service address
  if service.thread = .null then
    match ClientService.cleanup service.clients with
    | .error fault => .error (.fault fault)
    | .ok clients => return system.store address { service with clients }
  else
    .error (.fault .assertionFailed)

/-- `delete this` in `ClientService::Stop`. -/
def ClientService.delete (address : Address) (system : System) : Except Halt System := do
  let _ ← system.service address
  return {
    system with
    services := fun other => if other = address then none else system.services other
  }

/-- `client_db_->Update(client)`. -/
def ClientDB.update (client : Address) (system : System) : Except Halt System := do
  let clients ← follow system.server.clientDb
  return { system with server := { system.server with clientDb := some (clients ++ [client]) } }

/-- `CopyClients(&clients_)` for the client service at an address. -/
def ClientDB.copy (address : Address) (system : System) : Except Halt System := do
  let service ← system.service address
  let clients ← follow system.server.clientDb
  return system.store address { service with clients := service.clients ++ clients }

/-- `client_db_->Purge()`. -/
def ClientDB.purgeAll (system : System) : Except Halt System := do
  let clients ← follow system.server.clientDb
  match ClientDB.purge clients system.heap with
  | .error fault => .error (.fault fault)
  | .ok (clients, heap) =>
      return { system with server := { system.server with clientDb := some clients }, heap }

/-- The server that the constructor makes, before its first call. -/
def TcpServer.construct (storage : Storage) : System :=
  let storageLeft : System :=
    {
      server :=
        {
          state := storage.state
          connectionManager := none
          clientDb := none
          clientService := none
        }
      main := .constructed
      managers := fun _ => none
      services := fun _ => none
      serviceThreads := []
      acceptThreads := []
      heap := { objects := fun _ => none, closed := [], aborted := [] }
      closed := []
      storage
      fresh := 0
    }
  let withManager := ConnectionManager.construct storageLeft
  let withDb := { withManager with server := { withManager.server with clientDb := some [] } }
  (ClientService.construct withDb).setBit tcpServerInitialized

end Ethnm
