import Ethnm.Server.Threads

/-! What a step can do. One inversion of every operation, and from these one of the step
function, which the invariants use in place of its definition.
-/

namespace Ethnm
open Runs

/-- A new thread runs on a client service. -/
def System.started (address : Address) (service : ClientService) (system : System) : System :=
  {
    system.store address { service with thread := .created system.fresh } with
    serviceThreads :=
      system.serviceThreads ++ [{ id := system.fresh, service := address, prologue := .test }]
    fresh := system.fresh + 1
  }

/-- A thread no longer runs on a client service. -/
def System.stopped (address : Address) (service : ClientService) (thread : Nat)
    (system : System)
    : System :=
  {
    system.store address { service with thread := .null } with
    serviceThreads := system.serviceThreads.filter (·.id ≠ thread)
  }

/-- A client service does not exist any more. -/
def System.deleted (address : Address) (system : System) : System :=
  {
    system with
    services := fun other => if other = address then none else system.services other
  }

/-- A client is stored in the client database, after others. -/
def System.stored (clients : List Address) (client : Address) (system : System) : System :=
  { system with server := { system.server with clientDb := some (clients ++ [client]) } }

section Operations

variable {system after : System} {address client : Address}

/-- Only the service at the address changes. -/
theorem services_store_eq {address : Address} {changed : ClientService} (other : Address)
    (object : ClientService)
    (stored : (system.store address changed).services other = some object)
    : other = address ∧ object = changed
      ∨ other ≠ address ∧ system.services other = some object := by
  change (if other = address then some changed else system.services other) = _ at stored
  by_cases isIt : other = address
  · rw [if_pos isIt] at stored
    exact .inl ⟨isIt, (Option.some.inj stored).symm⟩
  · rw [if_neg isIt] at stored
    exact .inr ⟨isIt, stored⟩

theorem follow_eq_ok {α : Type} {pointer : Option α} {object : α}
    (followed : follow pointer = .ok object)
    : pointer = some object := by
  cases pointer with
  | none => cases followed
  | some found =>
      cases followed
      rfl

theorem System.service_eq_ok {service : ClientService}
    (found : system.service address = .ok service)
    : system.services address = some service := by
  rw [System.service] at found
  cases present : system.services address with
  | none =>
      rw [present] at found
      cases found
  | some object =>
      rw [present] at found
      cases found
      rfl

/-- A server that exists can be used. -/
theorem System.tcpServer_eq_ok {server : TcpServer} (found : system.tcpServer = .ok server)
    : server = system.server := by
  rw [System.tcpServer] at found
  split at found
  · cases found
  · cases found
    rfl

theorem ClientService.startThread_eq_ok
    (started : ClientService.startThread address system = .ok after)
    : ∃ service,
        system.services address = some service
        ∧ after = system.started address service := by
  obtain ⟨service, found, started⟩ := bind_eq_ok.mp started
  refine ⟨service, System.service_eq_ok found, ?_⟩
  split at started
  · cases started
  · cases started
    rfl

theorem ClientService.stopThread_eq_ok
    (stopped : ClientService.stopThread address system = .ok after)
    : ∃ service thread,
        system.services address = some service
        ∧ service.thread = .created thread
        ∧ after = system.stopped address service thread := by
  obtain ⟨service, found, stopped⟩ := bind_eq_ok.mp stopped
  cases handle : service.thread with
  | null =>
      rw [handle] at stopped
      cases stopped
  | zeroed =>
      rw [handle] at stopped
      cases stopped
  | created thread =>
      rw [handle] at stopped
      cases stopped
      exact ⟨service, thread, System.service_eq_ok found, handle, rfl⟩

theorem ClientService.addClient_eq_ok
    (added : ClientService.addClient address client system = .ok after)
    : ∃ service,
        system.services address = some service
        ∧ after
          = system.store address { service with clients := service.clients ++ [client] } := by
  obtain ⟨service, found, added⟩ := bind_eq_ok.mp added
  cases added
  exact ⟨service, System.service_eq_ok found, rfl⟩

theorem ClientService.callocThread_eq_ok
    (allocated : ClientService.callocThread address system = .ok after)
    : ∃ service,
        system.services address = some service
        ∧ after = system.store address { service with thread := .zeroed } := by
  obtain ⟨service, found, allocated⟩ := bind_eq_ok.mp allocated
  cases allocated
  exact ⟨service, System.service_eq_ok found, rfl⟩

theorem ClientService.dropClients_eq_ok
    (dropped : ClientService.dropClients address system = .ok after)
    : ∃ service clients,
        system.services address = some service
        ∧ service.thread = .null
        ∧ after = system.store address { service with clients } := by
  obtain ⟨service, found, dropped⟩ := bind_eq_ok.mp dropped
  split at dropped
  · rename_i handle
    cases cleaned : ClientService.cleanup service.clients with
    | error fault =>
        rw [cleaned] at dropped
        cases dropped
    | ok clients =>
        rw [cleaned] at dropped
        cases dropped
        exact ⟨service, clients, System.service_eq_ok found, handle, rfl⟩
  · cases dropped

theorem ClientService.delete_eq_ok (deleted : ClientService.delete address system = .ok after)
    : ∃ service,
        system.services address = some service
        ∧ after = system.deleted address := by
  obtain ⟨service, found, deleted⟩ := bind_eq_ok.mp deleted
  cases deleted
  exact ⟨service, System.service_eq_ok found, rfl⟩

theorem ClientDB.update_eq_ok (updated : ClientDB.update client system = .ok after)
    : ∃ clients,
        system.server.clientDb = some clients
        ∧ after = system.stored clients client := by
  obtain ⟨clients, found, updated⟩ := bind_eq_ok.mp updated
  cases updated
  exact ⟨clients, follow_eq_ok found, rfl⟩

theorem ClientDB.copy_eq_ok (copied : ClientDB.copy address system = .ok after)
    : ∃ service clients,
        system.services address = some service
        ∧ system.server.clientDb = some clients
        ∧ after
          = system.store address { service with clients := service.clients ++ clients } := by
  obtain ⟨service, found, copied⟩ := bind_eq_ok.mp copied
  obtain ⟨clients, stored, copied⟩ := bind_eq_ok.mp copied
  cases copied
  exact ⟨service, clients, System.service_eq_ok found, follow_eq_ok stored, rfl⟩

theorem ClientDB.purgeAll_eq_ok (purged : ClientDB.purgeAll system = .ok after)
    : ∃ stored clients heap,
        system.server.clientDb = some stored
        ∧ after
          = { system with server := { system.server with clientDb := some clients }, heap } := by
  obtain ⟨stored, found, purged⟩ := bind_eq_ok.mp purged
  cases swept : ClientDB.purge stored system.heap with
  | error fault =>
      rw [swept] at purged
      cases purged
  | ok left =>
      rw [swept] at purged
      cases purged
      exact ⟨stored, left.1, left.2, follow_eq_ok found, rfl⟩

theorem ConnectionManager.startThread_eq_ok
    (started : ConnectionManager.startThread system = .ok after)
    : after = { system with acceptThreads := system.acceptThreads ++ [.accept] } := by
  obtain ⟨-, -, started⟩ := bind_eq_ok.mp started
  cases started
  rfl

theorem ConnectionManager.stop_eq_ok (stopped : ConnectionManager.stop system = .ok after)
    : ∃ closed, after = { system with closed } := by
  obtain ⟨address, -, stopped⟩ := bind_eq_ok.mp stopped
  obtain ⟨manager, -, stopped⟩ := bind_eq_ok.mp stopped
  cases stopped
  exact ⟨_, rfl⟩

end Operations

/-- The handle that the main thread is about to use as it left it. -/
def Statement.inHand : Statement → Option Handle
  | .constructed | .startStartManager | .startStartService | .startServiceStartThread =>
      some .zeroed
  | .stopServiceCleanup _ | .stopServiceDelete _ => some .null
  | _ => none

/-- Whether the client database was purged. -/
def Statement.purged : Statement → Bool
  | .stopDeleteDb | .stopUnSetRunning | .stopDelete | .deleted => true
  | _ => false

/-- The client services that a statement makes, less those that it deletes. -/
def Statement.makes : Statement → Int
  | .startServiceNew => 1
  | .stopServiceDelete _ => -1
  | _ => 0

/-- No service is made or deleted while a thread is about to be started on one. -/
theorem Statement.makes_of_zeroed {main : Statement} (zeroed : main.inHand = some .zeroed)
    : main.makes = 0 := by
  cases main <;> first | rfl | cases zeroed

/-- Whether a statement starts the thread of the current client service. -/
def Statement.startsThread : Statement → Bool
  | .startStartService | .startServiceStartThread => true
  | _ => false

/-- Whether a statement stops the thread of the current client service. -/
def Statement.stopsThread : Statement → Bool
  | .stopServiceStopThread _ => true
  | _ => false

/-- Whether the thread of the current client service was stopped, to delete the service. -/
def Statement.stopping : Statement → Bool
  | .stopServiceCleanup _ | .stopServiceDelete _ | .stopServiceSetBit _
  | .stopServiceClear _ => true
  | _ => false

/-- A step that leaves the client services, their threads, and the accept threads in
`AddClient` alone.
-/
structure Aside (system after : System) : Prop where
  clientService : after.server.clientService = system.server.clientService
  clientDb : after.server.clientDb = system.server.clientDb ∨ after.main.purged
  services : after.services = system.services
  serviceThreads : after.serviceThreads = system.serviceThreads
  acceptThreads
    : after.acceptThreads = system.acceptThreads
      ∨ after.acceptThreads = system.acceptThreads ++ [.accept]
  fresh : system.fresh ≤ after.fresh
  inHand : after.main.inHand = system.main.inHand
  makes : system.main.makes = 0
  purged : system.main.purged → after.main.purged
  startsNone : system.main.startsThread = false
  stopsNone : system.main.stopsThread = false
  stopping : after.main.stopping = system.main.stopping

/-- Whether an action is the main thread's. -/
def Action.isMain : Action → Bool
  | .call _ | .main => true
  | _ => false

/-- What a step can do. -/
inductive Stepped (system : System) : Action → System → Prop
  | aside {action after} (isMain : action.isMain) (aside : Aside system after)
    : Stepped system action after
  | mainStopThread {caller address service thread}
    (main : system.main = .stopServiceStopThread caller)
    (current : system.server.clientService = some address)
    (found : system.services address = some service)
    (created : service.thread = .created thread)
    : Stepped system .main
        ((system.stopped address service thread).goto (.stopServiceCleanup caller))
  | mainDropClients {caller address service} (clients : List Address)
    (main : system.main = .stopServiceCleanup caller)
    (current : system.server.clientService = some address)
    (found : system.services address = some service)
    (null : service.thread = .null)
    : Stepped system .main
        ((system.store address { service with clients }).goto (.stopServiceDelete caller))
  | mainDelete {caller address service}
    (main : system.main = .stopServiceDelete caller)
    (current : system.server.clientService = some address)
    (found : system.services address = some service)
    : Stepped system .main ((system.deleted address).goto (.stopServiceSetBit caller))
  | mainClear {caller} (main : system.main = .stopServiceClear caller)
    : Stepped system .main {
        system with
        server := { system.server with clientService := none }
        main := caller.afterStopService
      }
  | mainNew (main : system.main = .startServiceNew)
    : Stepped system .main ((ClientService.construct system).goto .startServiceStartThread)
  | mainStartThread {address service} {later : Statement}
    (main : system.main.inHand = some .zeroed)
    (current : system.server.clientService = some address)
    (found : system.services address = some service)
    (done : later.inHand = none)
    : Stepped system .main ((system.started address service).goto later)
  | connect {index fd heap}
    (accepting : system.acceptThreads[index]? = some .accept)
    : Stepped system (.connect index fd) {
        system.setAccept index (.update system.fresh) with
        heap
        fresh := system.fresh + 1
      }
  | update {index client clients}
    (updating : system.acceptThreads[index]? = some (.update client))
    (stored : system.server.clientDb = some clients)
    : Stepped system (.accept index)
        ((system.stored clients client).setAccept index (.listen client))
  | listen {index client address}
    (listening : system.acceptThreads[index]? = some (.listen client))
    (current : system.server.clientService = some address)
    : Stepped system (.accept index) (system.setAccept index (.stopThread address client))
  | stopThread {index client address service thread}
    (stopping : system.acceptThreads[index]? = some (.stopThread address client))
    (found : system.services address = some service)
    (created : service.thread = .created thread)
    : Stepped system (.accept index)
        ((system.stopped address service thread).setAccept index (.pushBack address client))
  | pushBack {index client address service}
    (pushing : system.acceptThreads[index]? = some (.pushBack address client))
    (found : system.services address = some service)
    : Stepped system (.accept index)
        ((system.store address { service with clients := service.clients ++ [client] }).setAccept
          index (.calloc address))
  | calloc {index address service}
    (allocating : system.acceptThreads[index]? = some (.calloc address))
    (found : system.services address = some service)
    : Stepped system (.accept index)
        ((system.store address { service with thread := .zeroed }).setAccept
          index (AcceptThread.startThread address))
  | startThread {index address service}
    (starting : system.acceptThreads[index]? = some (.startThread address))
    (found : system.services address = some service)
    : Stepped system (.accept index)
        ((system.started address service).setAccept index .accept)
  | test {index thread}
    (testing : system.serviceThreads[index]? = some thread)
    (prologue : thread.prologue = .test)
    : Stepped system (.service index)
        (system.setService index {
          thread with
          prologue :=
            if system.server.isBitSet tcpServerNotListeningClients then .copy else .passed
        })
  | copy {index thread service clients}
    (copying : system.serviceThreads[index]? = some thread)
    (prologue : thread.prologue = .copy)
    (found : system.services thread.service = some service)
    (stored : system.server.clientDb = some clients)
    : Stepped system (.service index)
        ((system.store thread.service
            { service with clients := service.clients ++ clients }).setService
          index { thread with prologue := .passed })

section Inversion

variable {system after : System}

/-- The main thread goes on after an operation that concerns neither. -/
theorem Aside.goto {middle : System} {next : Statement}
    (clientService : middle.server.clientService = system.server.clientService)
    (clientDb : middle.server.clientDb = system.server.clientDb ∨ next.purged)
    (services : middle.services = system.services)
    (serviceThreads : middle.serviceThreads = system.serviceThreads)
    (acceptThreads
      : middle.acceptThreads = system.acceptThreads
        ∨ middle.acceptThreads = system.acceptThreads ++ [.accept])
    (fresh : system.fresh ≤ middle.fresh)
    (goes
      : next.inHand = system.main.inHand
        ∧ system.main.makes = 0
        ∧ (system.main.purged → next.purged)
        ∧ system.main.startsThread = false
        ∧ system.main.stopsThread = false
        ∧ next.stopping = system.main.stopping)
    : Aside system (middle.goto next) := by
  obtain ⟨inHand, makes, purged, startsNone, stopsNone, stopping⟩ := goes
  exact ⟨clientService, clientDb, services, serviceThreads, acceptThreads, fresh, inHand, makes,
    purged, startsNone, stopsNone, stopping⟩

/-- The main thread only tests, or changes other fields of the server. -/
theorem Aside.stay {server : TcpServer} {next : Statement}
    (clientService : server.clientService = system.server.clientService)
    (clientDb : server.clientDb = system.server.clientDb ∨ next.purged)
    (goes
      : next.inHand = system.main.inHand
        ∧ system.main.makes = 0
        ∧ (system.main.purged → next.purged)
        ∧ system.main.startsThread = false
        ∧ system.main.stopsThread = false
        ∧ next.stopping = system.main.stopping)
    : Aside system ({ system with server }.goto next) :=
  Aside.goto clientService clientDb rfl rfl (.inl rfl) (Nat.le_refl _) goes

theorem stepped_of_mainStep (stepped : mainStep system = .ok after)
    : Stepped system .main after := by
  cases main : system.main <;> simp only [mainStep, main] at stepped
  case constructed | idle | deleted => cases stepped
  case startSetRunning | startAcceptUnSetBit | startServiceUnSetBit | stopSetNotAccepting
      | stopSetNotListening | stopUnSetRunning =>
    cases stepped
    exact .aside rfl (Aside.stay rfl (.inl rfl) (by rw [main]; decide))
  case stopAcceptSetBit caller | stopAcceptClear caller | stopServiceSetBit caller =>
    cases stepped
    cases caller
    all_goals exact .aside rfl (Aside.stay rfl (.inl rfl) (by rw [main]; decide))
  case stopAcceptTest caller | stopServiceTest caller =>
    split at stepped
    all_goals
      cases stepped
      cases caller
    all_goals exact .aside rfl (Aside.stay rfl (.inl rfl) (by rw [main]; decide))
  case startAcceptTest | startServiceTest | stopTestManager | stopTestService | stopDelete =>
    split at stepped
    all_goals cases stepped
    all_goals exact .aside rfl (Aside.stay rfl (.inl rfl) (by rw [main]; decide))
  case startCreateDb =>
    obtain ⟨-, -, stepped⟩ := bind_eq_ok.mp stepped
    cases stepped
    exact .aside rfl (Aside.stay rfl (.inl rfl) (by rw [main]; decide))
  case stopDeleteDb =>
    cases stepped
    exact .aside rfl (Aside.stay rfl (.inr rfl) (by rw [main]; decide))
  case stopPurge =>
    obtain ⟨middle, purged, stepped⟩ := bind_eq_ok.mp stepped
    obtain ⟨stored, clients, heap, -, rfl⟩ := ClientDB.purgeAll_eq_ok purged
    cases stepped
    exact .aside rfl (Aside.goto rfl (.inr rfl) rfl rfl (.inl rfl) (Nat.le_refl _)
      (by rw [main]; decide))
  case startStartManager | startAcceptStartThread =>
    obtain ⟨middle, started, stepped⟩ := bind_eq_ok.mp stepped
    cases ConnectionManager.startThread_eq_ok started
    cases stepped
    exact .aside rfl (Aside.goto rfl (.inl rfl) rfl rfl (.inr rfl) (Nat.le_refl _)
      (by rw [main]; decide))
  case stopAcceptManagerStop caller =>
    obtain ⟨middle, managerStopped, stepped⟩ := bind_eq_ok.mp stepped
    obtain ⟨closed, rfl⟩ := ConnectionManager.stop_eq_ok managerStopped
    cases stepped
    cases caller
    all_goals
      exact .aside rfl (Aside.goto rfl (.inl rfl) rfl rfl (.inl rfl) (Nat.le_refl _)
        (by rw [main]; decide))
  case startAcceptNew =>
    cases stepped
    exact .aside rfl (Aside.goto rfl (.inl rfl) rfl rfl (.inl rfl) (Nat.le_succ _)
      (by rw [main]; decide))
  case startStartService | startServiceStartThread =>
    obtain ⟨address, current, stepped⟩ := bind_eq_ok.mp stepped
    obtain ⟨middle, started, stepped⟩ := bind_eq_ok.mp stepped
    obtain ⟨service, found, rfl⟩ := ClientService.startThread_eq_ok started
    cases stepped
    exact .mainStartThread (by rw [main]; rfl) (follow_eq_ok current) found rfl
  case stopServiceStopThread caller =>
    obtain ⟨address, current, stepped⟩ := bind_eq_ok.mp stepped
    obtain ⟨middle, stopped, stepped⟩ := bind_eq_ok.mp stepped
    obtain ⟨service, thread, found, created, rfl⟩ := ClientService.stopThread_eq_ok stopped
    cases stepped
    exact .mainStopThread main (follow_eq_ok current) found created
  case stopServiceCleanup caller =>
    obtain ⟨address, current, stepped⟩ := bind_eq_ok.mp stepped
    obtain ⟨middle, dropped, stepped⟩ := bind_eq_ok.mp stepped
    obtain ⟨service, clients, found, null, rfl⟩ := ClientService.dropClients_eq_ok dropped
    cases stepped
    exact .mainDropClients clients main (follow_eq_ok current) found null
  case stopServiceDelete caller =>
    obtain ⟨address, current, stepped⟩ := bind_eq_ok.mp stepped
    obtain ⟨middle, deleted, stepped⟩ := bind_eq_ok.mp stepped
    obtain ⟨service, found, rfl⟩ := ClientService.delete_eq_ok deleted
    cases stepped
    exact .mainDelete main (follow_eq_ok current) found
  case stopServiceClear caller =>
    cases stepped
    exact .mainClear main
  case startServiceNew =>
    cases stepped
    exact .mainNew main

/-- A call only begins. -/
theorem callStep_eq_ok {call : ServerCall} (stepped : callStep call system = .ok after)
    : after = system.goto call.entry := by
  rw [callStep] at stepped
  split at stepped
  all_goals cases stepped
  all_goals rfl

theorem stepped_of_callStep {call : ServerCall} (once : StartsOnce system (.call call))
    (stepped : callStep call system = .ok after)
    : Stepped system (.call call) after := by
  have entered := callStep_eq_ok stepped
  subst after
  cases call
  all_goals
    have main := once
    simp only [StartsOnce] at main
    exact .aside rfl (Aside.stay rfl (.inl rfl) (by rw [main]; decide))

theorem stepped_of_connectStep {index fd : Nat}
    (stepped : connectStep index fd system = .ok after)
    : Stepped system (.connect index fd) after := by
  rw [connectStep] at stepped
  split at stepped
  · rename_i accepting
    obtain ⟨-, -, stepped⟩ := bind_eq_ok.mp stepped
    cases stepped
    exact .connect accepting
  · cases stepped

theorem stepped_of_acceptStep {index : Nat} (stepped : acceptStep index system = .ok after)
    : Stepped system (.accept index) after := by
  rw [acceptStep] at stepped
  split at stepped
  · cases stepped
  · cases stepped
  · rename_i client updating
    obtain ⟨-, -, stepped⟩ := bind_eq_ok.mp stepped
    obtain ⟨middle, updated, stepped⟩ := bind_eq_ok.mp stepped
    obtain ⟨clients, stored, rfl⟩ := ClientDB.update_eq_ok updated
    cases stepped
    exact .update updating stored
  · rename_i client listening
    obtain ⟨server, found, stepped⟩ := bind_eq_ok.mp stepped
    cases System.tcpServer_eq_ok found
    obtain ⟨address, current, stepped⟩ := bind_eq_ok.mp stepped
    cases stepped
    exact .listen listening (follow_eq_ok current)
  · rename_i address client stopping
    obtain ⟨middle, stopped, stepped⟩ := bind_eq_ok.mp stepped
    obtain ⟨service, thread, found, created, rfl⟩ := ClientService.stopThread_eq_ok stopped
    cases stepped
    exact .stopThread stopping found created
  · rename_i address client pushing
    obtain ⟨middle, added, stepped⟩ := bind_eq_ok.mp stepped
    obtain ⟨service, found, rfl⟩ := ClientService.addClient_eq_ok added
    cases stepped
    exact .pushBack pushing found
  · rename_i address allocating
    obtain ⟨middle, allocated, stepped⟩ := bind_eq_ok.mp stepped
    obtain ⟨service, found, rfl⟩ := ClientService.callocThread_eq_ok allocated
    cases stepped
    exact .calloc allocating found
  · rename_i address starting
    obtain ⟨middle, started, stepped⟩ := bind_eq_ok.mp stepped
    obtain ⟨service, found, rfl⟩ := ClientService.startThread_eq_ok started
    cases stepped
    exact .startThread starting found

theorem stepped_of_serviceStep {index : Nat} (stepped : serviceStep index system = .ok after)
    : Stepped system (.service index) after := by
  rw [serviceStep] at stepped
  split at stepped
  · cases stepped
  · rename_i thread present
    split at stepped
    · rename_i prologue
      obtain ⟨-, -, stepped⟩ := bind_eq_ok.mp stepped
      obtain ⟨server, found, stepped⟩ := bind_eq_ok.mp stepped
      cases System.tcpServer_eq_ok found
      cases stepped
      exact .test present prologue
    · rename_i prologue
      obtain ⟨-, -, stepped⟩ := bind_eq_ok.mp stepped
      obtain ⟨middle, copied, stepped⟩ := bind_eq_ok.mp stepped
      obtain ⟨service, clients, found, stored, rfl⟩ := ClientDB.copy_eq_ok copied
      cases stepped
      exact .copy present prologue found stored
    · cases stepped

/-- The statement after one at which the main thread calls a component, and the accept threads
that the call starts.
-/
def Statement.afterCall : Statement → Option (Statement × Nat)
  | .startStartManager => some (.startStartService, 1)
  | .startStartService => some (.startCreateDb, 0)
  | .startCreateDb => some (.startSetRunning, 0)
  | .stopAcceptManagerStop caller => some (.stopAcceptClear caller, 0)
  | .startAcceptStartThread => some (.idle, 1)
  | .stopServiceStopThread caller => some (.stopServiceCleanup caller, 0)
  | .stopServiceCleanup caller => some (.stopServiceDelete caller, 0)
  | .stopServiceDelete caller => some (.stopServiceSetBit caller, 0)
  | .startServiceStartThread => some (.startServiceUnSetBit, 0)
  | .stopPurge => some (.stopDeleteDb, 0)
  | _ => none

/-- What a call of a component leaves of the server: its flags, and which pointers are null. -/
structure Called (next : Statement) (starts : Nat) (system after : System) : Prop where
  main : after.main = next
  state : after.server.state = system.server.state
  connectionManager : after.server.connectionManager = system.server.connectionManager
  clientService : after.server.clientService = system.server.clientService
  clientDb : after.server.clientDb.isSome = system.server.clientDb.isSome
  acceptThreads : after.acceptThreads.length = system.acceptThreads.length + starts

/-- The components change neither the server's flags nor its pointers. -/
theorem called_of_mainStep (stepped : mainStep system = .ok after) {next : Statement}
    {starts : Nat} (calls : system.main.afterCall = some (next, starts))
    : Called next starts system after := by
  cases main : system.main <;> rw [main] at calls <;> cases calls
    <;> simp only [mainStep, main] at stepped
  case startCreateDb =>
    obtain ⟨-, -, stepped⟩ := bind_eq_ok.mp stepped
    cases stepped
    exact ⟨rfl, rfl, rfl, rfl, rfl, rfl⟩
  case startStartManager | startAcceptStartThread =>
    obtain ⟨middle, started, stepped⟩ := bind_eq_ok.mp stepped
    cases ConnectionManager.startThread_eq_ok started
    cases stepped
    exact ⟨rfl, rfl, rfl, rfl, rfl, List.length_append⟩
  case stopAcceptManagerStop caller =>
    obtain ⟨middle, managerStopped, stepped⟩ := bind_eq_ok.mp stepped
    obtain ⟨closed, rfl⟩ := ConnectionManager.stop_eq_ok managerStopped
    cases stepped
    exact ⟨rfl, rfl, rfl, rfl, rfl, rfl⟩
  case startStartService | startServiceStartThread =>
    obtain ⟨address, -, stepped⟩ := bind_eq_ok.mp stepped
    obtain ⟨middle, started, stepped⟩ := bind_eq_ok.mp stepped
    obtain ⟨service, -, rfl⟩ := ClientService.startThread_eq_ok started
    cases stepped
    exact ⟨rfl, rfl, rfl, rfl, rfl, rfl⟩
  case stopServiceStopThread caller =>
    obtain ⟨address, -, stepped⟩ := bind_eq_ok.mp stepped
    obtain ⟨middle, stopped, stepped⟩ := bind_eq_ok.mp stepped
    obtain ⟨service, thread, -, -, rfl⟩ := ClientService.stopThread_eq_ok stopped
    cases stepped
    exact ⟨rfl, rfl, rfl, rfl, rfl, rfl⟩
  case stopServiceCleanup caller =>
    obtain ⟨address, -, stepped⟩ := bind_eq_ok.mp stepped
    obtain ⟨middle, dropped, stepped⟩ := bind_eq_ok.mp stepped
    obtain ⟨service, clients, -, -, rfl⟩ := ClientService.dropClients_eq_ok dropped
    cases stepped
    exact ⟨rfl, rfl, rfl, rfl, rfl, rfl⟩
  case stopServiceDelete caller =>
    obtain ⟨address, -, stepped⟩ := bind_eq_ok.mp stepped
    obtain ⟨middle, deleted, stepped⟩ := bind_eq_ok.mp stepped
    obtain ⟨service, -, rfl⟩ := ClientService.delete_eq_ok deleted
    cases stepped
    exact ⟨rfl, rfl, rfl, rfl, rfl, rfl⟩
  case stopPurge =>
    obtain ⟨middle, purged, stepped⟩ := bind_eq_ok.mp stepped
    obtain ⟨stored, clients, heap, found, rfl⟩ := ClientDB.purgeAll_eq_ok purged
    cases stepped
    exact ⟨rfl, rfl, rfl, rfl, by rw [found]; rfl, rfl⟩

/-- Every step is one of those listed, as long as `Start` is called first and once. -/
theorem stepped_of_step {action : Action} (once : StartsOnce system action)
    (stepped : step system action = .ok after)
    : Stepped system action after := by
  cases action with
  | call call => exact stepped_of_callStep once stepped
  | main => exact stepped_of_mainStep stepped
  | connect index fd => exact stepped_of_connectStep stepped
  | accept index => exact stepped_of_acceptStep stepped
  | service index => exact stepped_of_serviceStep stepped

end Inversion

end Ethnm
