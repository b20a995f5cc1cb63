import Ethnm.Server.Flags
import Ethnm.Server.LiveThreads

/-! The pointers of the server to its components, against its flags and the main thread's
statement. No order of calls is assumed here: `Start` may come late, more than once or never.
-/

namespace Ethnm
open Runs

-----------------------------------------------------------------------------------------
-- Flags and pointers
-----------------------------------------------------------------------------------------

section Pointers

variable {α : Type} {pointer : Option α} {bit word : BitVec 32}

/-- One for a pointer that is not null. -/
def present (pointer : Option α) : Int :=
  if pointer.isSome then 1 else 0

@[simp]
theorem present_some (object : α) : present (some object) = 1 := rfl

@[simp]
theorem present_none : present (none : Option α) = 0 := rfl

theorem present_congr {other : Option α} (same : pointer.isSome = other.isSome)
    : present pointer = present other := by
  rw [present, present, same]

theorem present_nonneg (pointer : Option α) : 0 ≤ present pointer := by
  unfold present
  split <;> decide

theorem present_le_one (pointer : Option α) : present pointer ≤ 1 := by
  unfold present
  split <;> decide

theorem eq_none_of_present (absent : present pointer ≤ 0) : pointer = none := by
  cases pointer with
  | none => rfl
  | some object => exact absurd absent (by rw [present_some]; decide)

theorem ne_none_of_present (there : 1 ≤ present pointer) : pointer ≠ none := by
  rintro rfl
  exact absurd there (by rw [present_none]; decide)

theorem clear_nonneg (bit word : BitVec 32) : 0 ≤ clear bit word := by
  unfold clear
  split <;> decide

theorem TcpServer.isBitSet_iff {server : TcpServer}
    : server.isBitSet bit = true ↔ clear bit server.state = 0 := by
  constructor
  · exact TcpServer.clear_of_isBitSet
  · intro zero
    by_contra notSet
    rw [TcpServer.clear_of_not_isBitSet notSet] at zero
    exact absurd zero (by decide)

end Pointers

/-- The flag of `StopConnectionAcceptance` against the pointer to the connection manager, at
a statement between the changes of the two.
-/
def Statement.managerLag : Statement → Int
  | .stopAcceptManagerStop _ | .stopAcceptClear _ => -1
  | .startAcceptNew => 1
  | _ => 0

/-- The flag of `StopClientService` against the pointer to the client service. -/
def Statement.serviceLag : Statement → Int
  | .stopServiceClear _ | .startServiceStartThread | .startServiceUnSetBit => -1
  | _ => 0

/-- Whether a call returns to `Stop`. -/
def Caller.isStop : Caller → Bool
  | .application => false
  | .stop => true

/-- Whether `Stop` is past its call of `StopConnectionAcceptance`. -/
def Statement.managerStopped : Statement → Bool
  | .stopServiceTest caller | .stopServiceStopThread caller | .stopServiceCleanup caller
  | .stopServiceDelete caller | .stopServiceSetBit caller | .stopServiceClear caller =>
      caller.isStop
  | .stopTestService | .stopSetNotListening => true
  | main => main.ending

/-- Whether `Stop` has set the pointer to the client database to null. -/
def Statement.dbCleared : Statement → Bool
  | .stopUnSetRunning | .stopDelete | .deleted => true
  | _ => false

/-- A clear flag has its component. A component has its flag clear, too, unless the flag was
set before the constructor ran.
-/
structure Matched (storage : Storage) (system : System) : Prop where
  accepting
    : clear tcpServerNotAcceptingNewConnections system.server.state
      ≤ present system.server.connectionManager + system.main.managerLag
  manager
    : present system.server.connectionManager + system.main.managerLag
      ≤ clear tcpServerNotAcceptingNewConnections system.server.state
        + (1 - clear tcpServerNotAcceptingNewConnections storage.state)
  acceptClear
    : ∀ value,
        system.main.acceptClear = some value
        → clear tcpServerNotAcceptingNewConnections system.server.state = value
  listening
    : clear tcpServerNotListeningClients system.server.state
      ≤ present system.server.clientService + system.main.serviceLag
  service
    : present system.server.clientService + system.main.serviceLag
      ≤ clear tcpServerNotListeningClients system.server.state
        + (1 - clear tcpServerNotListeningClients storage.state)
  serviceClear
    : ∀ value,
        system.main.serviceClear = some value
        → clear tcpServerNotListeningClients system.server.state = value
  managerMade
    : system.main = .startAcceptStartThread → 1 ≤ present system.server.connectionManager
  initialized : clear tcpServerInitialized system.server.state = 0
  managerStopped
    : system.main.managerStopped
      → present system.server.connectionManager
        ≤ 1 - clear tcpServerNotAcceptingNewConnections storage.state
  serviceStopped
    : system.main.ending
      → present system.server.clientService
        ≤ 1 - clear tcpServerNotListeningClients storage.state
  stored : present system.server.clientDb = if system.main.dbCleared then 0 else 1

section Matching

variable {storage : Storage} {system after : System}

attribute [local simp] System.goto System.setBit System.unSetBit TcpServer.setBit
  TcpServer.unSetBit Statement.managerLag Statement.acceptClear Statement.serviceLag
  Statement.serviceClear Statement.managerStopped Statement.ending Statement.dbCleared
  Caller.afterStopAccept Caller.afterStopService Caller.isStop ClientService.construct
  ConnectionManager.construct System.store

theorem Matched.mainStep (matched : Matched storage system)
    (stepped : mainStep system = .ok after)
    : Matched storage after := by
  obtain ⟨accepting, manager, acceptClear, listening, service, serviceClear, managerMade,
    initialized, managerStopped, serviceStopped, stored⟩ := matched
  have called := @called_of_mainStep system after stepped
  have noManager := present_nonneg system.server.connectionManager
  have oneManager := present_le_one system.server.connectionManager
  have noService := present_nonneg system.server.clientService
  have oneService := present_le_one system.server.clientService
  have staleAccept := clear_le_one tcpServerNotAcceptingNewConnections storage.state
  have staleService := clear_le_one tcpServerNotListeningClients storage.state
  have maxAccept := clear_le_one tcpServerNotAcceptingNewConnections system.server.state
  have maxService := clear_le_one tcpServerNotListeningClients system.server.state
  cases main : system.main <;> simp only [Ethnm.mainStep, main] at stepped
    <;> simp [main]
      at accepting manager acceptClear listening service serviceClear managerStopped serviceStopped
        stored
  case constructed | idle | deleted => cases stepped
  case startSetRunning | startAcceptUnSetBit | startServiceUnSetBit | stopSetNotAccepting
      | stopSetNotListening | stopUnSetRunning | stopAcceptSetBit | stopServiceSetBit
      | stopDeleteDb | startAcceptNew | startServiceNew =>
    cases stepped
    constructor <;> simp (disch := decide) <;> omega
  case stopAcceptClear caller =>
    cases stepped
    cases caller
    all_goals constructor <;> simp <;> omega
  case stopServiceClear caller =>
    cases stepped
    cases caller
    · constructor <;> simp <;> omega
    · have managerStopped := managerStopped rfl
      constructor <;> simp <;> omega
  case stopAcceptTest caller =>
    split at stepped
    · rename_i set
      have set := TcpServer.clear_of_isBitSet set
      cases stepped
      cases caller
      all_goals constructor <;> simp <;> omega
    · rename_i notSet
      have notSet := TcpServer.clear_of_not_isBitSet notSet
      cases stepped
      constructor <;> simp <;> omega
  case stopServiceTest caller =>
    split at stepped
    · rename_i set
      have set := TcpServer.clear_of_isBitSet set
      cases stepped
      cases caller
      · constructor <;> simp <;> omega
      · have managerStopped := managerStopped rfl
        constructor <;> simp <;> omega
    · rename_i notSet
      have notSet := TcpServer.clear_of_not_isBitSet notSet
      cases stepped
      cases caller
      · constructor <;> simp <;> omega
      · have managerStopped := managerStopped rfl
        constructor <;> simp <;> omega
  case startAcceptTest | startServiceTest =>
    split at stepped
    · rename_i set
      have set := TcpServer.clear_of_isBitSet set
      cases stepped
      constructor <;> simp <;> omega
    · cases stepped
      constructor <;> simp <;> omega
  case stopTestManager | stopTestService =>
    split at stepped
    · cases stepped
      constructor <;> simp <;> omega
    · rename_i absent
      rw [Option.not_isSome_iff_eq_none] at absent
      cases stepped
      constructor <;> simp [absent] at * <;> omega
  case stopDelete =>
    split at stepped
    all_goals cases stepped
    all_goals constructor <;> simp <;> omega
  case startStartManager | startStartService | startCreateDb | stopAcceptManagerStop
      | startAcceptStartThread | stopServiceStopThread | stopServiceCleanup
      | stopServiceDelete | startServiceStartThread | stopPurge =>
    obtain ⟨next, state, manager, service, database, -⟩ := called (by rw [main]; rfl)
    constructor <;> simp [next, state, manager, service, present_congr database] <;> omega

/-- A call of the application changes no flag and no pointer. -/
theorem Matched.callStep (matched : Matched storage system) {call : ServerCall}
    (stepped : callStep call system = .ok after)
    : Matched storage after := by
  obtain ⟨accepting, manager, acceptClear, listening, service, serviceClear, managerMade,
    initialized, managerStopped, serviceStopped, stored⟩ := matched
  rw [Ethnm.callStep] at stepped
  split at stepped
  · rename_i main
    cases stepped
    simp [main] at accepting manager listening service stored
    cases call <;> constructor <;> simp [ServerCall.entry] <;> omega
  · rename_i main
    cases stepped
    simp [main] at accepting manager listening service stored
    cases call <;> constructor <;> simp [ServerCall.entry] <;> omega
  · cases stepped

/-- The other threads change neither flags nor pointers, and add to the client database. -/
theorem Matched.other {action : Action} (matched : Matched storage system)
    (other : action.isMain = false) (stepped : Stepped system action after)
    : Matched storage after := by
  have keeps (main : after.main = system.main)
      (state : after.server.state = system.server.state)
      (manager : after.server.connectionManager = system.server.connectionManager)
      (service : after.server.clientService = system.server.clientService)
      (stored : present after.server.clientDb = present system.server.clientDb)
      : Matched storage after := by
    obtain ⟨accepting, managed, acceptClear, listening, serviced, serviceClear, managerMade,
      initialized, managerStopped, serviceStopped, kept⟩ := matched
    constructor <;> simpa only [main, state, manager, service, stored]
  cases stepped with
  | aside isMain => rw [isMain] at other; cases other
  | mainStopThread | mainDropClients | mainDelete | mainClear | mainNew | mainStartThread =>
      cases other
  | update updating stored =>
      refine keeps rfl rfl rfl rfl ?_
      rw [stored]
      rfl
  | connect | listen | stopThread | pushBack | calloc | startThread | test | copy =>
      exact keeps rfl rfl rfl rfl rfl

theorem Matched.step {action : Action} (matched : Matched storage system)
    (stepped : step system action = .ok after)
    : Matched storage after := by
  cases action with
  | call call => exact matched.callStep stepped
  | main => exact matched.mainStep stepped
  | connect index fd => exact matched.other rfl (stepped_of_connectStep stepped)
  | accept index => exact matched.other rfl (stepped_of_acceptStep stepped)
  | service index => exact matched.other rfl (stepped_of_serviceStep stepped)

theorem matched_construct (storage : Storage) : Matched storage (TcpServer.construct storage) := by
  have maxAccept := clear_le_one tcpServerNotAcceptingNewConnections storage.state
  have maxService := clear_le_one tcpServerNotListeningClients storage.state
  constructor <;> simp (disch := decide) [TcpServer.construct] <;> omega

/-- In every run flags and pointers match, by induction on the run. -/
theorem matched_of_run {history : List (System × Action)}
    (run : Run Ethnm.step (TcpServer.construct storage) history system)
    : Matched storage system :=
  run.always (matched_construct storage) (fun _ _ _ matched stepped => matched.step stepped)

end Matching

/-- Each flag is set exactly when its component is missing, and the client database is there.
-/
structure Consistent (server : TcpServer) : Prop where
  accepting
    : server.isBitSet tcpServerNotAcceptingNewConnections ↔ server.connectionManager = none
  listening : server.isBitSet tcpServerNotListeningClients ↔ server.clientService = none
  initialized : server.isBitSet tcpServerInitialized
  clientDb : server.clientDb ≠ none

/-- A flag against a pointer, where the two are as many. -/
theorem isBitSet_iff_of_present {α : Type} {server : TcpServer} {bit : BitVec 32}
    {pointer : Option α} (same : clear bit server.state = present pointer)
    : server.isBitSet bit ↔ pointer = none := by
  rw [TcpServer.isBitSet_iff, same]
  exact ⟨fun zero => eq_none_of_present (Int.le_of_eq zero), fun absent => absent ▸ rfl⟩

/-- In zeroed storage flags and pointers agree whenever the main thread is in no call, and
`~TcpServer` finds all three pointers null.
-/
theorem consistent_of_run {storage : Storage} (zero : storage.state = 0)
    {history : List (System × Action)} {system : System}
    (run : Run step (TcpServer.construct storage) history system)
    : (system.main = .constructed ∨ system.main = .idle → Consistent system.server)
      ∧ (system.main = .stopDelete
          → system.server.connectionManager = none
            ∧ system.server.clientDb = none
            ∧ system.server.clientService = none
            ∧ step system .main = .ok (system.goto .deleted)) := by
  have matched := matched_of_run run
  have accept : clear tcpServerNotAcceptingNewConnections storage.state = 1 := by
    rw [zero]
    rfl
  have service : clear tcpServerNotListeningClients storage.state = 1 := by
    rw [zero]
    rfl
  constructor
  · intro between
    have lags : system.main.managerLag = 0 ∧ system.main.serviceLag = 0
        ∧ system.main.dbCleared = false := by
      rcases between with main | main
      all_goals rw [main]; exact ⟨rfl, rfl, rfl⟩
    obtain ⟨managerLag, serviceLag, dbCleared⟩ := lags
    have accepting := matched.accepting
    have manager := matched.manager
    have listening := matched.listening
    have serviced := matched.service
    have stored := matched.stored
    rw [managerLag] at accepting manager
    rw [serviceLag] at listening serviced
    rw [dbCleared] at stored
    refine ⟨isBitSet_iff_of_present (by omega), isBitSet_iff_of_present (by omega),
      TcpServer.isBitSet_iff.mpr matched.initialized,
      ne_none_of_present (Int.le_of_eq stored.symm)⟩
  · intro main
    have manager := matched.managerStopped (by rw [main]; rfl)
    have serviced := matched.serviceStopped (by rw [main]; rfl)
    have stored := matched.stored
    rw [accept] at manager
    rw [service] at serviced
    rw [main] at stored
    have noManager := eq_none_of_present manager
    have noService := eq_none_of_present serviced
    have noDb := eq_none_of_present (Int.le_of_eq stored)
    refine ⟨noManager, noDb, noService, ?_⟩
    simp [step, mainStep, main, noManager, noService, noDb]

/-- `Stop`, up to the destructor. -/
def stopActions : List Action :=
  .call .stop :: List.replicate 17 .main

/-- After `Start` flags and pointers agree, and a `Stop` then comes to its end. -/
theorem consistent_start_stop
    : (∃ history system,
        Run step (TcpServer.construct zeroStorage) history system
        ∧ system.main = .idle
        ∧ Consistent system.server)
      ∧ ∃ history system,
        Run step (TcpServer.construct zeroStorage) history system
        ∧ system.main = .stopDelete
        ∧ step system .main = .ok (system.goto .deleted) := by
  have started : executesTo step (TcpServer.construct zeroStorage) startActions
      (fun _ system => decide (system.main = .idle)) = true := by decide
  have stopped : executesTo step (TcpServer.construct zeroStorage) (startActions ++ stopActions)
      (fun _ system => decide (system.main = .stopDelete)) = true := by decide +kernel
  obtain ⟨history, system, run, main⟩ := exists_run_of_executesTo started
  obtain ⟨longer, last, stopRun, stopMain⟩ := exists_run_of_executesTo stopped
  have main := of_decide_eq_true main
  have stopMain := of_decide_eq_true stopMain
  have ended := (consistent_of_run rfl stopRun).2 stopMain
  exact ⟨⟨history, system, run, main, (consistent_of_run rfl run).1 (.inr main)⟩,
    longer, last, stopRun, stopMain, ended.2.2.2⟩

-----------------------------------------------------------------------------------------
-- The components that the pointers point to
-----------------------------------------------------------------------------------------

/-- Whether the client service was deleted, and the pointer to it not yet set to null. -/
def Statement.serviceGone : Statement → Bool
  | .stopServiceSetBit _ | .stopServiceClear _ => true
  | _ => false

/-- The components that the server points to exist. -/
structure Allocated (system : System) : Prop where
  manager
    : ∀ address, system.server.connectionManager = some address →
        (system.managers address).isSome
  service
    : system.main.serviceGone = false →
        ∀ address, system.server.clientService = some address →
          (system.services address).isSome

section Allocation

variable {system after : System} {address : Address}

/-- Nothing that is pointed to is deleted. -/
theorem Allocated.frame (allocated : Allocated system)
    (managers : after.managers = system.managers)
    (manager
      : after.server.connectionManager = system.server.connectionManager
        ∨ after.server.connectionManager = none)
    (services : ∀ address, (system.services address).isSome → (after.services address).isSome)
    (service
      : after.server.clientService = system.server.clientService
        ∨ after.server.clientService = none)
    (gone
      : after.main.serviceGone = false →
          system.main.serviceGone = false ∨ after.server.clientService = none)
    : Allocated after := by
  refine ⟨fun address is => ?_, fun there address is => ?_⟩
  · rw [managers]
    rcases manager with same | none
    · exact allocated.manager address (same ▸ is)
    · exact nomatch none.symm.trans is
  · rcases service with same | none
    · rcases gone there with before | none
      · exact services address (allocated.service before address (same ▸ is))
      · exact nomatch none.symm.trans is
    · exact nomatch none.symm.trans is

/-- Storing a service deletes none. -/
theorem isSome_services_store {changed : ClientService} (other : Address)
    (there : (system.services other).isSome)
    : ((system.store address changed).services other).isSome := by
  change (if other = address then some changed else system.services other).isSome
  split
  · rfl
  · exact there

/-- A step of the main thread that leaves the pointers and what they point to. -/
theorem Allocated.stay {middle : System} {next : Statement} (allocated : Allocated system)
    (managers : middle.managers = system.managers)
    (manager : middle.server.connectionManager = system.server.connectionManager)
    (services : ∀ address, (system.services address).isSome → (middle.services address).isSome)
    (service : middle.server.clientService = system.server.clientService)
    (gone : next.serviceGone = false → system.main.serviceGone = false)
    : Allocated (middle.goto next) :=
  allocated.frame managers (.inl manager) services (.inl service) (fun there => .inl (gone there))

theorem Allocated.mainStep (allocated : Allocated system)
    (stepped : mainStep system = .ok after)
    : Allocated after := by
  cases main : system.main <;> simp only [Ethnm.mainStep, main] at stepped
  case constructed | idle | deleted => cases stepped
  case startSetRunning | startAcceptUnSetBit | startServiceUnSetBit | stopSetNotAccepting
      | stopSetNotListening | stopUnSetRunning | stopDeleteDb | stopAcceptSetBit =>
    cases stepped
    exact allocated.stay rfl rfl (fun _ => id) rfl (fun _ => by rw [main]; rfl)
  case stopServiceSetBit =>
    cases stepped
    exact allocated.stay rfl rfl (fun _ => id) rfl (fun gone => by cases gone)
  case stopAcceptTest caller | stopServiceTest caller =>
    split at stepped
    all_goals
      cases stepped
      exact allocated.stay rfl rfl (fun _ => id) rfl (fun _ => by rw [main]; rfl)
  case startAcceptTest | startServiceTest | stopTestManager | stopTestService | stopDelete =>
    split at stepped
    all_goals cases stepped
    all_goals exact allocated.stay rfl rfl (fun _ => id) rfl (fun _ => by rw [main]; rfl)
  case startCreateDb =>
    obtain ⟨-, -, stepped⟩ := bind_eq_ok.mp stepped
    cases stepped
    exact allocated.stay rfl rfl (fun _ => id) rfl (fun _ => by rw [main]; rfl)
  case stopPurge =>
    obtain ⟨middle, purged, stepped⟩ := bind_eq_ok.mp stepped
    obtain ⟨stored, clients, heap, -, rfl⟩ := ClientDB.purgeAll_eq_ok purged
    cases stepped
    exact allocated.stay rfl rfl (fun _ => id) rfl (fun _ => by rw [main]; rfl)
  case startStartManager | startAcceptStartThread =>
    obtain ⟨middle, started, stepped⟩ := bind_eq_ok.mp stepped
    cases ConnectionManager.startThread_eq_ok started
    cases stepped
    exact allocated.stay rfl rfl (fun _ => id) rfl (fun _ => by rw [main]; rfl)
  case stopAcceptManagerStop =>
    obtain ⟨middle, managerStopped, stepped⟩ := bind_eq_ok.mp stepped
    obtain ⟨closed, rfl⟩ := ConnectionManager.stop_eq_ok managerStopped
    cases stepped
    exact allocated.stay rfl rfl (fun _ => id) rfl (fun _ => by rw [main]; rfl)
  case startStartService | startServiceStartThread =>
    obtain ⟨address, -, stepped⟩ := bind_eq_ok.mp stepped
    obtain ⟨middle, started, stepped⟩ := bind_eq_ok.mp stepped
    obtain ⟨service, found, rfl⟩ := ClientService.startThread_eq_ok started
    cases stepped
    exact allocated.stay rfl rfl isSome_services_store rfl (fun _ => by rw [main]; rfl)
  case stopServiceStopThread =>
    obtain ⟨address, -, stepped⟩ := bind_eq_ok.mp stepped
    obtain ⟨middle, stopped, stepped⟩ := bind_eq_ok.mp stepped
    obtain ⟨service, thread, found, -, rfl⟩ := ClientService.stopThread_eq_ok stopped
    cases stepped
    exact allocated.stay rfl rfl isSome_services_store rfl (fun _ => by rw [main]; rfl)
  case stopServiceCleanup =>
    obtain ⟨address, -, stepped⟩ := bind_eq_ok.mp stepped
    obtain ⟨middle, dropped, stepped⟩ := bind_eq_ok.mp stepped
    obtain ⟨service, clients, found, -, rfl⟩ := ClientService.dropClients_eq_ok dropped
    cases stepped
    exact allocated.stay rfl rfl isSome_services_store rfl (fun _ => by rw [main]; rfl)
  case stopServiceDelete =>
    obtain ⟨address, -, stepped⟩ := bind_eq_ok.mp stepped
    obtain ⟨middle, deleted, stepped⟩ := bind_eq_ok.mp stepped
    obtain ⟨service, found, rfl⟩ := ClientService.delete_eq_ok deleted
    cases stepped
    exact ⟨allocated.manager, fun gone => by cases gone⟩
  case stopAcceptClear =>
    cases stepped
    exact allocated.frame rfl (.inr rfl) (fun _ => id) (.inl rfl)
      (fun _ => .inl (by rw [main]; rfl))
  case stopServiceClear =>
    cases stepped
    exact allocated.frame rfl (.inl rfl) (fun _ => id) (.inr rfl) (fun _ => .inr rfl)
  case startAcceptNew =>
    cases stepped
    refine ⟨fun address is => ?_, fun _ => allocated.service (by rw [main]; rfl)⟩
    cases is
    exact congrArg Option.isSome (if_pos rfl)
  case startServiceNew =>
    cases stepped
    refine ⟨allocated.manager, fun _ address is => ?_⟩
    cases is
    exact congrArg Option.isSome (if_pos rfl)

theorem Allocated.step {action : Action} (allocated : Allocated system)
    (stepped : step system action = .ok after)
    : Allocated after := by
  cases action with
  | main => exact allocated.mainStep stepped
  | call call =>
      change callStep call system = .ok after at stepped
      rw [callStep] at stepped
      split at stepped
      case h_3 => cases stepped
      all_goals
        rename_i main
        cases stepped
        exact allocated.stay rfl rfl (fun _ => id) rfl (fun _ => by rw [main]; rfl)
  | connect index fd =>
      cases stepped_of_connectStep stepped with
      | aside isMain => cases isMain
      | connect => exact allocated.frame rfl (.inl rfl) (fun _ => id) (.inl rfl) .inl
  | accept index =>
      cases stepped_of_acceptStep stepped with
      | aside isMain => cases isMain
      | update | listen =>
          exact allocated.frame rfl (.inl rfl) (fun _ => id) (.inl rfl) .inl
      | stopThread | pushBack | calloc | startThread =>
          exact allocated.frame rfl (.inl rfl) isSome_services_store (.inl rfl) .inl
  | service index =>
      cases stepped_of_serviceStep stepped with
      | aside isMain => cases isMain
      | test => exact allocated.frame rfl (.inl rfl) (fun _ => id) (.inl rfl) .inl
      | copy => exact allocated.frame rfl (.inl rfl) isSome_services_store (.inl rfl) .inl

theorem allocated_construct (storage : Storage) : Allocated (TcpServer.construct storage) := by
  refine ⟨fun address is => ?_, fun _ address is => ?_⟩
  all_goals
    cases is
    rfl

/-- However the threads interleave, no pointer of the server dangles, but for the client
service while `StopClientService` deletes it; by induction on the run.
-/
theorem allocated_of_run {storage : Storage} {history : List (System × Action)}
    (run : Run Ethnm.step (TcpServer.construct storage) history system)
    : Allocated system :=
  run.always (allocated_construct storage) (fun _ _ _ allocated stepped => allocated.step stepped)

end Allocation

end Ethnm
