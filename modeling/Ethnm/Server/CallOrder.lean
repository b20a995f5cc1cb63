import Ethnm.Server.Components

/-! The order of calls that the server takes for granted, told from the statements that the
threads have executed: nothing in the code enforces it.
-/

namespace Ethnm
open Runs

-----------------------------------------------------------------------------------------
-- What the calls have done
-----------------------------------------------------------------------------------------

/-- What a statement stores into `connection_manager_`: an object, or a null pointer. -/
def Statement.storesManager : Statement → Option Bool
  | .startAcceptNew => some true
  | .stopAcceptClear _ => some false
  | _ => none

/-- What a statement stores into `client_service_`. -/
def Statement.storesService : Statement → Option Bool
  | .startServiceNew => some true
  | .stopServiceClear _ => some false
  | _ => none

/-- Whether the last store so far was of an object, as the constructor's was. -/
def lastStored (stores : Statement → Option Bool) (history : List (System × Action)) : Bool :=
  history.foldl
    (fun last visit => if visit.2 = .main then (stores visit.1.main).getD last else last) true

/-- How often the main thread has executed such a statement for a client service. -/
def timesOn (statements : Statement → Bool) (address : Address)
    (history : List (System × Action))
    : Nat :=
  history.countP (fun visit =>
    visit.2 = .main ∧ statements visit.1.main ∧ visit.1.server.clientService = some address)

/-- How often `Start` and `StartClientService` have started a thread of a client service. -/
def threadStarts (address : Address) (history : List (System × Action)) : Nat :=
  timesOn Statement.startsThread address history

/-- How often `StopClientService` has stopped a thread of a client service. -/
def threadStops (address : Address) (history : List (System × Action)) : Nat :=
  timesOn Statement.stopsThread address history

/-- How an accept thread inside `Listen` on a client service has left its handle. -/
def AcceptThread.inHandOf (address : Address) (thread : AcceptThread) : Option Handle :=
  match thread.inHand with
  | none => none
  | some (service, handle) => if service = address then some handle else none

/-- How the accept threads that are inside `Listen` on a client service have left its handle. -/
def System.holding (address : Address) (system : System) : List Handle :=
  system.acceptThreads.filterMap (·.inHandOf address)

/-- A client service's thread was started, no `StopClientService` has stopped it, and no
`Listen` is between its own `StopThread` and `StartThread`.
-/
def System.Stoppable (history : List (System × Action)) (address : Address) (system : System)
    : Prop :=
  1 ≤ threadStarts address history
  ∧ threadStops address history = 0
  ∧ system.holding address = []

instance (history : List (System × Action)) (address : Address) (system : System)
    : Decidable (system.Stoppable history address) :=
  inferInstanceAs (Decidable (_ ∧ _))

-----------------------------------------------------------------------------------------
-- Steps in time
-----------------------------------------------------------------------------------------

/-- `Start` starts the service's thread while no `Listen` has freed the handle. A client service
is stopped when it can be, and only one thread was started on it.
-/
def Statement.WellTimed (history : List (System × Action)) (system : System)
    : Statement → Prop
  | .startStartService =>
      ∀ address ∈ system.server.clientService, .null ∉ system.holding address
  | .stopServiceStopThread _ =>
      ∀ address ∈ system.server.clientService,
        system.Stoppable history address ∧ threadStarts address history = 1
  | _ => True

instance (history : List (System × Action)) (system : System) (main : Statement)
    : Decidable (main.WellTimed history system) := by
  unfold Statement.WellTimed
  split <;> infer_instance

/-- `AddClient` puts a client into the database before `Stop` deletes that, and calls `Listen`
while no `StopClientService` has left the server without a client service. `Listen` stops a
thread that can be stopped.
-/
def AcceptThread.WellTimed (history : List (System × Action)) (system : System)
    : AcceptThread → Prop
  | .update _ => system.main.dbCleared = false
  | .listen _ => lastStored Statement.storesService history = true
  | .stopThread address _ => system.Stoppable history address
  | .accept | .pushBack _ _ | .calloc _ | .startThread _ => True

instance (history : List (System × Action)) (system : System)
    : ∀ thread : AcceptThread, Decidable (thread.WellTimed history system)
  | .update _ => inferInstanceAs (Decidable (_ = false))
  | .listen _ => inferInstanceAs (Decidable (_ = true))
  | .stopThread address _ => inferInstanceAs (Decidable (system.Stoppable history address))
  | .accept | .pushBack _ _ | .calloc _ | .startThread _ => isTrue trivial

/-- The prologue of a client service's thread tests the flag before `Stop` deletes the server,
and copies the clients before `Stop` deletes the database.
-/
def ServiceThread.WellTimed (system : System) (thread : ServiceThread) : Prop :=
  match thread.prologue with
  | .test => system.main ≠ .deleted
  | .copy => system.main.dbCleared = false
  | .passed => True

instance (system : System) : ∀ thread : ServiceThread, Decidable (thread.WellTimed system)
  | ⟨_, _, .test⟩ => inferInstanceAs (Decidable (_ ≠ _))
  | ⟨_, _, .copy⟩ => inferInstanceAs (Decidable (_ = false))
  | ⟨_, _, .passed⟩ => isTrue trivial

/-- The steps at which the order of calls matters. `Start` is not called between
`StopConnectionAcceptance` and `StartConnectionAcceptance`, nor between `StopClientService` and
`StartClientService`. No client connects to a server that `Stop` has deleted.
-/
def WellTimed (history : List (System × Action)) (system : System) : Action → Prop
  | .call call =>
      call = .start
      → lastStored Statement.storesManager history = true
        ∧ lastStored Statement.storesService history = true
  | .main => system.main.WellTimed history system
  | .connect _ _ => system.main ≠ .deleted
  | .accept index =>
      ∀ thread ∈ system.acceptThreads[index]?, thread.WellTimed history system
  | .service index => ∀ thread ∈ system.serviceThreads[index]?, thread.WellTimed system

instance (history : List (System × Action)) (system : System)
    : ∀ action, Decidable (WellTimed history system action)
  | .call _ => inferInstanceAs (Decidable (_ → _))
  | .main => inferInstanceAs (Decidable (system.main.WellTimed history system))
  | .connect _ _ => inferInstanceAs (Decidable (_ ≠ _))
  | .accept index => inferInstanceAs (Decidable (∀ thread ∈ system.acceptThreads[index]?, _))
  | .service index => inferInstanceAs (Decidable (∀ thread ∈ system.serviceThreads[index]?, _))

/-- A step follows a null pointer, cancels and joins a thread that was never created, or uses
what was deleted. What `Purge` may use after it has deleted it is a client, and no component.
-/
def UsesMissing (system : System) (action : Action) : Prop :=
  step system action = .error (.fault .nullPointer)
  ∨ step system action = .error (.fault .noThread)
  ∨ step system action = .error (.fault .useAfterFree)
    ∧ ¬ (action = .main ∧ system.main = .stopPurge)

-----------------------------------------------------------------------------------------
-- The pointers, by the calls
-----------------------------------------------------------------------------------------

section Records

variable {history : List (System × Action)} {system : System} {action : Action}

theorem lastStored_snoc {stores : Statement → Option Bool}
    : lastStored stores (history ++ [(system, action)])
      = if action = .main then (stores system.main).getD (lastStored stores history)
        else lastStored stores history := by
  rw [lastStored, List.foldl_append]
  rfl

/-- A step of another thread, or of a statement that stores nothing. -/
theorem lastStored_snoc_of_none {stores : Statement → Option Bool}
    (none : action = .main → stores system.main = none)
    : lastStored stores (history ++ [(system, action)]) = lastStored stores history := by
  rw [lastStored_snoc]
  split
  · rename_i isMain
    rw [none isMain]
    rfl
  · rfl

theorem timesOn_snoc {statements : Statement → Bool} {address : Address}
    : timesOn statements address (history ++ [(system, action)])
      = timesOn statements address history
        + if action = .main ∧ statements system.main
            ∧ system.server.clientService = some address
          then 1 else 0 := by
  rw [timesOn, List.countP_append, List.countP_singleton, timesOn]
  simp only [decide_eq_true_eq]

/-- A step of another thread, or of another statement. -/
theorem timesOn_snoc_of_not {statements : Statement → Bool} {address : Address}
    (not : action = .main → statements system.main = false)
    : timesOn statements address (history ++ [(system, action)])
      = timesOn statements address history := by
  rw [timesOn_snoc, if_neg, Nat.add_zero]
  rintro ⟨isMain, executed, -⟩
  rw [not isMain] at executed
  cases executed

/-- Nor is it one on another client service. -/
theorem timesOn_snoc_of_ne {statements : Statement → Bool} {address other : Address}
    (current : system.server.clientService = some address) (different : other ≠ address)
    : timesOn statements other (history ++ [(system, action)])
      = timesOn statements other history := by
  rw [timesOn_snoc, if_neg, Nat.add_zero]
  rintro ⟨-, -, is⟩
  exact different (Option.some.inj (is.symm.trans current))

theorem timesOn_snoc_self {statements : Statement → Bool} {address : Address}
    (executed : statements system.main) (current : system.server.clientService = some address)
    : timesOn statements address (history ++ [(system, .main)])
      = timesOn statements address history + 1 := by
  rw [timesOn_snoc, if_pos ⟨rfl, executed, current⟩]

end Records

/-- The pointers to the components are those that the calls have stored. Inside `Start` both
are there, and past the deletion of the server the client service is not.
-/
structure Traced (history : List (System × Action)) (system : System) : Prop where
  manager
    : system.server.connectionManager.isSome = lastStored Statement.storesManager history
  service : system.server.clientService.isSome = lastStored Statement.storesService history
  startManager : system.main = .startStartManager → system.server.connectionManager.isSome
  startService
    : system.main = .startStartManager ∨ system.main = .startStartService
      → system.server.clientService.isSome
  deleted : system.main = .deleted → system.server.clientService = none

section Tracing

variable {history : List (System × Action)} {system after : System} {action : Action}

/-- Neither inside `Start`, where it follows the pointers, nor past the deletion. -/
def Statement.elsewhere : Statement → Bool
  | .startStartManager | .startStartService | .deleted => false
  | _ => true

/-- Elsewhere there is nothing to show but what was stored. -/
theorem Traced.of_elsewhere
    (manager
      : after.server.connectionManager.isSome
        = lastStored Statement.storesManager (history ++ [(system, action)]))
    (service
      : after.server.clientService.isSome
        = lastStored Statement.storesService (history ++ [(system, action)]))
    (elsewhere : after.main.elsewhere)
    : Traced (history ++ [(system, action)]) after := by
  refine ⟨manager, service, fun is => ?_, fun is => ?_, fun is => ?_⟩
  · rw [is] at elsewhere
    cases elsewhere
  · rcases is with is | is
    all_goals
      rw [is] at elsewhere
      cases elsewhere
  · rw [is] at elsewhere
    cases elsewhere

/-- The connection manager stays. -/
theorem Traced.keptManager (traced : Traced history system)
    (same : after.server.connectionManager = system.server.connectionManager)
    (none : action = .main → system.main.storesManager = none)
    : after.server.connectionManager.isSome
      = lastStored Statement.storesManager (history ++ [(system, action)]) := by
  rw [same, lastStored_snoc_of_none none]
  exact traced.manager

/-- The client service stays. -/
theorem Traced.keptService (traced : Traced history system)
    (same : after.server.clientService = system.server.clientService)
    (none : action = .main → system.main.storesService = none)
    : after.server.clientService.isSome
      = lastStored Statement.storesService (history ++ [(system, action)]) := by
  rw [same, lastStored_snoc_of_none none]
  exact traced.service

/-- The pointers and the main thread stay. -/
theorem Traced.stay (traced : Traced history system)
    (manager : after.server.connectionManager = system.server.connectionManager)
    (service : after.server.clientService = system.server.clientService)
    (other : action ≠ .main) (main : after.main = system.main)
    : Traced (history ++ [(system, action)]) after := by
  refine ⟨traced.keptManager manager (fun is => absurd is other),
    traced.keptService service (fun is => absurd is other), ?_, ?_, ?_⟩
  · rw [main, manager]
    exact traced.startManager
  · rw [main, service]
    exact traced.startService
  · rw [main, service]
    exact traced.deleted

theorem Traced.mainStep (traced : Traced history system)
    (stepped : mainStep system = .ok after)
    : Traced (history ++ [(system, .main)]) after := by
  have called := @called_of_mainStep system after stepped
  -- A statement that stores neither pointer.
  have keeps (manager : after.server.connectionManager = system.server.connectionManager)
      (service : after.server.clientService = system.server.clientService)
      (none : system.main.storesManager = none ∧ system.main.storesService = none)
      (elsewhere : after.main.elsewhere)
      : Traced (history ++ [(system, .main)]) after :=
    .of_elsewhere (traced.keptManager manager (fun _ => none.1))
      (traced.keptService service (fun _ => none.2)) elsewhere
  cases main : system.main <;> simp only [Ethnm.mainStep, main] at stepped
  case constructed | idle | deleted => cases stepped
  case startSetRunning | startAcceptUnSetBit | startServiceUnSetBit | stopSetNotAccepting
      | stopSetNotListening | stopUnSetRunning | stopDeleteDb | stopAcceptSetBit
      | stopServiceSetBit =>
    cases stepped
    exact keeps rfl rfl (by rw [main]; exact ⟨rfl, rfl⟩) rfl
  case stopAcceptTest caller | stopServiceTest caller =>
    split at stepped
    all_goals
      cases stepped
      cases caller
    all_goals
      exact keeps rfl rfl (by rw [main]; exact ⟨rfl, rfl⟩) rfl
  case startAcceptTest | startServiceTest | stopTestManager | stopTestService =>
    split at stepped
    all_goals
      cases stepped
      exact keeps rfl rfl (by rw [main]; exact ⟨rfl, rfl⟩) rfl
  case stopDelete =>
    split at stepped
    · rename_i nulls
      cases stepped
      refine ⟨traced.keptManager rfl (fun _ => by rw [main]; rfl),
        traced.keptService rfl (fun _ => by rw [main]; rfl), fun is => ?_, fun is => ?_,
        fun _ => Option.isNone_iff_eq_none.mp nulls.2.2⟩
      · cases is
      · rcases is with is | is <;> cases is
    · cases stepped
  case stopAcceptClear caller =>
    cases stepped
    refine .of_elsewhere ?_ (traced.keptService rfl (fun _ => by rw [main]; rfl))
      (by cases caller <;> rfl)
    rw [lastStored_snoc, main]
    rfl
  case stopServiceClear caller =>
    cases stepped
    refine .of_elsewhere (traced.keptManager rfl (fun _ => by rw [main]; rfl)) ?_
      (by cases caller <;> rfl)
    rw [lastStored_snoc, main]
    rfl
  case startAcceptNew =>
    cases stepped
    refine .of_elsewhere ?_ (traced.keptService rfl (fun _ => by rw [main]; rfl)) rfl
    rw [lastStored_snoc, main]
    rfl
  case startServiceNew =>
    cases stepped
    refine .of_elsewhere (traced.keptManager rfl (fun _ => by rw [main]; rfl)) ?_ rfl
    rw [lastStored_snoc, main]
    rfl
  case startStartManager =>
    obtain ⟨next, -, manager, service, -, -⟩ := called (by rw [main]; rfl)
    refine ⟨traced.keptManager manager (fun _ => by rw [main]; rfl),
      traced.keptService service (fun _ => by rw [main]; rfl), fun is => ?_, fun _ => ?_,
      fun is => ?_⟩
    · rw [next] at is
      cases is
    · rw [service]
      exact traced.startService (.inl main)
    · rw [next] at is
      cases is
  case startStartService | startCreateDb | stopAcceptManagerStop | startAcceptStartThread
      | stopServiceStopThread | stopServiceCleanup | stopServiceDelete
      | startServiceStartThread | stopPurge =>
    obtain ⟨next, -, manager, service, -, -⟩ := called (by rw [main]; rfl)
    refine keeps manager service (by rw [main]; exact ⟨rfl, rfl⟩) ?_
    rw [next]
    rfl

/-- `Start` is called with both components there. -/
theorem Traced.callStep {call : ServerCall} (traced : Traced history system)
    (timed : WellTimed history system (.call call))
    (stepped : callStep call system = .ok after)
    : Traced (history ++ [(system, .call call)]) after := by
  cases callStep_eq_ok stepped
  refine ⟨traced.keptManager rfl (fun is => by cases is),
    traced.keptService rfl (fun is => by cases is), ?_, ?_, ?_⟩
  · intro is
    cases call with
    | start => exact traced.manager.trans (timed rfl).1
    | _ => cases is
  · intro is
    cases call with
    | start => exact traced.service.trans (timed rfl).2
    | _ => rcases is with is | is <;> cases is
  · intro is
    cases call <;> cases is

theorem Traced.step (traced : Traced history system) (timed : WellTimed history system action)
    (stepped : step system action = .ok after)
    : Traced (history ++ [(system, action)]) after := by
  have other (isMain : action.isMain = false) (stepped : Stepped system action after)
      : Traced (history ++ [(system, action)]) after := by
    cases stepped with
    | aside yes => rw [yes] at isMain; cases isMain
    | mainStopThread | mainDropClients | mainDelete | mainClear | mainNew | mainStartThread =>
        cases isMain
    | connect | update | listen | stopThread | pushBack | calloc | startThread | test | copy =>
        exact traced.stay rfl rfl (fun is => by cases is) rfl
  cases action with
  | main => exact traced.mainStep stepped
  | call call => exact traced.callStep timed stepped
  | connect index fd => exact other rfl (stepped_of_connectStep stepped)
  | accept index => exact other rfl (stepped_of_acceptStep stepped)
  | service index => exact other rfl (stepped_of_serviceStep stepped)

theorem traced_construct (storage : Storage) : Traced [] (TcpServer.construct storage) :=
  ⟨rfl, rfl, (fun is => by cases is), (fun is => by rcases is with is | is <;> cases is),
    fun is => by cases is⟩

end Tracing

end Ethnm
