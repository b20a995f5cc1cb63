import Ethnm.Server.Handles

/-! Null pointers to components, deleted components, and handles without a thread. The main thread
alone never meets one, except when `Start` comes late or early; the accept threads do, since
nothing keeps `AddClient` from a server whose client service is stopped, restarted or not yet
started.
-/

namespace Ethnm
open Runs

-----------------------------------------------------------------------------------------
-- What a step follows
-----------------------------------------------------------------------------------------

/-- A computation follows no null pointer, joins no thread that was never created, and uses
nothing that was deleted.
-/
structure Finds {α : Type} (outcome : Except Halt α) : Prop where
  pointer : outcome ≠ .error (.fault .nullPointer)
  thread : outcome ≠ .error (.fault .noThread)
  object : outcome ≠ .error (.fault .useAfterFree)

section Finding

variable {α β : Type} {system : System} {address client : Address}

theorem finds_ok (value : α) : Finds (.ok value) := ⟨nofun, nofun, nofun⟩

theorem finds_disabled : Finds (α := α) (.error .disabled) := ⟨nofun, nofun, nofun⟩

theorem finds_assertionFailed : Finds (α := α) (.error (.fault .assertionFailed)) :=
  ⟨nofun, nofun, nofun⟩

/-- Each part of a computation finds what it uses. -/
theorem Finds.bind {first : Except Halt α} {next : α → Except Halt β} (found : Finds first)
    (rest : ∀ value, first = .ok value → Finds (next value))
    : Finds (first >>= next) := by
  cases result : first with
  | error halt =>
      rw [result] at found
      exact ⟨fun null => found.pointer (congrArg _ (Except.error.inj null)),
        fun none => found.thread (congrArg _ (Except.error.inj none)),
        fun freed => found.object (congrArg _ (Except.error.inj freed))⟩
  | ok value => exact rest value result

theorem finds_follow {pointer : Option α} (there : pointer.isSome) : Finds (follow pointer) := by
  cases pointer with
  | none => cases there
  | some object => exact finds_ok object

theorem finds_service (there : system.handle address ≠ none)
    : Finds (system.service address) := by
  rw [System.service]
  split
  · rename_i absent
    exact absurd (by rw [System.handle, absent]; rfl) there
  · exact finds_ok _

theorem finds_tcpServer (kept : system.main ≠ .deleted) : Finds system.tcpServer := by
  rw [System.tcpServer, if_neg kept]
  exact finds_ok _

theorem ConnectionManager.finds_startThread (there : system.server.connectionManager.isSome)
    : Finds (ConnectionManager.startThread system) :=
  (finds_follow there).bind (fun _ _ => finds_ok _)

theorem ConnectionManager.finds_stop (there : system.server.connectionManager.isSome)
    (allocated : Allocated system)
    : Finds (ConnectionManager.stop system) := by
  refine (finds_follow there).bind (fun address current =>
    Finds.bind ?_ (fun _ _ => finds_ok _))
  have there := allocated.manager address (follow_eq_ok current)
  rw [System.manager]
  split
  · rename_i absent
    rw [absent] at there
    cases there
  · exact finds_ok _

theorem ClientService.finds_startThread (there : system.handle address ≠ none)
    (notNull : system.handle address ≠ some .null)
    : Finds (ClientService.startThread address system) := by
  refine (finds_service there).bind (fun service found => ?_)
  rw [if_neg]
  · exact finds_ok _
  · intro null
    rw [handle_of_services (System.service_eq_ok found), null] at notNull
    exact notNull rfl

theorem ClientService.finds_stopThread {thread : Nat}
    (created : system.handle address = some (.created thread))
    : Finds (ClientService.stopThread address system) := by
  refine (finds_service (by rw [created]; exact nofun)).bind (fun service found => ?_)
  rw [handle_of_services (System.service_eq_ok found)] at created
  rw [Option.some.inj created]
  exact finds_ok _

theorem ClientService.finds_dropClients (there : system.handle address ≠ none)
    : Finds (ClientService.dropClients address system) := by
  refine (finds_service there).bind (fun service _ => ?_)
  split
  · split
    · rename_i cleaned
      cases ClientService.cleanup_error cleaned
      exact ⟨nofun, nofun, nofun⟩
    · exact finds_ok _
  · exact finds_assertionFailed

/-- The purge finds the client database, though it may use a client that it has deleted. -/
theorem ClientDB.purgeAll_error {halt : Halt} (there : system.server.clientDb.isSome)
    (failed : ClientDB.purgeAll system = .error halt)
    : halt = .fault .danglingIterator ∨ halt = .fault .useAfterFree := by
  obtain ⟨clients, stored⟩ := Option.isSome_iff_exists.mp there
  rw [ClientDB.purgeAll, stored] at failed
  cases swept : ClientDB.purge clients system.heap with
  | error fault =>
      simp only [follow, bind, Except.bind, swept] at failed
      cases failed
      exact (ClientDB.purge_error swept).imp (congrArg _) (congrArg _)
  | ok left =>
      simp only [follow, bind, Except.bind, swept] at failed
      cases failed

theorem isSome_of_present {pointer : Option α} (there : 1 ≤ present pointer) : pointer.isSome :=
  Option.isSome_iff_ne_none.mpr (ne_none_of_present there)

end Finding

-----------------------------------------------------------------------------------------
-- Steps
-----------------------------------------------------------------------------------------

/-- What holds after steps in time. -/
structure Present (storage : Storage) (history : List (System × Action)) (system : System) : Prop
    where
  matched : Matched storage system
  allocated : Allocated system
  traced : Traced history system
  staged : Staged history system
  manned : ∀ address, Manned history address system

section Steps

variable {storage : Storage} {system after : System} {history : List (System × Action)}
  {action : Action} {address : Address}

theorem Present.step (present : Present storage history system)
    (timed : WellTimed history system action) (stepped : step system action = .ok after)
    : Present storage (history ++ [(system, action)]) after where
  matched := present.matched.step stepped
  allocated := present.allocated.step stepped
  traced := present.traced.step timed stepped
  staged := present.staged.step stepped
  manned := Manned.step present.manned present.staged timed stepped

theorem present_construct (storage : Storage)
    : Present storage [] (TcpServer.construct storage) where
  matched := matched_construct storage
  allocated := allocated_construct storage
  traced := traced_construct storage
  staged := staged_construct storage
  manned := manned_construct storage

/-- A client service that can be stopped has a thread. -/
theorem Manned.created_of_stoppable (manned : Manned history address system)
    (stoppable : system.Stoppable history address)
    : ∃ thread, system.handle address = some (.created thread) := by
  obtain ⟨started, unstopped, unheld⟩ := stoppable
  cases handle : system.handle address with
  | none => exact absurd handle (manned.existing started unstopped)
  | some handle' =>
      cases handle' with
      | null =>
          rcases manned.null handle with held | stopped
          · rw [unheld] at held
            cases held
          · omega
      | zeroed =>
          have held := manned.zeroed handle started
          rw [unheld] at held
          cases held
      | created thread => exact ⟨thread, rfl⟩

/-- A service in the hands of a `Listen` exists. -/
theorem Manned.there_of_held (manned : Manned history address system) {index : Nat}
    {thread : AcceptThread} (there : system.acceptThreads[index]? = some thread)
    {handle : Handle} (inHand : thread.inHand = some (address, handle))
    : system.handle address ≠ none := by
  obtain ⟨started, unstopped⟩ :=
    manned.held (List.ne_nil_of_mem (mem_holding there (inHandOf_self inHand)))
  exact manned.existing started unstopped

/-- A service with a thread on it exists. -/
theorem Manned.there_of_running {thread : ServiceThread}
    (manned : Manned history thread.service system) (running : thread ∈ system.serviceThreads)
    : system.handle thread.service ≠ none := by
  have member : thread.id ∈ system.threadsOn thread.service := by
    refine List.mem_map.mpr ⟨(thread.id, thread.service), List.mem_filter.mpr ⟨?_, ?_⟩, rfl⟩
    · exact List.mem_map.mpr ⟨thread, running, rfl⟩
    · exact decide_eq_true rfl
  obtain ⟨started, unstopped⟩ := manned.running (List.ne_nil_of_mem member)
  exact manned.existing started unstopped

/-- The current client service exists, except while `StopClientService` deletes it. -/
theorem Allocated.handle_ne_none (allocated : Allocated system)
    (kept : system.main.serviceGone = false)
    (current : system.server.clientService = some address)
    : system.handle address ≠ none := by
  obtain ⟨service, found⟩ := Option.isSome_iff_exists.mp (allocated.service kept address current)
  rw [handle_of_services found]
  exact nofun

theorem Statement.undeleted_of_not_dbCleared {main : Statement} (kept : main.dbCleared = false)
    : main ≠ .deleted := by
  rintro rfl
  cases kept

/-- The client database is there until `Stop` deletes it. -/
theorem Matched.isSome_clientDb (matched : Matched storage system)
    (kept : system.main.dbCleared = false)
    : system.server.clientDb.isSome := by
  have stored := matched.stored
  rw [kept] at stored
  exact isSome_of_present (Int.le_of_eq stored.symm)

theorem finds_mainStep (present : Present storage history system)
    (timed : WellTimed history system .main) (notPurging : system.main ≠ .stopPurge)
    : Finds (mainStep system) := by
  have accepting := present.matched.accepting
  have acceptClear := present.matched.acceptClear
  have listening := present.matched.listening
  have serviceClear := present.matched.serviceClear
  have someAccept := clear_nonneg tcpServerNotAcceptingNewConnections system.server.state
  have someService := clear_nonneg tcpServerNotListeningClients system.server.state
  have there := @Allocated.handle_ne_none system
  cases main : system.main
  case stopPurge => exact absurd main notPurging
  case constructed | idle | deleted =>
    rw [mainStep, main]
    exact finds_disabled
  case startSetRunning | stopAcceptSetBit | stopAcceptClear | startAcceptUnSetBit
      | startAcceptNew | stopServiceSetBit | stopServiceClear | startServiceNew
      | startServiceUnSetBit | stopSetNotAccepting | stopSetNotListening | stopDeleteDb
      | stopUnSetRunning =>
    rw [mainStep, main]
    exact finds_ok _
  case stopAcceptTest | startAcceptTest | stopServiceTest | startServiceTest | stopTestManager
      | stopTestService =>
    rw [mainStep, main]
    dsimp only
    split
    all_goals exact finds_ok _
  case stopDelete =>
    rw [mainStep, main]
    dsimp only
    split
    · exact finds_ok _
    · exact finds_assertionFailed
  case startStartManager =>
    rw [mainStep, main]
    exact (ConnectionManager.finds_startThread (present.traced.startManager main)).bind
      (fun _ _ => finds_ok _)
  case startAcceptStartThread =>
    rw [mainStep, main]
    exact (ConnectionManager.finds_startThread
      (isSome_of_present (present.matched.managerMade main))).bind (fun _ _ => finds_ok _)
  case stopAcceptManagerStop caller =>
    have lag : system.main.managerLag = -1 := by rw [main]; rfl
    rw [lag] at accepting
    rw [mainStep, main]
    exact (ConnectionManager.finds_stop (isSome_of_present (by omega)) present.allocated).bind
      (fun _ _ => finds_ok _)
  case startCreateDb =>
    rw [mainStep, main]
    exact (finds_follow (present.matched.isSome_clientDb (by rw [main]; rfl))).bind
      (fun _ _ => finds_ok _)
  case startStartService =>
    simp only [WellTimed, Statement.WellTimed, main] at timed
    rw [mainStep, main]
    refine (finds_follow (present.traced.startService (.inr main))).bind (fun address is => ?_)
    have current := follow_eq_ok is
    have unstopped := present.staged.unstopped address current (by rw [main]; rfl)
    refine (ClientService.finds_startThread
      (there present.allocated (by rw [main]; rfl) current) ?_).bind (fun _ _ => finds_ok _)
    intro null
    rcases (present.manned address).null null with held | stopped
    · exact timed address current held
    · omega
  case startServiceStartThread =>
    have lag : system.main.serviceLag = -1 := by rw [main]; rfl
    rw [lag] at listening
    rw [mainStep, main]
    refine (finds_follow (isSome_of_present (by omega))).bind (fun address is => ?_)
    have current := follow_eq_ok is
    have unstopped := present.staged.unstopped address current (by rw [main]; rfl)
    have unstarted := present.staged.made address current main
    refine (ClientService.finds_startThread
      (there present.allocated (by rw [main]; rfl) current) ?_).bind (fun _ _ => finds_ok _)
    intro null
    rcases (present.manned address).null null with held | stopped
    · have started := ((present.manned address).held (List.ne_nil_of_mem held)).1
      omega
    · omega
  case stopServiceStopThread caller =>
    have set := serviceClear 1 (by rw [main]; rfl)
    have lag : system.main.serviceLag = 0 := by rw [main]; rfl
    simp only [WellTimed, Statement.WellTimed, main] at timed
    rw [lag] at listening
    rw [mainStep, main]
    refine (finds_follow (isSome_of_present (by omega))).bind (fun address is => ?_)
    obtain ⟨thread, created⟩ :=
      (present.manned address).created_of_stoppable (timed address (follow_eq_ok is)).1
    exact (ClientService.finds_stopThread created).bind (fun _ _ => finds_ok _)
  case stopServiceCleanup caller =>
    have set := serviceClear 1 (by rw [main]; rfl)
    have lag : system.main.serviceLag = 0 := by rw [main]; rfl
    rw [lag] at listening
    rw [mainStep, main]
    refine (finds_follow (isSome_of_present (by omega))).bind (fun address is => ?_)
    exact (ClientService.finds_dropClients
      (there present.allocated (by rw [main]; rfl) (follow_eq_ok is))).bind
      (fun _ _ => finds_ok _)
  case stopServiceDelete caller =>
    have set := serviceClear 1 (by rw [main]; rfl)
    have lag : system.main.serviceLag = 0 := by rw [main]; rfl
    rw [lag] at listening
    rw [mainStep, main]
    refine (finds_follow (isSome_of_present (by omega))).bind (fun address is => ?_)
    exact ((finds_service (there present.allocated (by rw [main]; rfl) (follow_eq_ok is))).bind
      (fun _ _ => finds_ok _)).bind (fun _ _ => finds_ok _)

theorem finds_acceptStep {index : Nat} (present : Present storage history system)
    (timed : WellTimed history system (.accept index))
    : Finds (acceptStep index system) := by
  rw [acceptStep]
  split
  · exact finds_disabled
  · exact finds_disabled
  · rename_i client updating
    have kept : system.main.dbCleared = false := timed _ updating
    refine (finds_tcpServer (Statement.undeleted_of_not_dbCleared kept)).bind (fun _ _ => ?_)
    refine Finds.bind ?_ (fun _ _ => finds_ok _)
    exact (finds_follow (present.matched.isSome_clientDb kept)).bind (fun _ _ => finds_ok _)
  · rename_i client listening
    have last : lastStored Statement.storesService history = true := timed _ listening
    have current : system.server.clientService.isSome := present.traced.service.trans last
    have kept : system.main ≠ .deleted := by
      intro deleted
      rw [present.traced.deleted deleted] at current
      cases current
    refine (finds_tcpServer kept).bind (fun server found => ?_)
    cases System.tcpServer_eq_ok found
    exact (finds_follow current).bind (fun _ _ => finds_ok _)
  · rename_i service client stopping
    obtain ⟨thread, created⟩ :=
      (present.manned service).created_of_stoppable (timed _ stopping)
    exact (ClientService.finds_stopThread created).bind (fun _ _ => finds_ok _)
  · rename_i service client pushing
    have there := (present.manned service).there_of_held pushing rfl
    exact ((finds_service there).bind (fun _ _ => finds_ok _)).bind (fun _ _ => finds_ok _)
  · rename_i service allocating
    have there := (present.manned service).there_of_held allocating rfl
    exact ((finds_service there).bind (fun _ _ => finds_ok _)).bind (fun _ _ => finds_ok _)
  · rename_i service starting
    have there := (present.manned service).there_of_held starting rfl
    have zeroed := mem_holding starting (inHandOf_self rfl)
    exact (ClientService.finds_startThread there
      ((present.manned service).calloced zeroed)).bind (fun _ _ => finds_ok _)

theorem finds_serviceStep {index : Nat} (present : Present storage history system)
    (timed : WellTimed history system (.service index))
    : Finds (serviceStep index system) := by
  rw [serviceStep]
  split
  · exact finds_disabled
  · rename_i thread running
    have timed : thread.WellTimed system := timed thread running
    have there := (present.manned thread.service).there_of_running (List.mem_of_getElem? running)
    rw [ServiceThread.WellTimed] at timed
    split
    · rename_i prologue
      rw [prologue] at timed
      exact (finds_service there).bind
        (fun _ _ => (finds_tcpServer timed).bind (fun _ _ => finds_ok _))
    · rename_i prologue
      rw [prologue] at timed
      refine (finds_tcpServer (Statement.undeleted_of_not_dbCleared timed)).bind (fun _ _ => ?_)
      refine Finds.bind ?_ (fun _ _ => finds_ok _)
      refine (finds_service there).bind (fun _ _ => ?_)
      exact (finds_follow (present.matched.isSome_clientDb timed)).bind (fun _ _ => finds_ok _)
    · exact finds_disabled

/-- A step in time finds what it uses. -/
theorem Present.not_usesMissing (present : Present storage history system)
    (timed : WellTimed history system action)
    : ¬ UsesMissing system action := by
  have of_finds (finds : Finds (Ethnm.step system action)) : ¬ UsesMissing system action := by
    rintro (null | none | freed)
    · exact finds.pointer null
    · exact finds.thread none
    · exact finds.object freed.1
  cases action with
  | accept index => exact of_finds (finds_acceptStep present timed)
  | service index => exact of_finds (finds_serviceStep present timed)
  | connect index fd =>
      refine of_finds ?_
      rw [Ethnm.step, connectStep]
      split
      · exact (finds_tcpServer timed).bind (fun _ _ => finds_ok _)
      · exact finds_disabled
  | call call =>
      refine of_finds ?_
      rw [Ethnm.step, callStep]
      split
      · exact finds_ok _
      · exact finds_ok _
      · exact finds_disabled
  | main =>
      by_cases purging : system.main = .stopPurge
      · have there := present.matched.isSome_clientDb (by rw [purging]; rfl)
        have only {fault : Fault} (failed : Ethnm.step system .main = .error (.fault fault))
            : fault = .danglingIterator ∨ fault = .useAfterFree := by
          rw [Ethnm.step, mainStep, purging] at failed
          cases purged : ClientDB.purgeAll system with
          | ok after =>
              simp only [purged, bind, Except.bind] at failed
              cases failed
          | error halt =>
              simp only [purged, bind, Except.bind] at failed
              cases failed
              exact (ClientDB.purgeAll_error there purged).imp Halt.fault.inj Halt.fault.inj
        rintro (null | none | freed)
        · rcases only null with is | is <;> cases is
        · rcases only none with is | is <;> cases is
        · exact freed.2 ⟨rfl, purging⟩
      · exact of_finds (finds_mainStep present timed purging)

end Steps

/-- In a run of steps in time no step uses a missing component, and neither does the step in time
that follows the run; by induction on the run.
-/
theorem not_usesMissing_of_wellTimed {storage : Storage} {history : List (System × Action)}
    {system : System} (run : Run step (TcpServer.construct storage) history system)
    (timed : GuardedAfter WellTimed [] history) {action : Action}
    (next : WellTimed history system action)
    : ¬ UsesMissing system action := by
  have present : Present storage history system :=
    run.inductionAfter timed (present_construct storage)
      (fun _ _ _ _ present timed stepped => present.step timed stepped)
  exact present.not_usesMissing next

/-- A client that connects before `StopClientService` is added, and so is one that connects after
`StartClientService`.
-/
theorem not_usesMissing_restarted
    : ∃ history system,
        Run step (TcpServer.construct zeroStorage) history system
        ∧ system.acceptThreads = [.startThread 5]
        ∧ ¬ UsesMissing system (.accept 0) := by
  have passed : executesTo step (TcpServer.construct zeroStorage)
      (startActions ++ .service 0 :: .connect 0 4 :: List.replicate 6 (.accept 0)
        ++ .call .stopClientService :: List.replicate 6 .main
        ++ .call .startClientService :: List.replicate 4 .main
        ++ .connect 0 5 :: List.replicate 5 (.accept 0))
      (fun history system =>
        decide (GuardedAfter WellTimed [] history
          ∧ WellTimed history system (.accept 0)
          ∧ system.acceptThreads = [.startThread 5]))
      = true := by decide +kernel
  obtain ⟨history, system, run, test⟩ := exists_run_of_executesTo passed
  obtain ⟨timed, next, threads⟩ := of_decide_eq_true test
  exact ⟨history, system, run, threads, not_usesMissing_of_wellTimed run timed next⟩

/-- A client that connects after `StopClientService` is handed to a null client service. -/
theorem usesMissing_stoppedService
    : ∃ history system,
        Run step (TcpServer.construct zeroStorage) history system
        ∧ UsesMissing system (.accept 0) := by
  have passed : executesTo step (TcpServer.construct zeroStorage)
      (startActions ++ .call .stopClientService :: List.replicate 6 .main
        ++ [.connect 0 4, .accept 0])
      (fun _ system =>
        match step system (.accept 0) with
        | .error (.fault .nullPointer) => true
        | _ => false)
      = true := by decide +kernel
  obtain ⟨history, system, run, test⟩ := exists_run_of_executesTo passed
  refine ⟨history, system, run, .inl ?_⟩
  split at test
  · assumption
  · cases test

end Ethnm
