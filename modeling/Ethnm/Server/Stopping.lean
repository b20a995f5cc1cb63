import Ethnm.Server.Pointers
import Ethnm.Server.Presence

/-! The end of a server. `Stop` goes on from statement to statement to `delete this`, unless
it meets one of two lists that its traversals cannot take: two clients in the database, or a
client twice in the service.
-/

namespace Ethnm
open Custody Runs

-----------------------------------------------------------------------------------------
-- The purge
-----------------------------------------------------------------------------------------

section Purging

variable {heap : ClientHeap} {clients : List Address}

/-- A client that is alone is aborted, and its descriptor closed unless it is zero. -/
theorem ClientDB.purge_few (live : ∀ client ∈ clients, (heap.objects client).isSome)
    (few : clients.length ≤ 1)
    : ∃ after, ClientDB.purge clients heap = .ok ([], after)
      ∧ after.aborted = heap.aborted ++ clients
      ∧ after.closed
        = heap.closed
          ++ (clients.filterMap
              (fun client => (heap.objects client).map TcpClient.fd)).filter (· ≠ 0)
      ∧ ∀ address, after.objects address
        = if address ∈ clients then none else heap.objects address := by
  match clients, few with
  | [], _ => exact ⟨heap, rfl, by simp, by simp, by simp⟩
  | [client], _ =>
      obtain ⟨object, present⟩ := Option.isSome_iff_exists.mp (live client List.mem_cons_self)
      rw [ClientDB.purge, sweepList_singleton, TcpClient.abort, present]
      refine ⟨_, rfl, rfl, ?_, fun address => ?_⟩
      · simp only [List.filterMap_cons, List.filterMap_nil, present, Option.map_some]
        unfold TcpClient.descriptor
        by_cases zero : object.fd = 0
        · simp [zero]
        · simp [zero]
      · simp only [List.mem_singleton]
  | _ :: _ :: rest, few =>
      simp only [List.length_cons] at few
      omega

/-- Of two or more clients the first is used after it was deleted. -/
theorem ClientDB.purge_many (distinct : clients.Nodup)
    (live : ∀ client ∈ clients, (heap.objects client).isSome) (many : 2 ≤ clients.length)
    : ClientDB.purge clients heap = .error .useAfterFree := by
  match clients, distinct, live, many with
  | client :: next :: rest, distinct, live, _ =>
      rw [ClientDB.purge, sweepList_cons_cons distinct]
      obtain ⟨object, present⟩ := Option.isSome_iff_exists.mp (live client List.mem_cons_self)
      cases first : TcpClient.abort client heap with
      | error fault =>
          rw [TcpClient.abort, present] at first
          cases first
      | ok once =>
          simp only [bind, Except.bind, TcpClient.abort_abort first]
  | [], _, _, many => cases many
  | [client], _, _, many =>
      simp only [List.length_cons, List.length_nil] at many
      omega

end Purging

/-- At the purge: at most one client was ever put into the database, and it is deleted, and its
descriptor closed unless it is zero, and nothing else; or there were more, and the first one is
used after it was deleted.
-/
def PurgesOne (clients : List Address) (system : System) : Prop :=
  (clients.length ≤ 1
    → ∃ heap,
      step system .main
        = .ok
            ({ system with server := { system.server with clientDb := some [] }, heap }.goto
              .stopDeleteDb)
      ∧ heap.aborted = clients
      ∧ heap.closed
        = (clients.filterMap
            (fun client => (system.heap.objects client).map TcpClient.fd)).filter (· ≠ 0)
      ∧ ∀ address, heap.objects address
          = if address ∈ clients then none else system.heap.objects address)
  ∧ (2 ≤ clients.length → step system .main = .error (.fault .useAfterFree))

theorem purgesOne_of_pointing {clients : List Address} {system : System}
    (pointing : Pointing clients system) (main : system.main = .stopPurge)
    : PurgesOne clients system := by
  have live : ∀ client ∈ clients, (system.heap.objects client).isSome :=
    fun client member => (pointing.live client member).2
  have atPurge : step system .main
      = (do
          let system ← ClientDB.purgeAll system
          return system.goto .stopDeleteDb) := by
    rw [step, mainStep, main]
  rw [PurgesOne, atPurge, ClientDB.purgeAll, pointing.stored]
  constructor
  · intro few
    obtain ⟨heap, purged, aborted, closed, objects⟩ := ClientDB.purge_few live few
    rw [pointing.unreleased.1, List.nil_append] at closed
    rw [pointing.unreleased.2, List.nil_append] at aborted
    refine ⟨heap, ?_, aborted, closed, objects⟩
    simp only [follow, bind, Except.bind, purged]
    rfl
  · intro many
    simp only [follow, bind, Except.bind, ClientDB.purge_many pointing.nodup live many]

/-- In every run `Stop`, when it comes to the purge, gets past it if and only if at most one
client was ever put into the database.
-/
theorem purge_of_run {storage : Storage} {history : List (System × Action)} {system : System}
    (run : Run step (TcpServer.construct storage) history system)
    (main : system.main = .stopPurge)
    : PurgesOne (updatesOf history) system :=
  purgesOne_of_pointing (pointing_of_run run (by rw [main]; rfl)) main

/-- Two clients were added when `Stop` comes to the purge. -/
theorem purge_of_run_two
    : ∃ history system,
        Run step (TcpServer.construct zeroStorage) history system
        ∧ updatesOf history = [3, 5]
        ∧ step system .main = .error (.fault .useAfterFree) := by
  have passed : executesTo step (TcpServer.construct zeroStorage)
      (startActions ++ addActions ++ addActions ++ .call .stop :: List.replicate 14 .main)
      (fun history system =>
        decide (updatesOf history = [3, 5] ∧ system.main = .stopPurge))
      = true := by decide +kernel
  obtain ⟨history, system, run, test⟩ := exists_run_of_executesTo passed
  obtain ⟨updates, main⟩ := of_decide_eq_true test
  refine ⟨history, system, run, updates, (purge_of_run run main).2 ?_⟩
  rw [updates]
  exact Nat.le_refl 2

-----------------------------------------------------------------------------------------
-- Stop alone
-----------------------------------------------------------------------------------------

/-- The main thread, alone, comes to `delete this`. -/
def DeletesServer (system : System) : Prop :=
  ∃ later after,
    Run step system later after
    ∧ (∀ visit ∈ later, visit.2 = .main)
    ∧ after.main = .deleted

/-- The current client service has no client twice. -/
def ServesDistinct (system : System) : Prop :=
  ∀ address service,
    system.server.clientService = some address
    → system.services address = some service
    → service.clients.Nodup

/-- Whether `Stop` is past its traversal of the client service's list. -/
def Statement.cleaned : Statement → Bool
  | .stopServiceDelete _ | .stopServiceSetBit _ | .stopServiceClear _ | .stopSetNotListening
  | .stopPurge => true
  | main => main.purged

/-- What `Stop` still has to traverse it can. -/
structure StopsCleanly (updates : List Address) (system : System) : Prop where
  purge : system.main.purged = false → updates.length ≤ 1
  cleanup : system.main.cleaned = false → ServesDistinct system

/-- The number of statements from one of `Stop` up to `delete this`, at most. -/
def Statement.untilDeleted : Statement → Option Nat
  | .stopTestManager => some 18
  | .stopAcceptTest .stop => some 17
  | .stopAcceptSetBit .stop => some 16
  | .stopAcceptManagerStop .stop => some 15
  | .stopAcceptClear .stop => some 14
  | .stopSetNotAccepting => some 13
  | .stopTestService => some 12
  | .stopServiceTest .stop => some 11
  | .stopServiceStopThread .stop => some 10
  | .stopServiceCleanup .stop => some 9
  | .stopServiceDelete .stop => some 8
  | .stopServiceSetBit .stop => some 7
  | .stopServiceClear .stop => some 6
  | .stopSetNotListening => some 5
  | .stopPurge => some 4
  | .stopDeleteDb => some 3
  | .stopUnSetRunning => some 2
  | .stopDelete => some 1
  | .deleted => some 0
  | _ => none

theorem Statement.eq_deleted {main : Statement} (ended : main.untilDeleted = some 0)
    : main = .deleted := by
  cases main with
  | deleted => rfl
  | stopAcceptTest caller | stopAcceptSetBit caller | stopAcceptManagerStop caller
  | stopAcceptClear caller | stopServiceTest caller | stopServiceStopThread caller
  | stopServiceCleanup caller | stopServiceDelete caller | stopServiceSetBit caller
  | stopServiceClear caller => cases caller <;> cases ended
  | _ => cases ended

section Traversals

variable {clients left : List Address} {client : Address}

/-- Each client once: the traversal comes to its end. -/
theorem ClientService.cleanup_of_nodup (distinct : clients.Nodup)
    : ∃ left, ClientService.cleanup clients = .ok left := by
  match clients, distinct with
  | [], _ => exact ⟨[], rfl⟩
  | [client], _ => exact ⟨[], stopEmpties_singleton client⟩
  | _ :: _ :: _, distinct => exact ⟨_, cleanup_cons_cons distinct⟩

/-- A client that comes twice in a row takes the iterator along when it is removed. -/
theorem ClientService.cleanup_twice (client : Address) (rest : List Address)
    : ClientService.cleanup (client :: client :: rest) = .error .danglingIterator := by
  have swept : sweep (fun _ _ => .ok ()) client (ListCursor.Cursor.start (client :: client :: rest))
      () = .error .danglingIterator := by
    have removed : (ListCursor.Cursor.start (client :: client :: rest)).next.remove client
        = none := if_pos rfl
    rw [sweep]
    split
    · rename_i empty
      cases empty
    · rename_i nonempty
      cases nonempty
      split
      · rfl
      · rename_i kept
        cases removed.symm.trans kept
  rw [ClientService.cleanup, sweepList, swept]
  rfl

/-- Of a single client there is one occurrence when the traversal comes to its end. -/
theorem ClientService.nodup_of_cleanup (only : ∀ other ∈ clients, other = client)
    (cleaned : ClientService.cleanup clients = .ok left)
    : clients.Nodup := by
  match clients, only, cleaned with
  | [], _, _ => exact List.nodup_nil
  | [other], _, _ => exact List.nodup_singleton other
  | first :: second :: rest, only, cleaned =>
      obtain rfl := only first List.mem_cons_self
      obtain rfl := only second (List.mem_cons_of_mem _ List.mem_cons_self)
      rw [ClientService.cleanup_twice] at cleaned
      cases cleaned

/-- With one client in the database, the service has it once if the traversal comes to its
end.
-/
theorem ClientService.nodup_of_cleanup_of_length {updates : List Address}
    (known : clients ⊆ updates) (few : updates.length ≤ 1)
    (cleaned : ClientService.cleanup clients = .ok left)
    : clients.Nodup := by
  match updates, known, few with
  | [], known, _ =>
      rw [List.subset_nil.mp known]
      exact List.nodup_nil
  | [client], known, _ =>
      exact ClientService.nodup_of_cleanup
        (fun other member => List.mem_singleton.mp (known member)) cleaned
  | _ :: _ :: _, _, few =>
      simp only [List.length_cons] at few
      omega

end Traversals

section Alone

variable {system after : System} {updates : List Address}

theorem deletesServer_of_deleted (main : system.main = .deleted) : DeletesServer system :=
  ⟨[], system, Run.refl, fun _ none => absurd none List.not_mem_nil, main⟩

/-- The main thread has no choice. -/
theorem deletesServer_iff_of_mainStep (stepped : mainStep system = .ok after)
    : DeletesServer system ↔ DeletesServer after := by
  constructor
  · rintro ⟨later, final, run, alone, deleted⟩
    rcases run.begins with ⟨-, rfl⟩ | ⟨action, next, rest, rfl, first, run⟩
    · rw [mainStep, deleted] at stepped
      cases stepped
    · obtain rfl : action = .main := alone _ List.mem_cons_self
      obtain rfl : after = next := Except.ok.inj (stepped.symm.trans first)
      exact ⟨rest, final, run, fun visit member => alone visit (List.mem_cons_of_mem _ member),
        deleted⟩
  · rintro ⟨later, final, run, alone, deleted⟩
    refine ⟨(system, .main) :: later, final, Run.cons stepped run, ?_, deleted⟩
    exact List.forall_mem_cons.mpr ⟨rfl, alone⟩

theorem not_deletesServer_of_mainStep {halt : Halt} (failed : mainStep system = .error halt)
    (there : system.main ≠ .deleted)
    : ¬ DeletesServer system := by
  rintro ⟨later, final, run, alone, deleted⟩
  rcases run.begins with ⟨-, rfl⟩ | ⟨action, next, rest, rfl, first, -⟩
  · exact there deleted
  · obtain rfl : action = .main := alone _ List.mem_cons_self
    exact nomatch failed.symm.trans first

/-- What a statement of `Stop` comes to: the next one, with as much to traverse as before, or
a traversal that fails.
-/
inductive StopStep (updates : List Address) (system : System) (left : Nat) : Prop
  | goesOn {after : System} {fewer : Nat} (stepped : mainStep system = .ok after)
    (remaining : after.main.untilDeleted = some fewer) (less : fewer ≤ left)
    (acceptThreads : after.acceptThreads = system.acceptThreads)
    (clean : StopsCleanly updates after ↔ StopsCleanly updates system)
  | fails {halt : Halt} (failed : mainStep system = .error halt)
    (there : system.main ≠ .deleted)
    (unclean : ¬ StopsCleanly updates system)

/-- A statement of `Stop` that leaves the services as they are. -/
theorem StopStep.stay {left fewer : Nat} {middle : System} {next : Statement}
    (stepped : mainStep system = .ok (middle.goto next))
    (remaining : next.untilDeleted = some fewer) (less : fewer ≤ left)
    (acceptThreads : middle.acceptThreads = system.acceptThreads)
    (clientService : middle.server.clientService = system.server.clientService)
    (services : middle.services = system.services)
    (purged : next.purged = system.main.purged) (cleaned : next.cleaned = system.main.cleaned)
    : StopStep updates system left := by
  have distinct : ServesDistinct (middle.goto next) ↔ ServesDistinct system := by
    change ServesDistinct middle ↔ _
    rw [ServesDistinct, ServesDistinct, clientService, services]
  refine .goesOn stepped remaining less acceptThreads ?_
  constructor
  · rintro ⟨purge, cleanup⟩
    exact ⟨fun before => purge (purged.trans before),
      fun before => distinct.mp (cleanup (cleaned.trans before))⟩
  · rintro ⟨purge, cleanup⟩
    exact ⟨fun before => purge (purged.symm.trans before),
      fun before => distinct.mpr (cleanup (cleaned.symm.trans before))⟩

/-- A statement of `Stop` before which the service's list was traversed, or is missing. -/
theorem StopStep.pass {left fewer : Nat} {middle : System} {next : Statement}
    (stepped : mainStep system = .ok (middle.goto next))
    (remaining : next.untilDeleted = some fewer) (less : fewer ≤ left)
    (acceptThreads : middle.acceptThreads = system.acceptThreads)
    (purged : next.purged = system.main.purged) (cleaned : next.cleaned = true)
    (passed : system.main.cleaned = false → system.server.clientService = none)
    : StopStep updates system left := by
  refine .goesOn stepped remaining less acceptThreads ?_
  constructor
  · rintro ⟨purge, -⟩
    refine ⟨fun before => purge (purged.trans before), fun before address service is => ?_⟩
    exact nomatch (passed before).symm.trans is
  · rintro ⟨purge, -⟩
    exact ⟨fun before => purge (purged.symm.trans before),
      fun before => nomatch cleaned.symm.trans before⟩

/-- A statement of `Stop` behind the traversal of the service's list. -/
theorem StopStep.past {left fewer : Nat} {middle : System} {next : Statement}
    (stepped : mainStep system = .ok (middle.goto next))
    (remaining : next.untilDeleted = some fewer) (less : fewer ≤ left)
    (acceptThreads : middle.acceptThreads = system.acceptThreads)
    (purged : next.purged = system.main.purged) (cleaned : next.cleaned = true)
    (before : system.main.cleaned = true)
    : StopStep updates system left :=
  .pass stepped remaining less acceptThreads purged cleaned
    (fun missing => by cases before.symm.trans missing)

section Steps

variable {storage : Storage} {history : List (System × Action)} {left : Nat}

theorem System.hands_of_outside (main : system.main.inHand = none)
    (outside : ∀ thread ∈ system.acceptThreads, thread.inAddClient = false) (party : Party)
    : system.hands party = none := by
  have same : system.hands = (system.goto .idle).hands := hands_of_main_none rfl main rfl
  have idle : Quiescent (system.goto .idle) := ⟨rfl, outside⟩
  rw [same]
  exact idle.hands party

/-- Who stops a service whose handle nobody has in hand finds its thread. -/
theorem Orderly.created_of_outside (orderly : Orderly system) {address : Address}
    {service : ClientService} (found : system.services address = some service)
    (main : system.main.inHand = none)
    (outside : ∀ thread ∈ system.acceptThreads, thread.inAddClient = false)
    : ∃ thread, service.thread = .created thread := by
  cases handle : service.thread with
  | created thread => exact ⟨thread, rfl⟩
  | null | zeroed =>
      have held := status_of_services found
      rw [handle] at held
      obtain ⟨party, inHand⟩ := orderly.accounted.held.holder address _ held
      exact nomatch (System.hands_of_outside main outside party).symm.trans inHand

/-- What holds in a run in which `Stop` goes on alone. -/
structure Closing (storage : Storage) (updates : List Address) (system : System) : Prop where
  zero : storage.state = 0
  orderly : Orderly system
  matched : Matched storage system
  allocated : Allocated system
  pointing : system.main.purged = false → Pointing updates system
  outside : ∀ thread ∈ system.acceptThreads, thread.inAddClient = false

theorem Closing.clear_storage (closing : Closing storage updates system) (bit : BitVec 32)
    : clear bit storage.state = 1 := by
  rw [closing.zero]
  exact clear_eq_one_iff.mpr BitVec.zero_and

theorem Closing.exists_service (closing : Closing storage updates system)
    (clear : system.main.serviceClear = some 1) (lag : system.main.serviceLag = 0)
    (there : system.main.serviceGone = false)
    : ∃ address service,
        system.server.clientService = some address
        ∧ system.services address = some service := by
  have set := closing.matched.serviceClear 1 clear
  have listening := closing.matched.listening
  rw [lag] at listening
  have serviced : system.server.clientService.isSome := isSome_of_present (by omega)
  obtain ⟨address, current⟩ := Option.isSome_iff_exists.mp serviced
  obtain ⟨service, found⟩ :=
    Option.isSome_iff_exists.mp (closing.allocated.service there address current)
  exact ⟨address, service, current, found⟩

/-- The current service is this one. -/
theorem servesDistinct_iff {address : Address} {service : ClientService}
    (current : system.server.clientService = some address)
    (found : system.services address = some service)
    : ServesDistinct system ↔ service.clients.Nodup := by
  constructor
  · exact fun distinct => distinct address service current found
  · intro distinct other object is present
    cases current.symm.trans is
    cases found.symm.trans present
    exact distinct

/-- `StopThread`, called by `Stop`. -/
theorem Closing.stopThread (closing : Closing storage updates system)
    (main : system.main = .stopServiceStopThread .stop)
    : StopStep updates system 9 := by
  obtain ⟨address, service, current, found⟩ :=
    closing.exists_service (by rw [main]; rfl) (by rw [main]; rfl) (by rw [main]; rfl)
  obtain ⟨thread, created⟩ :=
    closing.orderly.created_of_outside found (by rw [main]; rfl) closing.outside
  have stepped : mainStep system
      = .ok ((system.stopped address service thread).goto (.stopServiceCleanup .stop)) := by
    simp only [mainStep, main, current, follow, ClientService.stopThread, System.service, found,
      created, bind, Except.bind, pure, Except.pure, System.stopped]
  have unchanged : ServesDistinct
      ((system.stopped address service thread).goto (.stopServiceCleanup .stop))
      ↔ ServesDistinct system := by
    rw [servesDistinct_iff current found]
    exact @servesDistinct_iff _ address { service with thread := .null } current (if_pos rfl)
  refine .goesOn stepped rfl (Nat.le_refl 9) rfl ?_
  constructor
  · rintro ⟨purge, cleanup⟩
    exact ⟨fun _ => purge rfl, fun _ => unchanged.mp (cleanup rfl)⟩
  · rintro ⟨purge, cleanup⟩
    exact ⟨fun _ => purge (by rw [main]; rfl),
      fun _ => unchanged.mpr (cleanup (by rw [main]; rfl))⟩

/-- The traversal of `ClientService::Stop`, called by `Stop`. -/
theorem Closing.cleanup (closing : Closing storage updates system)
    (main : system.main = .stopServiceCleanup .stop)
    : StopStep updates system 8 := by
  obtain ⟨address, service, current, found⟩ :=
    closing.exists_service (by rw [main]; rfl) (by rw [main]; rfl) (by rw [main]; rfl)
  have null : service.thread = .null := by
    have inHand : system.hands .main = some (address, .null) :=
      hands_main_eq_some (by rw [main]; rfl) current
    have held := closing.orderly.accounted.held.inHand .main address .null inHand
    have status : some service.thread.status = some (Status.held Handle.null) :=
      (status_of_services found).symm.trans held
    cases handle : service.thread <;> rw [handle] at status <;> first | rfl | cases status
  have known := (closing.pointing (by rw [main]; rfl)).services address service found
  cases cleaned : ClientService.cleanup service.clients with
  | error fault =>
      have stepped : mainStep system = .error (.fault fault) := by
        simp only [mainStep, main, current, follow, ClientService.dropClients, System.service,
          found, cleaned, bind, Except.bind, if_pos null]
      refine .fails stepped (fun deleted => by cases main.symm.trans deleted) ?_
      rintro ⟨-, cleanup⟩
      have distinct := (servesDistinct_iff current found).mp (cleanup (by rw [main]; rfl))
      obtain ⟨left, done⟩ := ClientService.cleanup_of_nodup distinct
      cases cleaned.symm.trans done
  | ok left =>
      have stepped : mainStep system
          = .ok ((system.store address { service with clients := left }).goto
              (.stopServiceDelete .stop)) := by
        simp only [mainStep, main, current, follow, ClientService.dropClients, System.service,
          found, cleaned, bind, Except.bind, pure, Except.pure, if_pos null]
      refine .goesOn stepped rfl (Nat.le_refl 8) rfl ?_
      constructor
      · rintro ⟨purge, -⟩
        refine ⟨fun _ => purge rfl, fun _ => (servesDistinct_iff current found).mpr ?_⟩
        exact ClientService.nodup_of_cleanup_of_length known (purge rfl) cleaned
      · rintro ⟨purge, -⟩
        exact ⟨fun _ => purge (by rw [main]; rfl), fun before => by cases before⟩

/-- The call of `Purge`. -/
theorem Closing.purge (closing : Closing storage updates system)
    (main : system.main = .stopPurge)
    : StopStep updates system 3 := by
  have pointing := closing.pointing (by rw [main]; rfl)
  have outcome := purgesOne_of_pointing pointing main
  by_cases few : updates.length ≤ 1
  · obtain ⟨heap, stepped, -⟩ := outcome.1 few
    refine .goesOn stepped rfl (Nat.le_refl 3) rfl ?_
    refine iff_of_true ⟨fun before => ?_, fun before => ?_⟩ ⟨fun _ => few, fun before => ?_⟩
    · cases before
    · cases before
    · rw [main] at before
      cases before
  · refine .fails (outcome.2 (by omega)) (fun deleted => by cases main.symm.trans deleted) ?_
    rintro ⟨purge, -⟩
    exact few (purge (by rw [main]; rfl))

/-- `ConnectionManager::Stop`, called by `Stop`. -/
theorem Closing.managerStop (closing : Closing storage updates system)
    (main : system.main = .stopAcceptManagerStop .stop)
    : ∃ closed, mainStep system = .ok ({ system with closed }.goto (.stopAcceptClear .stop)) := by
  have accepting := closing.matched.accepting
  have someAccept := clear_nonneg tcpServerNotAcceptingNewConnections system.server.state
  have lag : system.main.managerLag = -1 := by rw [main]; rfl
  rw [lag] at accepting
  have managed : system.server.connectionManager.isSome := isSome_of_present (by omega)
  obtain ⟨address, current⟩ := Option.isSome_iff_exists.mp managed
  obtain ⟨manager, found⟩ :=
    Option.isSome_iff_exists.mp (closing.allocated.manager address current)
  refine ⟨system.closed ++ [manager.masterSockUdp], ?_⟩
  simp only [mainStep, main, ConnectionManager.stop, current, follow, System.manager, found, bind,
    Except.bind, pure, Except.pure]

/-- A set flag means that there is no service. -/
theorem Closing.noService (closing : Closing storage updates system)
    (main : system.main = .stopServiceTest .stop)
    (set : system.server.isBitSet tcpServerNotListeningClients)
    : system.server.clientService = none := by
  have serviced := closing.matched.service
  have lag : system.main.serviceLag = 0 := by rw [main]; rfl
  rw [lag, closing.clear_storage, TcpServer.isBitSet_iff.mp set] at serviced
  exact eq_none_of_present (by omega)

/-- `delete this` in `ClientService::Stop`, called by `Stop`. -/
theorem Closing.deleteService (closing : Closing storage updates system)
    (main : system.main = .stopServiceDelete .stop)
    : ∃ address,
        mainStep system = .ok ((system.deleted address).goto (.stopServiceSetBit .stop)) := by
  obtain ⟨address, service, current, found⟩ :=
    closing.exists_service (by rw [main]; rfl) (by rw [main]; rfl) (by rw [main]; rfl)
  refine ⟨address, ?_⟩
  simp only [mainStep, main, current, follow, ClientService.delete, System.service, found, bind,
    Except.bind, pure, Except.pure, System.deleted]

/-- `~TcpServer` finds the three pointers null. -/
theorem Closing.delete (closing : Closing storage updates system)
    (main : system.main = .stopDelete)
    : mainStep system = .ok (system.goto .deleted) := by
  have managed := closing.matched.managerStopped (by rw [main]; rfl)
  have serviced := closing.matched.serviceStopped (by rw [main]; rfl)
  have stored := closing.matched.stored
  rw [closing.clear_storage] at managed serviced
  rw [main] at stored
  have noManager := eq_none_of_present managed
  have noService := eq_none_of_present serviced
  have noDb := eq_none_of_present (Int.le_of_eq stored)
  simp [mainStep, main, noManager, noService, noDb]

/-- Every statement of `Stop` goes on, but for the two traversals. -/
theorem Closing.step {left : Nat} (closing : Closing storage updates system)
    (remaining : system.main.untilDeleted = some (left + 1))
    : StopStep updates system left := by
  cases main : system.main <;> rw [main] at remaining
  case stopPurge =>
    cases remaining
    exact closing.purge main
  case stopServiceStopThread caller =>
    cases caller <;> cases remaining
    exact closing.stopThread main
  case stopServiceCleanup caller =>
    cases caller <;> cases remaining
    exact closing.cleanup main
  -- `StopConnectionAcceptance`, if there is a connection manager.
  case stopTestManager =>
    cases remaining
    by_cases there : system.server.connectionManager.isSome
    · have stepped : mainStep system = .ok (system.goto (.stopAcceptTest .stop)) := by
        rw [mainStep, main]
        exact if_pos there
      exact .stay stepped rfl (by decide) rfl rfl rfl (by rw [main]; rfl) (by rw [main]; rfl)
    · have stepped : mainStep system = .ok (system.goto .stopTestService) := by
        rw [mainStep, main]
        exact if_neg there
      exact .stay stepped rfl (by decide) rfl rfl rfl (by rw [main]; rfl) (by rw [main]; rfl)
  case stopAcceptTest caller =>
    cases caller <;> cases remaining
    by_cases set : system.server.isBitSet tcpServerNotAcceptingNewConnections
    · have stepped : mainStep system = .ok (system.goto .stopSetNotAccepting) := by
        rw [mainStep, main]
        exact if_pos set
      exact .stay stepped rfl (by decide) rfl rfl rfl (by rw [main]; rfl) (by rw [main]; rfl)
    · have stepped : mainStep system = .ok (system.goto (.stopAcceptSetBit .stop)) := by
        rw [mainStep, main]
        exact if_neg set
      exact .stay stepped rfl (by decide) rfl rfl rfl (by rw [main]; rfl) (by rw [main]; rfl)
  case stopAcceptSetBit caller =>
    cases caller <;> cases remaining
    have stepped : mainStep system
        = .ok ((system.setBit tcpServerNotAcceptingNewConnections).goto
            (.stopAcceptManagerStop .stop)) := by
      rw [mainStep, main]
    exact .stay stepped rfl (by decide) rfl rfl rfl (by rw [main]; rfl) (by rw [main]; rfl)
  case stopAcceptClear caller =>
    cases caller <;> cases remaining
    have stepped : mainStep system
        = .ok ({ system with server := { system.server with connectionManager := none } }.goto
            .stopSetNotAccepting) := by
      simp only [mainStep, main, Caller.afterStopAccept]
    exact .stay stepped rfl (by decide) rfl rfl rfl (by rw [main]; rfl) (by rw [main]; rfl)
  case stopAcceptManagerStop caller =>
    cases caller <;> cases remaining
    obtain ⟨closed, stepped⟩ := closing.managerStop main
    exact .stay stepped rfl (by decide) rfl rfl rfl (by rw [main]; rfl) (by rw [main]; rfl)
  case stopSetNotAccepting =>
    cases remaining
    have stepped : mainStep system
        = .ok ((system.setBit tcpServerNotAcceptingNewConnections).goto .stopTestService) := by
      rw [mainStep, main]
    exact .stay stepped rfl (by decide) rfl rfl rfl (by rw [main]; rfl) (by rw [main]; rfl)
  -- `StopClientService`, if there is a client service.
  case stopTestService =>
    cases remaining
    by_cases there : system.server.clientService.isSome
    · have stepped : mainStep system = .ok (system.goto (.stopServiceTest .stop)) := by
        rw [mainStep, main]
        exact if_pos there
      exact .stay stepped rfl (by decide) rfl rfl rfl (by rw [main]; rfl) (by rw [main]; rfl)
    · have stepped : mainStep system = .ok (system.goto .stopPurge) := by
        rw [mainStep, main]
        exact if_neg there
      exact .pass stepped rfl (by decide) rfl (by rw [main]; rfl) rfl
        (fun _ => Option.not_isSome_iff_eq_none.mp there)
  case stopServiceTest caller =>
    cases caller <;> cases remaining
    by_cases set : system.server.isBitSet tcpServerNotListeningClients
    · have stepped : mainStep system = .ok (system.goto .stopSetNotListening) := by
        rw [mainStep, main]
        exact if_pos set
      exact .pass stepped rfl (by decide) rfl (by rw [main]; rfl) rfl
        (fun _ => closing.noService main set)
    · have stepped : mainStep system = .ok (system.goto (.stopServiceStopThread .stop)) := by
        rw [mainStep, main]
        exact if_neg set
      exact .stay stepped rfl (by decide) rfl rfl rfl (by rw [main]; rfl) (by rw [main]; rfl)
  case stopServiceDelete caller =>
    cases caller <;> cases remaining
    obtain ⟨address, stepped⟩ := closing.deleteService main
    exact .past stepped rfl (by decide) rfl (by rw [main]; rfl) rfl (by rw [main]; rfl)
  case stopServiceSetBit caller =>
    cases caller <;> cases remaining
    have stepped : mainStep system
        = .ok ((system.setBit tcpServerNotListeningClients).goto (.stopServiceClear .stop)) := by
      rw [mainStep, main]
    exact .past stepped rfl (by decide) rfl (by rw [main]; rfl) rfl (by rw [main]; rfl)
  case stopServiceClear caller =>
    cases caller <;> cases remaining
    have stepped : mainStep system
        = .ok ({ system with server := { system.server with clientService := none } }.goto
            .stopSetNotListening) := by
      simp only [mainStep, main, Caller.afterStopService]
    exact .past stepped rfl (by decide) rfl (by rw [main]; rfl) rfl (by rw [main]; rfl)
  case stopSetNotListening =>
    cases remaining
    have stepped : mainStep system
        = .ok ((system.setBit tcpServerNotListeningClients).goto .stopPurge) := by
      rw [mainStep, main]
    exact .past stepped rfl (by decide) rfl (by rw [main]; rfl) rfl (by rw [main]; rfl)
  -- What follows the purge.
  case stopDeleteDb =>
    cases remaining
    have stepped : mainStep system
        = .ok ({ system with server := { system.server with clientDb := none } }.goto
            .stopUnSetRunning) := by
      simp only [mainStep, main]
    exact .past stepped rfl (by decide) rfl (by rw [main]; rfl) rfl (by rw [main]; rfl)
  case stopUnSetRunning =>
    cases remaining
    have stepped : mainStep system
        = .ok ((system.unSetBit tcpServerRunning).goto .stopDelete) := by
      rw [mainStep, main]
    exact .past stepped rfl (by decide) rfl (by rw [main]; rfl) rfl (by rw [main]; rfl)
  case stopDelete =>
    cases remaining
    exact .past (closing.delete main) rfl (Nat.le_refl 0) rfl (by rw [main]; rfl) rfl
      (by rw [main]; rfl)
  all_goals cases remaining

end Steps

end Alone

section Ending

variable {storage : Storage} {history : List (System × Action)} {system : System}

theorem closing_of_run (zero : storage.state = 0)
    (run : Run step (TcpServer.construct storage) history system)
    (once : Guarded StartsOnce history)
    (outside : ∀ thread ∈ system.acceptThreads, thread.inAddClient = false)
    : Closing storage (updatesOf history) system :=
  ⟨zero, orderly_of_run run once, matched_of_run run, allocated_of_run run, pointing_of_run run,
    outside⟩

/-- From any statement of `Stop` on, the traversals that are left decide; by induction on the
statements that are left.
-/
theorem deletesServer_iff (zero : storage.state = 0)
    (run : Run step (TcpServer.construct storage) history system)
    (once : Guarded StartsOnce history)
    (outside : ∀ thread ∈ system.acceptThreads, thread.inAddClient = false) {left : Nat}
    (remaining : system.main.untilDeleted = some left)
    : DeletesServer system ↔ StopsCleanly (updatesOf history) system := by
  induction left using Nat.strongRecOn generalizing history system with
  | ind left ih =>
      cases left with
      | zero =>
          have deleted := Statement.eq_deleted remaining
          refine iff_of_true (deletesServer_of_deleted deleted) ⟨?_, ?_⟩
          all_goals
            rw [deleted]
            nofun
      | succ left =>
          cases (closing_of_run zero run once outside).step remaining with
          | @goesOn after fewer stepped remaining less acceptThreads clean =>
              have longer : Run step (TcpServer.construct storage)
                  (history ++ [(system, .main)]) after := Run.snoc run stepped
              have guarded : Guarded StartsOnce (history ++ [(system, .main)]) :=
                guarded_snoc.mpr ⟨once, trivial⟩
              have updates : updatesOf (history ++ [(system, .main)]) = updatesOf history := by
                rw [updatesOf_snoc]
                exact List.append_nil _
              have later := ih fewer (Nat.lt_succ_of_le less) longer guarded
                (acceptThreads ▸ outside) remaining
              rw [deletesServer_iff_of_mainStep stepped, later, updates, clean]
          | fails failed there unclean =>
              exact iff_of_false (not_deletesServer_of_mainStep failed there) unclean

end Ending

/-- Between calls of any run, a `Stop` that is not interrupted comes to `delete this` if and
only if at most one client was ever put into the database, and the client service does not
have it twice.
-/
theorem stop_deletes_iff {storage : Storage} (zero : storage.state = 0)
    {history : List (System × Action)} {system : System}
    (run : Run step (TcpServer.construct storage) history system)
    (once : Guarded StartsOnce history) (quiescent : Quiescent system)
    : ∃ begun,
        step system (.call .stop) = .ok begun
        ∧ (DeletesServer begun ↔ (updatesOf history).length ≤ 1 ∧ ServesDistinct system) := by
  have stepped : step system (.call .stop) = .ok (system.goto .stopTestManager) := by
    rw [step, callStep, quiescent.main]
    rfl
  have longer : Run step (TcpServer.construct storage) (history ++ [(system, .call .stop)])
      (system.goto .stopTestManager) := Run.snoc run stepped
  have guarded : Guarded StartsOnce (history ++ [(system, .call .stop)]) :=
    guarded_snoc.mpr ⟨once, quiescent.main⟩
  have updates : updatesOf (history ++ [(system, .call .stop)]) = updatesOf history := by
    rw [updatesOf_snoc]
    exact List.append_nil _
  have remaining : (system.goto .stopTestManager).main.untilDeleted = some 18 := rfl
  refine ⟨_, stepped, ?_⟩
  rw [deletesServer_iff zero longer guarded quiescent.accept remaining, updates]
  exact ⟨fun clean => ⟨clean.purge rfl, clean.cleanup rfl⟩,
    fun both => ⟨fun _ => both.1, fun _ => both.2⟩⟩

/-- With one client `Stop` deletes the server, and with two it does not. -/
theorem stop_deletes_one_not_two
    : (∃ history system begun,
        Run step (TcpServer.construct zeroStorage) history system
        ∧ updatesOf history = [3]
        ∧ step system (.call .stop) = .ok begun
        ∧ DeletesServer begun)
      ∧ ∃ history system begun,
        Run step (TcpServer.construct zeroStorage) history system
        ∧ updatesOf history = [3, 5]
        ∧ step system (.call .stop) = .ok begun
        ∧ ¬ DeletesServer begun := by
  have one : executesTo step (TcpServer.construct zeroStorage) (startActions ++ addActions)
      (fun history system =>
        decide (Guarded StartsOnce history
          ∧ updatesOf history = [3]
          ∧ system.main = .idle
          ∧ system.acceptThreads = [.accept]
          ∧ system.server.clientService = some 1
          ∧ system.services 1 = some { clients := [3], thread := .created 4 }))
      = true := by decide +kernel
  have two : executesTo step (TcpServer.construct zeroStorage)
      (startActions ++ addActions ++ addActions)
      (fun history system =>
        decide (Guarded StartsOnce history
          ∧ updatesOf history = [3, 5]
          ∧ system.main = .idle
          ∧ system.acceptThreads = [.accept]))
      = true := by decide +kernel
  obtain ⟨history, system, run, test⟩ := exists_run_of_executesTo one
  obtain ⟨longer, later, laterRun, laterTest⟩ := exists_run_of_executesTo two
  obtain ⟨once, updates, idle, threads, current, found⟩ := of_decide_eq_true test
  obtain ⟨laterOnce, more, laterIdle, laterThreads⟩ := of_decide_eq_true laterTest
  have quiescent : Quiescent system := ⟨idle, by rw [threads]; decide⟩
  have laterQuiescent : Quiescent later := ⟨laterIdle, by rw [laterThreads]; decide⟩
  obtain ⟨begun, stepped, deletes⟩ := stop_deletes_iff rfl run once quiescent
  obtain ⟨other, laterStepped, laterDeletes⟩ :=
    stop_deletes_iff rfl laterRun laterOnce laterQuiescent
  have distinct : ServesDistinct system :=
    (servesDistinct_iff current found).mpr (List.nodup_singleton 3)
  refine ⟨⟨history, system, begun, run, updates, stepped, deletes.mpr ⟨?_, distinct⟩⟩,
    longer, later, other, laterRun, more, laterStepped, fun ends => ?_⟩
  · rw [updates]
    exact Nat.le_refl 1
  · have few := (laterDeletes.mp ends).1
    rw [more] at few
    exact absurd few (by decide)

end Ethnm
