import Ethnm.Clients.SelectSet
import Ethnm.Server.Effects

/-! The server of the program `tcpsrv`, which is started once and which nobody stops. It keeps all
its components, and the accept thread is only at the service while the service has no thread.
-/

namespace Ethnm
open Runs

namespace Tcpsrv

/-- A client that exists and has no delimiter, with a descriptor that has a bit in an `fd_set`. -/
def Plain (system : System) (client : Address) : Prop :=
  client < system.fresh ∧ ∃ fd < fdSetSize, system.heap.objects client = some ⟨fd, none⟩

/-- The client that an accept thread is adding. -/
def carried : AcceptThread → Option Address
  | .update client | .listen client | .stopThread _ client | .pushBack _ client => some client
  | _ => none

/-- The clients that are in the database, in the service's list, or on their way. -/
def held (db : List Address) (service : ClientService) (accepting : List AcceptThread)
    : List Address :=
  db ++ service.clients ++ accepting.filterMap carried

/-- An accept thread that has nothing to do with the service, or is about to stop its thread. -/
def Outside : AcceptThread → Prop
  | .accept | .update _ | .listen _ => True
  | .stopThread service _ => service = 1
  | _ => False

/-- Whether `Start` has started the service's thread. -/
def started : Statement → Bool
  | .startCreateDb | .startSetRunning | .idle => true
  | _ => false

/-- Where the threads are, and what the service's handle points to. -/
structure At (main : Statement) (accepting : List AcceptThread) (handle : Handle)
    (serving : List ServiceThread) (service : ClientService) (system : System)
    : Prop where
  main : system.main = main
  accepting : system.acceptThreads = accepting
  handle : service.thread = handle
  serving : system.serviceThreads = serving

/-- How `Start` goes on, and how the only accept thread adds a client to the service. -/
inductive Phase (service : ClientService) (system : System) : Prop
  | constructed (place : At .constructed [] .zeroed [] service system)
  | called (place : At .startStartManager [] .zeroed [] service system)
  | starting {adding : AcceptThread} (outside : Outside adding)
    (place : At .startStartService [adding] .zeroed [] service system)
  | serving {main : Statement} {adding : AcceptThread} {thread : ServiceThread}
    (begun : started main) (outside : Outside adding) (serves : thread.service = 1)
    (place : At main [adding] (.created thread.id) [thread] service system)
  | pushing {main : Statement} {client : Address} (begun : started main)
    (place : At main [.pushBack 1 client] .null [] service system)
  | allocating {main : Statement} (begun : started main)
    (place : At main [.calloc 1] .null [] service system)
  | restarting {main : Statement} (begun : started main)
    (place : At main [.startThread 1] .zeroed [] service system)

/-- The server has all its components, and its clients exist. -/
structure Components (db : List Address) (service : ClientService) (system : System) : Prop where
  manager : system.server.connectionManager.isSome
  current : system.server.clientService = some 1
  stored : system.server.clientDb = some db
  found : system.services 1 = some service
  plain : ∀ client ∈ held db service system.acceptThreads, Plain system client
  ids : ∀ thread ∈ system.serviceThreads, thread.id < system.fresh
  phase : Phase service system

/-- The server has components. -/
def Whole (system : System) : Prop :=
  ∃ db service, Components db service system

/-- Clients that exist stay as they are, and so does what a thread past its prologue serves. -/
structure Steady (system after : System) : Prop where
  main : after.main = .constructed ↔ system.main = .constructed
  fresh : system.fresh ≤ after.fresh
  objects : ∀ client < system.fresh, after.heap.objects client = system.heap.objects client
  threads
    : ∀ now ∈ after.serviceThreads,
        now.id = system.fresh
        ∨ ∃ thread ∈ system.serviceThreads,
            thread.id = now.id
            ∧ (thread.prologue = .passed →
                now.prologue = .passed ∧ after.services 1 = system.services 1)

/-- A step of the server leaves it whole, if the step is made at all. -/
abbrev Keeps (system : System) (outcome : Except Halt System) : Prop :=
  Leads (· = .disabled) (fun after => Whole after ∧ Steady system after) outcome

/-- Whether an accept thread is about to stop the service's thread. -/
def stops : AcceptThread → Bool
  | .stopThread _ _ => true
  | _ => false

/-- No client gets as far as `StopThread` before `Start` has started the service's thread. -/
def Waits (system : System) (index : Nat) : Prop :=
  system.main = .startStartService →
    ∀ thread ∈ system.acceptThreads[index]?, stops thread = false

instance (system : System) (index : Nat) : Decidable (Waits system index) :=
  inferInstanceAs (Decidable (_ → _))

section Steps

variable {db : List Address} {service : ClientService} {system after : System}

theorem Plain.mono {client : Address} (plain : Plain system client)
    (fresh : system.fresh ≤ after.fresh)
    (objects : ∀ client < system.fresh, after.heap.objects client = system.heap.objects client)
    : Plain after client := by
  obtain ⟨used, fd, small, object⟩ := plain
  exact ⟨Nat.lt_of_lt_of_le used fresh, fd, small, (objects client used).trans object⟩

/-- The service's clients exist, and the prologue and the loop find each of them in the set. -/
theorem Components.selectCovers (components : Components db service system)
    : ∃ clients,
        clients.map some = service.clients.map system.heap.objects ∧ SelectCovers clients := by
  have plain (client : Address) (listed : client ∈ service.clients) : Plain system client :=
    components.plain client (List.mem_append_left _ (List.mem_append_right _ listed))
  have exist : ∀ object ∈ service.clients.map system.heap.objects, object.isSome := by
    refine List.forall_mem_map.mpr (fun client listed => ?_)
    obtain ⟨-, fd, -, object⟩ := plain client listed
    rw [object]
    rfl
  refine ⟨service.clients.filterMap system.heap.objects, ?_,
    selectCovers_of_small (fun object member => ?_)⟩
  · rw [List.map_filterMap_some_eq_filter_map_isSome, List.filter_eq_self.mpr exist]
  · obtain ⟨client, listed, found⟩ := List.mem_filterMap.mp member
    obtain ⟨-, fd, small, there⟩ := plain client listed
    rw [there] at found
    obtain rfl := Option.some.inj found
    exact small

theorem Steady.refl (system : System) : Steady system system :=
  ⟨Iff.rfl, Nat.le_refl _, fun _ _ => rfl,
    fun now member => .inr ⟨now, member, rfl, fun passed => ⟨passed, rfl⟩⟩⟩

theorem mem_held {client : Address} {accepting : List AcceptThread}
    : client ∈ held db service accepting
      ↔ client ∈ db ∨ client ∈ service.clients
        ∨ ∃ thread ∈ accepting, carried thread = some client := by
  rw [held, List.mem_append, List.mem_append, List.mem_filterMap, or_assoc]

theorem ne_constructed {main : Statement} (begun : started main) : main ≠ .constructed := by
  rintro rfl
  cases begun

/-- Nobody deletes the server. -/
theorem Phase.ne_deleted (phase : Phase service system) : system.main ≠ .deleted := by
  intro gone
  cases phase with
  | constructed place | called place | starting _ place => cases place.main.symm.trans gone
  | serving begun _ _ place | pushing begun place | allocating begun place
  | restarting begun place =>
      rw [← place.main, gone] at begun
      cases begun

/-- There is one thread at most, and it serves the first service. -/
theorem Phase.sole (phase : Phase service system) {thread : ServiceThread}
    (member : thread ∈ system.serviceThreads)
    : system.serviceThreads = [thread] ∧ thread.service = 1 ∧ system.main ≠ .constructed := by
  cases phase with
  | constructed place | called place | starting _ place | pushing _ place | allocating _ place
  | restarting _ place =>
      rw [place.serving] at member
      cases member
  | serving begun _ serves place =>
      rw [place.serving] at member ⊢
      obtain rfl := List.mem_singleton.mp member
      exact ⟨rfl, serves, place.main ▸ ne_constructed begun⟩

/-- A client connects to a server that was started. -/
theorem Phase.begun_of_accepting (phase : Phase service system) {index : Nat}
    {adding : AcceptThread}
    (there : system.acceptThreads[index]? = some adding)
    : system.main ≠ .constructed := by
  intro constructed
  cases phase with
  | constructed place =>
      rw [place.accepting] at there
      cases there
  | called place | starting _ place => cases place.main.symm.trans constructed
  | serving begun _ _ place | pushing begun place | allocating begun place
  | restarting begun place => exact ne_constructed begun (place.main.symm.trans constructed)

theorem Components.tcpServer (components : Components db service system)
    : system.tcpServer = .ok system.server :=
  if_neg components.phase.ne_deleted

theorem service_of_some {address : Address} (found : system.services address = some service)
    : system.service address = .ok service := by
  rw [System.service, found]

theorem services_store_self (address : Address) (service : ClientService) (system : System)
    : (system.store address service).services address = some service := by
  simp [System.store]

theorem startThread_of_some {address : Address} (found : system.services address = some service)
    (allocated : service.thread ≠ .null)
    : ClientService.startThread address system = .ok (system.started address service) := by
  rw [ClientService.startThread, service_of_some found]
  exact if_neg allocated

theorem stopThread_of_some {address : Address} {thread : Nat}
    (found : system.services address = some service) (created : service.thread = .created thread)
    : ClientService.stopThread address system = .ok (system.stopped address service thread) := by
  rw [ClientService.stopThread, service_of_some found]
  dsimp only [bind, Except.bind]
  rw [created]
  rfl

/-- The server after a step that keeps its components. -/
theorem Components.keeps (components : Components db service system) {stored : List Address}
    {serving : ClientService}
    (manager : after.server.connectionManager = system.server.connectionManager)
    (current : after.server.clientService = system.server.clientService)
    (database : after.server.clientDb = some stored) (found : after.services 1 = some serving)
    (fresh : system.fresh ≤ after.fresh)
    (objects : ∀ client < system.fresh, after.heap.objects client = system.heap.objects client)
    (plain
      : ∀ client ∈ held stored serving after.acceptThreads,
          client ∈ held db service system.acceptThreads ∨ Plain after client)
    (phase : Phase serving after)
    (main : after.main = .constructed ↔ system.main = .constructed)
    (threads
      : ∀ now ∈ after.serviceThreads,
          now.id = system.fresh ∧ system.fresh < after.fresh
          ∨ ∃ thread ∈ system.serviceThreads,
              thread.id = now.id
              ∧ (thread.prologue = .passed → now.prologue = .passed ∧ serving = service))
    : Whole after ∧ Steady system after := by
  refine ⟨⟨stored, serving, manager ▸ components.manager, current.trans components.current,
    database, found, fun client member => ?_, fun now member => ?_, phase⟩,
    main, fresh, objects, fun now member => ?_⟩
  · rcases plain client member with before | plain
    · exact (components.plain client before).mono fresh objects
    · exact plain
  · rcases threads now member with ⟨new, more⟩ | ⟨thread, present, same, -⟩
    · exact new ▸ more
    · exact same ▸ Nat.lt_of_lt_of_le (components.ids thread present) fresh
  · rcases threads now member with ⟨new, -⟩ | ⟨thread, present, same, stays⟩
    · exact .inl new
    · refine .inr ⟨thread, present, same, fun passed => ?_⟩
      obtain ⟨still, rfl⟩ := stays passed
      exact ⟨still, found.trans components.found.symm⟩

/-- The main thread of a started server goes on with `Start`, whatever the others do. -/
theorem Phase.goto (phase : Phase service system) (begun : started system.main)
    (later : started after.main) (accepting : after.acceptThreads = system.acceptThreads)
    (serving : after.serviceThreads = system.serviceThreads)
    : Phase service after := by
  cases phase with
  | constructed place | called place | starting _ place =>
      rw [place.main] at begun
      cases begun
  | serving _ outside serves place =>
      exact .serving later outside serves ⟨rfl, accepting.trans place.accepting, place.handle,
        serving.trans place.serving⟩
  | pushing _ place =>
      exact .pushing later ⟨rfl, accepting.trans place.accepting, place.handle,
        serving.trans place.serving⟩
  | allocating _ place =>
      exact .allocating later ⟨rfl, accepting.trans place.accepting, place.handle,
        serving.trans place.serving⟩
  | restarting _ place =>
      exact .restarting later ⟨rfl, accepting.trans place.accepting, place.handle,
        serving.trans place.serving⟩

/-- The threads that there are stay as they are. -/
theorem threads_stay {after : System} {serving : ClientService}
    (same : after.serviceThreads = system.serviceThreads) (stays : serving = service)
    : ∀ now ∈ after.serviceThreads,
        now.id = system.fresh ∧ system.fresh < after.fresh
        ∨ ∃ thread ∈ system.serviceThreads,
            thread.id = now.id
            ∧ (thread.prologue = .passed → now.prologue = .passed ∧ serving = service) :=
  fun now member => .inr ⟨now, same ▸ member, rfl, fun passed => ⟨passed, stays⟩⟩

/-- A step that starts the service's thread. -/
theorem Components.started_keeps (components : Components db service system)
    {adding : AcceptThread} {next : Statement} (serving : system.serviceThreads = [])
    (begun : started next) (outside : Outside adding)
    (main : next = .constructed ↔ system.main = .constructed)
    (fewer : ∀ client, carried adding = some client →
      ∃ thread ∈ system.acceptThreads, carried thread = some client)
    : let after := { system.started 1 service with main := next, acceptThreads := [adding] }
      Whole after ∧ Steady system after := by
  intro after
  have threads : after.serviceThreads = [⟨system.fresh, 1, .test⟩] := by
    change system.serviceThreads ++ [_] = _
    rw [serving]
    rfl
  have found := services_store_self 1 { service with thread := .created system.fresh } system
  refine components.keeps rfl rfl components.stored found (Nat.le_succ _) (fun _ _ => rfl)
    (fun client member => .inl ?_) (.serving begun outside rfl ⟨rfl, rfl, rfl, threads⟩) main
    (fun now member => .inl ?_)
  · rw [mem_held] at member ⊢
    refine member.imp_right (Or.imp_right ?_)
    rintro ⟨thread, member, carries⟩
    obtain rfl := List.mem_singleton.mp member
    exact fewer client carries
  · rw [threads] at member
    obtain rfl := List.mem_singleton.mp member
    exact ⟨rfl, Nat.lt_succ_self _⟩

/-- The rest of `Start`, when the service's thread is started. -/
theorem Components.mainStep_started (components : Components db service system)
    (begun : started system.main) (busy : system.main ≠ .idle)
    : ∃ after, mainStep system = .ok after ∧ Whole after ∧ Steady system after := by
  have keeps {next : Statement} {server : TcpServer} (later : started next)
      (manager : server.connectionManager = system.server.connectionManager)
      (current : server.clientService = system.server.clientService)
      (database : server.clientDb = system.server.clientDb)
      : Whole ({ system with server }.goto next)
        ∧ Steady system ({ system with server }.goto next) := by
    exact components.keeps manager current (database.trans components.stored) components.found
      (Nat.le_refl _) (fun _ _ => rfl) (fun client member => .inl member)
      (components.phase.goto begun later rfl rfl)
      (iff_of_false (ne_constructed later) (ne_constructed begun)) (threads_stay rfl rfl)
  cases main : system.main with
  | startCreateDb =>
      refine ⟨system.goto .startSetRunning, ?_, keeps rfl rfl rfl rfl⟩
      rw [mainStep, main, components.stored]
      rfl
  | startSetRunning =>
      refine ⟨(system.setBit tcpServerRunning).goto .idle, ?_, keeps rfl rfl rfl rfl⟩
      rw [mainStep, main]
  | idle => exact absurd main busy
  | _ =>
      rw [main] at begun
      cases begun

/-- `Start` goes on until it returns. -/
theorem Components.mainStep (components : Components db service system)
    (begun : system.main ≠ .constructed) (busy : system.main ≠ .idle)
    : ∃ after, Ethnm.mainStep system = .ok after ∧ Whole after ∧ Steady system after := by
  obtain ⟨address, manager⟩ := Option.isSome_iff_exists.mp components.manager
  cases components.phase with
  | constructed place => exact absurd place.main begun
  | called place =>
      have accepting : system.acceptThreads ++ [AcceptThread.accept] = [.accept] := by
        rw [place.accepting]
        rfl
      refine ⟨System.goto .startStartService
        { system with acceptThreads := system.acceptThreads ++ [.accept] }, ?_, ?_⟩
      · rw [Ethnm.mainStep, place.main, ConnectionManager.startThread, manager]
        rfl
      · refine components.keeps rfl rfl components.stored components.found (Nat.le_refl _)
          (fun _ _ => rfl) (fun client member => .inl ?_)
          (.starting (show Outside .accept from trivial)
            ⟨rfl, accepting, place.handle, place.serving⟩)
          (iff_of_false (fun goes => by cases goes) begun) (threads_stay rfl rfl)
        change client ∈ held db service (system.acceptThreads ++ [AcceptThread.accept]) at member
        rw [accepting] at member
        rw [place.accepting]
        exact member
  | starting outside place =>
      refine ⟨(system.started 1 service).goto .startCreateDb, ?_, ?_⟩
      · rw [Ethnm.mainStep, place.main, components.current]
        change (ClientService.startThread 1 system >>= _) = _
        rw [startThread_of_some components.found (by rw [place.handle]; decide)]
        rfl
      · have keeps := @Components.started_keeps _ _ _ components _ .startCreateDb place.serving rfl
          outside (iff_of_false (fun goes => by cases goes) begun)
          (fun client carries => ⟨_, place.accepting ▸ List.mem_singleton_self _, carries⟩)
        rw [← place.accepting] at keeps
        exact keeps
  | serving begun _ _ place | pushing begun place | allocating begun place
  | restarting begun place =>
      rw [← place.main] at begun
      exact components.mainStep_started begun busy

/-- There is one accept thread at most. -/
theorem Phase.only (phase : Phase service system) {index : Nat} {adding : AcceptThread}
    (there : system.acceptThreads[index]? = some adding)
    : index = 0 ∧ system.acceptThreads = [adding] := by
  have single {other : AcceptThread} (accepting : system.acceptThreads = [other])
      : index = 0 ∧ system.acceptThreads = [adding] := by
    rw [accepting] at there ⊢
    cases index with
    | zero => exact ⟨rfl, congrArg (fun thread => [thread]) (Option.some.inj there)⟩
    | succ index => cases there
  cases phase with
  | constructed place | called place =>
      rw [place.accepting] at there
      cases there
  | starting _ place | serving _ _ _ place | pushing _ place | allocating _ place
  | restarting _ place => exact single place.accepting

/-- The accept thread goes on outside the service. -/
theorem Phase.outside (phase : Phase service system) {adding next : AcceptThread}
    (accepting : system.acceptThreads = [adding]) (outside : Outside adding)
    (later : Outside next) (main : after.main = system.main) (goes : after.acceptThreads = [next])
    (serving : after.serviceThreads = system.serviceThreads)
    : Phase service after := by
  cases phase with
  | constructed place | called place => cases place.accepting.symm.trans accepting
  | starting _ place =>
      exact .starting later ⟨main.trans place.main, goes, place.handle,
        serving.trans place.serving⟩
  | serving begun _ serves place =>
      exact .serving begun later serves ⟨main.trans place.main, goes, place.handle,
        serving.trans place.serving⟩
  | pushing begun place | allocating begun place | restarting begun place =>
      cases place.accepting.symm.trans accepting
      cases outside

/-- The accept thread goes on outside the service, and may add to the database. -/
theorem Components.outside_keeps (components : Components db service system)
    {adding next : AcceptThread} {stored : List Address}
    (accepting : system.acceptThreads = [adding]) (outside : Outside adding)
    (later : Outside next) {server : TcpServer}
    (manager : server.connectionManager = system.server.connectionManager)
    (current : server.clientService = system.server.clientService)
    (database : server.clientDb = some stored)
    (plain
      : ∀ client, client ∈ stored ∨ carried next = some client →
          client ∈ db ∨ carried adding = some client)
    : let after := { system with server, acceptThreads := [next] }
      Whole after ∧ Steady system after := by
  intro after
  refine components.keeps manager current database components.found (Nat.le_refl _)
    (fun _ _ => rfl) (fun client member => .inl ?_)
    (components.phase.outside accepting outside later rfl rfl rfl) Iff.rfl (threads_stay rfl rfl)
  rw [mem_held] at member ⊢
  rw [accepting]
  have before := plain client
  simp only [List.mem_singleton, exists_eq_left] at member ⊢
  change _ ∨ _ ∨ ∃ thread ∈ [next], _ at member
  simp only [List.mem_singleton, exists_eq_left] at member
  rcases member with stored | listed | carries
  · exact (before (.inl stored)).imp_right .inr
  · exact .inr (.inl listed)
  · exact (before (.inr carries)).imp_right .inr

theorem setAccept_eq {adding : AcceptThread} (accepting : system.acceptThreads = [adding])
    (next : AcceptThread)
    : system.setAccept 0 next = { system with acceptThreads := [next] } := by
  rw [System.setAccept, accepting]
  rfl

/-- Up to `StopThread` the accept thread cannot go wrong. -/
theorem Components.acceptStep_outside (components : Components db service system)
    {adding : AcceptThread} (accepting : system.acceptThreads = [adding])
    (outside : Outside adding) (early : stops adding = false)
    : Keeps system (acceptStep 0 system) := by
  have there : system.acceptThreads[0]? = some adding := by
    rw [accepting]
    rfl
  cases adding with
  | accept =>
      rw [acceptStep, there]
      rfl
  | update client =>
      have goes : acceptStep 0 system
          = .ok ((system.stored db client).setAccept 0 (.listen client)) := by
        rw [acceptStep, there]
        change (system.tcpServer >>= _) = _
        rw [components.tcpServer]
        change (ClientDB.update client system >>= _) = _
        rw [ClientDB.update, components.stored]
        rfl
      rw [goes, @setAccept_eq (system.stored db client) _ accepting]
      refine components.outside_keeps accepting outside
        (show Outside (.listen client) from trivial) rfl rfl rfl (fun other member => ?_)
      rcases member with stored | carries
      · exact (List.mem_append.mp stored).imp_right
          (fun last => congrArg some (List.mem_singleton.mp last).symm)
      · exact .inr carries
  | listen client =>
      have goes : acceptStep 0 system = .ok (system.setAccept 0 (.stopThread 1 client)) := by
        rw [acceptStep, there]
        change (system.tcpServer >>= _) = _
        rw [components.tcpServer]
        change (follow system.server.clientService >>= _) = _
        rw [components.current]
        rfl
      rw [goes, setAccept_eq accepting]
      exact components.outside_keeps accepting outside
        (show Outside (.stopThread 1 client) from rfl) rfl rfl components.stored
        (fun other member => member)
  | stopThread => cases early
  | pushBack | calloc | startThread => cases outside

/-- No thread of the service is left to go on. -/
theorem no_threads {serving : ClientService} (none : after.serviceThreads = [])
    : ∀ now ∈ after.serviceThreads,
        now.id = system.fresh ∧ system.fresh < after.fresh
        ∨ ∃ thread ∈ system.serviceThreads,
            thread.id = now.id
            ∧ (thread.prologue = .passed → now.prologue = .passed ∧ serving = service) := by
  intro now member
  rw [none] at member
  cases member

/-- The accept thread changes the service, which has no thread. -/
theorem Components.store_keeps (components : Components db service system)
    (serving : ClientService) {adding next : AcceptThread} {threads : List ServiceThread}
    (accepting : system.acceptThreads = [adding]) (none : threads = [])
    (plain
      : ∀ client, client ∈ serving.clients ∨ carried next = some client →
          client ∈ service.clients ∨ carried adding = some client)
    (phase
      : let after := {
          system.store 1 serving with serviceThreads := threads, acceptThreads := [next]
        }
        Phase serving after)
    : let after := {
        system.store 1 serving with serviceThreads := threads, acceptThreads := [next]
      }
      Whole after ∧ Steady system after := by
  intro after
  have found := services_store_self 1 serving system
  refine components.keeps rfl rfl components.stored found (Nat.le_refl _) (fun _ _ => rfl)
    (fun client member => .inl ?_) phase Iff.rfl (no_threads none)
  rw [mem_held] at member ⊢
  rw [accepting]
  have before := plain client
  change _ ∨ _ ∨ ∃ thread ∈ [next], _ at member
  simp only [List.mem_singleton, exists_eq_left] at member ⊢
  rcases member with stored | listed | carries
  · exact .inl stored
  · exact .inr (before (.inl listed))
  · exact .inr (before (.inr carries))

/-- The accept thread stops the service's thread, which is the only one. -/
theorem Components.acceptStep_stopThread (components : Components db service system)
    {client : Address} {thread : ServiceThread} (begun : started system.main)
    (place : At system.main [.stopThread 1 client] (.created thread.id) [thread] service system)
    : Keeps system (acceptStep 0 system) := by
  have none : system.serviceThreads.filter (·.id ≠ thread.id) = [] := by
    simp [place.serving]
  have goes : acceptStep 0 system
      = .ok ((system.stopped 1 service thread.id).setAccept 0 (.pushBack 1 client)) := by
    rw [acceptStep, place.accepting]
    change (ClientService.stopThread 1 system >>= _) = _
    rw [stopThread_of_some components.found place.handle]
    rfl
  rw [goes, @setAccept_eq (system.stopped 1 service thread.id) _ place.accepting]
  exact components.store_keeps { service with thread := .null } place.accepting none
    (fun other member => member) (.pushing begun ⟨rfl, rfl, rfl, none⟩)

/-- The accept thread adds a client to the service, whose thread it starts again. -/
theorem Components.acceptStep_service (components : Components db service system)
    {adding : AcceptThread} {handle : Handle} (begun : started system.main)
    (place : At system.main [adding] handle [] service system)
    (goesOn
      : (∃ client, adding = .pushBack 1 client ∧ handle = .null)
        ∨ adding = .calloc 1
        ∨ adding = .startThread 1 ∧ handle = .zeroed)
    : Keeps system (acceptStep 0 system) := by
  rcases goesOn with ⟨client, rfl, rfl⟩ | rfl | ⟨rfl, rfl⟩
  · have goes : acceptStep 0 system
        = .ok ((system.store 1 { service with clients := service.clients ++ [client] }).setAccept 0
          (.calloc 1)) := by
      rw [acceptStep, place.accepting]
      change (ClientService.addClient 1 client system >>= _) = _
      rw [ClientService.addClient, service_of_some components.found]
      rfl
    rw [goes, @setAccept_eq (system.store 1 _) _ place.accepting]
    refine components.store_keeps _ place.accepting place.serving (fun other member => ?_)
      (.allocating begun ⟨rfl, rfl, place.handle, place.serving⟩)
    rcases member with listed | carries
    · exact (List.mem_append.mp listed).imp_right
        (fun last => congrArg some (List.mem_singleton.mp last).symm)
    · cases carries
  · have goes : acceptStep 0 system
        = .ok ((system.store 1 { service with thread := .zeroed }).setAccept 0
          (AcceptThread.startThread 1)) := by
      rw [acceptStep, place.accepting]
      change (ClientService.callocThread 1 system >>= _) = _
      rw [ClientService.callocThread, service_of_some components.found]
      rfl
    rw [goes, @setAccept_eq (system.store 1 _) _ place.accepting]
    exact components.store_keeps _ place.accepting place.serving (fun other member => member)
      (.restarting begun ⟨rfl, rfl, rfl, place.serving⟩)
  · have goes : acceptStep 0 system = .ok ((system.started 1 service).setAccept 0 .accept) := by
      rw [acceptStep, place.accepting]
      change (ClientService.startThread 1 system >>= _) = _
      rw [startThread_of_some components.found (by rw [place.handle]; decide)]
      rfl
    rw [goes, @setAccept_eq (system.started 1 service) _ place.accepting]
    exact components.started_keeps place.serving begun (show Outside .accept from trivial) Iff.rfl
      (fun client carries => by cases carries)

/-- The accept thread goes on, as long as it waits for the service's thread to be started. -/
theorem Components.acceptStep (components : Components db service system) {index : Nat}
    (waits : Waits system index)
    : Keeps system (Ethnm.acceptStep index system) := by
  cases there : system.acceptThreads[index]? with
  | none =>
      rw [Ethnm.acceptStep, there]
      rfl
  | some adding =>
      obtain ⟨rfl, accepting⟩ := components.phase.only there
      cases components.phase with
      | constructed place | called place => cases place.accepting.symm.trans accepting
      | starting outside place =>
          -- The service has no thread yet, so the accept thread may not stop it.
          cases place.accepting.symm.trans accepting
          exact components.acceptStep_outside accepting outside (waits place.main _ there)
      | @serving main other thread begun outside serves place =>
          cases place.accepting.symm.trans accepting
          cases early : stops adding with
          | false => exact components.acceptStep_outside accepting outside early
          | true =>
              cases adding with
              | stopThread address client =>
                  obtain rfl : address = 1 := outside
                  obtain rfl := place.main
                  exact components.acceptStep_stopThread begun place
              | _ => cases early
      | pushing begun place =>
          obtain rfl := place.main
          exact components.acceptStep_service begun place (.inl ⟨_, rfl, rfl⟩)
      | allocating begun place =>
          obtain rfl := place.main
          exact components.acceptStep_service begun place (.inr (.inl rfl))
      | restarting begun place =>
          obtain rfl := place.main
          exact components.acceptStep_service begun place (.inr (.inr ⟨rfl, rfl⟩))

/-- A client connects. -/
theorem Components.connectStep (components : Components db service system) (index : Nat) {fd : Nat}
    (small : fd < fdSetSize)
    : Keeps system (Ethnm.connectStep index fd system) := by
  rw [Ethnm.connectStep]
  split
  · rename_i there
    obtain ⟨rfl, accepting⟩ := components.phase.only there
    rw [components.tcpServer, setAccept_eq accepting]
    refine components.keeps rfl rfl components.stored components.found (Nat.le_succ _)
      (fun client used => if_neg (Nat.ne_of_lt used)) (fun client member => ?_)
      (components.phase.outside accepting trivial (show Outside (.update _) from trivial) rfl rfl
        rfl)
      Iff.rfl (threads_stay rfl rfl)
    rw [mem_held] at member ⊢
    rcases member with stored | listed | ⟨thread, present, carries⟩
    · exact .inl (.inl stored)
    · exact .inl (.inr (.inl listed))
    · obtain rfl := List.mem_singleton.mp present
      obtain rfl : system.fresh = client := Option.some.inj carries
      exact .inr ⟨Nat.lt_succ_self _, fd, small, if_pos rfl⟩
  · rfl

/-- The prologue of the service's thread goes on. -/
theorem Components.serviceStep (components : Components db service system) (index : Nat)
    : Keeps system (Ethnm.serviceStep index system) := by
  rw [Ethnm.serviceStep]
  split
  · rfl
  · rename_i thread present
    have member := List.mem_of_getElem? present
    cases components.phase with
    | constructed place | called place | starting _ place | pushing _ place | allocating _ place
    | restarting _ place =>
        rw [place.serving] at member
        cases member
    | serving begun outside serves place =>
        rw [place.serving] at present member
        obtain rfl := List.mem_singleton.mp member
        obtain rfl : index = 0 := by
          cases index with
          | zero => rfl
          | succ index => cases present
        have threads (prologue : Prologue)
            : system.serviceThreads.set 0 { thread with prologue }
              = [{ thread with prologue }] := by
          rw [place.serving]
          rfl
        have found : system.services thread.service = some service := serves ▸ components.found
        have phase {serving : ClientService} {after : System} (prologue : Prologue)
            (goes : after.main = system.main)
            (accepts : after.acceptThreads = system.acceptThreads)
            (handle : serving.thread = service.thread)
            (now : after.serviceThreads = system.serviceThreads.set 0 { thread with prologue })
            : Phase serving after :=
          @Phase.serving serving after _ _ { thread with prologue } begun outside serves
            ⟨goes.trans place.main, accepts.trans place.accepting, handle.trans place.handle,
              now.trans (threads prologue)⟩
        -- The thread is not past its prologue yet.
        have early {serving : ClientService} {before after : Prologue} {fresh : Nat}
            (here : thread.prologue = before) (notYet : before ≠ .passed)
            : ∀ now ∈ system.serviceThreads.set 0 { thread with prologue := after },
                now.id = system.fresh ∧ system.fresh < fresh
                ∨ ∃ other ∈ system.serviceThreads,
                    other.id = now.id
                    ∧ (other.prologue = .passed → now.prologue = .passed ∧ serving = service) := by
          intro now present
          rw [threads] at present
          obtain rfl := List.mem_singleton.mp present
          refine .inr ⟨thread, place.serving ▸ member, rfl, fun passed => ?_⟩
          exact absurd (here.symm.trans passed) notYet
        split
        · rename_i testing
          rw [service_of_some found, components.tcpServer]
          exact components.keeps rfl rfl components.stored components.found (Nat.le_refl _)
            (fun _ _ => rfl) (fun client held => .inl held) (phase _ rfl rfl rfl rfl) Iff.rfl
            (early testing (by decide))
        · rename_i copying
          rw [components.tcpServer]
          change Leads _ _ (ClientDB.copy thread.service system >>= _)
          rw [ClientDB.copy, service_of_some found, components.stored]
          let more : ClientService := { service with clients := service.clients ++ db }
          have copied : (system.store thread.service more).services 1 = some more := by
            rw [serves]
            exact services_store_self 1 more system
          refine components.keeps rfl rfl components.stored copied (Nat.le_refl _)
            (fun _ _ => rfl) (fun client held => .inl ?_) (phase _ rfl rfl rfl rfl) Iff.rfl
            (early copying (by decide))
          rw [mem_held] at held ⊢
          rcases held with known | listed | carried
          · exact .inl known
          · exact (List.mem_append.mp listed).elim (fun before => .inr (.inl before)) .inl
          · exact .inr (.inr carried)
        · rfl

end Steps

end Tcpsrv

end Ethnm
