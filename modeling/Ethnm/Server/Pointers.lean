import Ethnm.Server.Agreement

/-! The pointers to clients. Accept threads, the client database and the client services hold
addresses of clients on the heap, and the threads go on while clients come and services are
stopped and started. Until the database is purged none of these pointers dangles.
-/

namespace Ethnm
open Runs

/-- The client that an accept thread has made and not yet put into the database. -/
def AcceptThread.newcomer : AcceptThread → Option Address
  | .update client => some client
  | _ => none

/-- The client that a step puts into the database. -/
def System.updates (system : System) : Action → Option Address
  | .accept index => system.acceptThreads[index]?.bind AcceptThread.newcomer
  | _ => none

/-- The clients that the steps of a history put into the database, in their order. -/
def updatesOf (history : List (System × Action)) : List Address :=
  history.filterMap (fun visit => visit.1.updates visit.2)

theorem updatesOf_snoc (history : List (System × Action)) (system : System) (action : Action)
    : updatesOf (history ++ [(system, action)])
      = updatesOf history ++ (system.updates action).toList := by
  rw [updatesOf, updatesOf, List.filterMap_append, List.filterMap_cons, List.filterMap_nil]
  cases system.updates action <;> rfl

-----------------------------------------------------------------------------------------
-- What the traversals leave
-----------------------------------------------------------------------------------------

section Sweeping

variable {σ : Type} {visit : Address → σ → Except Fault σ}

/-- The traversal leaves nothing new, by its recursion. -/
theorem subset_of_sweep {client : Address} {cursor : ListCursor.Cursor Address} {state : σ}
    {left : List Address} {final : σ} (swept : sweep visit client cursor state = .ok (left, final))
    : left ⊆ cursor.toList := by
  fun_induction sweep visit client cursor state with
  | case1 client cursor state ended =>
      cases swept
      exact List.Subset.refl _
  | case2 client cursor state next rest nonempty dangling => cases swept
  | case3 client cursor state next others nonempty rest removed shorter ih =>
      obtain ⟨after, -, swept⟩ := bind_eq_ok.mp swept
      have kept := ListCursor.Cursor.subset_of_remove removed
      rw [ListCursor.Cursor.toList_next] at kept
      exact List.Subset.trans (ih _ swept) kept

end Sweeping

/-- `Stop` leaves only clients that the service had. -/
theorem ClientService.subset_of_cleanup {clients left : List Address}
    (cleaned : ClientService.cleanup clients = .ok left)
    : left ⊆ clients := by
  obtain ⟨⟨last, _⟩, swept, returned⟩ := bind_eq_ok.mp cleaned
  cases returned
  cases clients with
  | nil =>
      cases swept
      exact List.Subset.refl _
  | cons client rest => exact subset_of_sweep swept

theorem ClientService.dropClients_fewer {system after : System} {address : Address}
    (dropped : ClientService.dropClients address system = .ok after)
    : ∃ service clients,
        system.services address = some service
        ∧ clients ⊆ service.clients
        ∧ after = system.store address { service with clients } := by
  obtain ⟨service, found, dropped⟩ := bind_eq_ok.mp dropped
  split at dropped
  · cases cleaned : ClientService.cleanup service.clients with
    | error fault =>
        rw [cleaned] at dropped
        cases dropped
    | ok clients =>
        rw [cleaned] at dropped
        cases dropped
        exact ⟨service, clients, System.service_eq_ok found,
          ClientService.subset_of_cleanup cleaned, rfl⟩
  · cases dropped

-----------------------------------------------------------------------------------------
-- What the main thread does to the clients
-----------------------------------------------------------------------------------------

/-- A step of the main thread that leaves all clients where they are, and gives none to a
service.
-/
structure SparesClients (system after : System) : Prop where
  heap : after.heap = system.heap
  clientDb : after.server.clientDb = system.server.clientDb
  acceptThreads
    : after.acceptThreads = system.acceptThreads
      ∨ after.acceptThreads = system.acceptThreads ++ [.accept]
  fresh : system.fresh ≤ after.fresh
  services
    : ∀ address service, after.services address = some service →
        ∀ client ∈ service.clients,
          ∃ before, system.services address = some before ∧ client ∈ before.clients

section Sparing

variable {system after : System} {address : Address}

/-- A step that concerns no client. -/
theorem SparesClients.of_eq (heap : after.heap = system.heap)
    (clientDb : after.server.clientDb = system.server.clientDb)
    (acceptThreads
      : after.acceptThreads = system.acceptThreads
        ∨ after.acceptThreads = system.acceptThreads ++ [.accept])
    (fresh : system.fresh ≤ after.fresh) (services : after.services = system.services)
    : SparesClients system after :=
  ⟨heap, clientDb, acceptThreads, fresh,
    fun _ service found _ member => ⟨service, services ▸ found, member⟩⟩

/-- A step that takes clients from one service. -/
theorem SparesClients.of_store {service changed : ClientService}
    (heap : after.heap = system.heap)
    (clientDb : after.server.clientDb = system.server.clientDb)
    (acceptThreads : after.acceptThreads = system.acceptThreads)
    (fresh : system.fresh ≤ after.fresh)
    (services : after.services = (system.store address changed).services)
    (found : system.services address = some service)
    (fewer : changed.clients ⊆ service.clients)
    : SparesClients system after := by
  refine ⟨heap, clientDb, .inl acceptThreads, fresh, fun other now present client member => ?_⟩
  rw [services] at present
  rcases services_store_eq other now present with ⟨rfl, rfl⟩ | ⟨-, same⟩
  · exact ⟨service, found, fewer member⟩
  · exact ⟨now, same, member⟩

/-- Every step of the main thread but the purge and the deletion of the database. -/
theorem sparesClients_of_mainStep (stepped : mainStep system = .ok after)
    (remains : after.main.purged = false)
    : SparesClients system after := by
  cases main : system.main <;> simp only [mainStep, main] at stepped
  case constructed | idle | deleted => cases stepped
  case startSetRunning | startAcceptUnSetBit | startServiceUnSetBit | stopSetNotAccepting
      | stopSetNotListening | stopAcceptSetBit | stopAcceptClear | stopServiceSetBit
      | stopServiceClear =>
    cases stepped
    exact .of_eq rfl rfl (.inl rfl) (Nat.le_refl _) rfl
  case stopUnSetRunning | stopDeleteDb =>
    cases stepped
    cases remains
  case stopAcceptTest | stopServiceTest | startAcceptTest | startServiceTest | stopTestManager
      | stopTestService =>
    split at stepped
    all_goals
      cases stepped
      exact .of_eq rfl rfl (.inl rfl) (Nat.le_refl _) rfl
  case stopDelete =>
    split at stepped
    all_goals cases stepped
    cases remains
  case startCreateDb =>
    obtain ⟨-, -, stepped⟩ := bind_eq_ok.mp stepped
    cases stepped
    exact .of_eq rfl rfl (.inl rfl) (Nat.le_refl _) rfl
  case stopPurge =>
    obtain ⟨middle, -, stepped⟩ := bind_eq_ok.mp stepped
    cases stepped
    cases remains
  case startStartManager | startAcceptStartThread =>
    obtain ⟨middle, started, stepped⟩ := bind_eq_ok.mp stepped
    obtain rfl := ConnectionManager.startThread_eq_ok started
    cases stepped
    exact .of_eq rfl rfl (.inr rfl) (Nat.le_refl _) rfl
  case stopAcceptManagerStop =>
    obtain ⟨middle, stopped, stepped⟩ := bind_eq_ok.mp stepped
    obtain ⟨closed, rfl⟩ := ConnectionManager.stop_eq_ok stopped
    cases stepped
    exact .of_eq rfl rfl (.inl rfl) (Nat.le_refl _) rfl
  case startAcceptNew =>
    cases stepped
    exact .of_eq rfl rfl (.inl rfl) (Nat.le_succ _) rfl
  case startStartService | startServiceStartThread =>
    obtain ⟨address, -, stepped⟩ := bind_eq_ok.mp stepped
    obtain ⟨middle, started, stepped⟩ := bind_eq_ok.mp stepped
    obtain ⟨service, found, rfl⟩ := ClientService.startThread_eq_ok started
    cases stepped
    exact .of_store rfl rfl rfl (Nat.le_succ _) rfl found (List.Subset.refl _)
  case stopServiceStopThread =>
    obtain ⟨address, -, stepped⟩ := bind_eq_ok.mp stepped
    obtain ⟨middle, stopped, stepped⟩ := bind_eq_ok.mp stepped
    obtain ⟨service, thread, found, -, rfl⟩ := ClientService.stopThread_eq_ok stopped
    cases stepped
    exact .of_store rfl rfl rfl (Nat.le_refl _) rfl found (List.Subset.refl _)
  case stopServiceCleanup =>
    obtain ⟨address, -, stepped⟩ := bind_eq_ok.mp stepped
    obtain ⟨middle, dropped, stepped⟩ := bind_eq_ok.mp stepped
    obtain ⟨service, clients, found, fewer, rfl⟩ := ClientService.dropClients_fewer dropped
    cases stepped
    exact .of_store rfl rfl rfl (Nat.le_refl _) rfl found fewer
  case stopServiceDelete =>
    obtain ⟨address, -, stepped⟩ := bind_eq_ok.mp stepped
    obtain ⟨middle, deleted, stepped⟩ := bind_eq_ok.mp stepped
    obtain ⟨service, found, rfl⟩ := ClientService.delete_eq_ok deleted
    cases stepped
    refine ⟨rfl, rfl, .inl rfl, Nat.le_refl _, fun other now present client member => ?_⟩
    change (if other = address then none else system.services other) = some now at present
    split at present
    · cases present
    · exact ⟨now, present, member⟩
  case startServiceNew =>
    cases stepped
    refine ⟨rfl, rfl, .inl rfl, Nat.le_succ _, fun other now present client member => ?_⟩
    rcases services_store_eq other now present with ⟨rfl, rfl⟩ | ⟨-, same⟩
    · cases member
    · exact ⟨now, same, member⟩

end Sparing

-----------------------------------------------------------------------------------------
-- The invariant
-----------------------------------------------------------------------------------------

/-- The clients were put into the database one after the other; they are alive, each of them
once; the newcomers are alive and not among them; whatever else points to a client points to one
of them; and `Abort` has released none.
-/
structure Pointing (clients : List Address) (system : System) : Prop where
  stored : system.server.clientDb = some clients
  nodup : clients.Nodup
  live
    : ∀ client ∈ clients,
        client < system.fresh ∧ (system.heap.objects client).isSome
  newcomers
    : ∀ (index : Nat) (thread : AcceptThread) (client : Address),
        system.acceptThreads[index]? = some thread → thread.newcomer = some client →
        client < system.fresh
        ∧ (system.heap.objects client).isSome
        ∧ client ∉ clients
        ∧ ∀ (other : Nat) (second : AcceptThread),
            system.acceptThreads[other]? = some second → second.newcomer = some client →
            other = index
  pending
    : ∀ (index : Nat) (thread : AcceptThread) (client : Address),
        system.acceptThreads[index]? = some thread → thread.pending = some client →
        client ∈ clients
  services
    : ∀ address service, system.services address = some service →
        service.clients ⊆ clients
  unreleased : system.heap.closed = [] ∧ system.heap.aborted = []

section Invariant

variable {clients : List Address} {system after : System}

/-- A thread of a list in which one was replaced is that one, or was there before. -/
theorem getElem?_set_cases {threads : List AcceptThread} {index other : Nat}
    {next thread : AcceptThread} (there : (threads.set index next)[other]? = some thread)
    : other = index ∧ thread = next ∨ other ≠ index ∧ threads[other]? = some thread := by
  rw [List.getElem?_set] at there
  split at there
  · rename_i same
    split at there
    · exact .inl ⟨same.symm, (Option.some.inj there).symm⟩
    · cases there
  · rename_i differs
    exact .inr ⟨Ne.symm differs, there⟩

/-- Steps that make no client known leave the pointers alone. -/
theorem Pointing.frame (pointing : Pointing clients system)
    (stored : after.server.clientDb = system.server.clientDb)
    (heap : after.heap = system.heap) (fresh : system.fresh ≤ after.fresh)
    (services
      : ∀ address service, after.services address = some service →
          service.clients ⊆ clients)
    (acceptThreads
      : ∀ (index : Nat) (thread : AcceptThread), after.acceptThreads[index]? = some thread →
          system.acceptThreads[index]? = some thread
          ∨ thread.newcomer = none
            ∧ ∀ client, thread.pending = some client → client ∈ clients)
    : Pointing clients after := by
  refine ⟨stored.trans pointing.stored, pointing.nodup, ?_, ?_, ?_, services, ?_⟩
  · intro client member
    obtain ⟨used, alive⟩ := pointing.live client member
    exact ⟨Nat.lt_of_lt_of_le used fresh, heap ▸ alive⟩
  · intro index thread client there new
    rcases acceptThreads index thread there with before | ⟨none, -⟩
    · obtain ⟨used, alive, absent, only⟩ := pointing.newcomers index thread client before new
      refine ⟨Nat.lt_of_lt_of_le used fresh, heap ▸ alive, absent, ?_⟩
      intro other second found again
      rcases acceptThreads other second found with earlier | ⟨none, -⟩
      · exact only other second earlier again
      · exact nomatch none.symm.trans again
    · exact nomatch none.symm.trans new
  · intro index thread client there holds
    rcases acceptThreads index thread there with before | ⟨-, known⟩
    · exact pointing.pending index thread client before holds
    · exact known client holds
  · rw [heap]
    exact pointing.unreleased

/-- The main thread spares the clients. -/
theorem Pointing.spare (pointing : Pointing clients system)
    (spares : SparesClients system after)
    : Pointing clients after := by
  refine pointing.frame spares.clientDb spares.heap spares.fresh ?_ ?_
  · intro address service found client member
    obtain ⟨before, present, same⟩ := spares.services address service found client member
    exact pointing.services address before present same
  · intro index thread there
    rcases spares.acceptThreads with same | more
    · exact .inl (same ▸ there)
    · rw [more, List.getElem?_append] at there
      split at there
      · exact .inl there
      · rw [List.mem_singleton.mp (List.mem_of_getElem? there)]
        exact .inr ⟨rfl, nofun⟩

/-- An accept thread goes on with a client that is known, or with none. -/
theorem Pointing.setAccept {middle : System} {index : Nat} {next : AcceptThread}
    (pointing : Pointing clients system)
    (stored : middle.server.clientDb = system.server.clientDb)
    (heap : middle.heap = system.heap) (fresh : system.fresh ≤ middle.fresh)
    (threads : middle.acceptThreads = system.acceptThreads)
    (services
      : ∀ address service, middle.services address = some service →
          service.clients ⊆ clients)
    (old : next.newcomer = none)
    (known : ∀ client, next.pending = some client → client ∈ clients)
    : Pointing clients (middle.setAccept index next) := by
  refine pointing.frame stored heap fresh services (fun other thread there => ?_)
  change (middle.acceptThreads.set index next)[other]? = some thread at there
  rw [threads] at there
  rcases getElem?_set_cases there with ⟨rfl, rfl⟩ | ⟨-, before⟩
  · exact .inr ⟨old, known⟩
  · exact .inl before

/-- The services point to the same clients when one of them is stored with known ones. -/
theorem Pointing.services_store {address : Address} {changed : ClientService}
    (pointing : Pointing clients system) (known : changed.clients ⊆ clients)
    : ∀ other service, (system.store address changed).services other = some service →
        service.clients ⊆ clients := by
  intro other service found
  rcases services_store_eq other service found with ⟨rfl, rfl⟩ | ⟨-, same⟩
  · exact known
  · exact pointing.services other service same

/-- A client is made: it is alive, and nobody else knows it. -/
theorem Pointing.connect {index fd : Nat} (pointing : Pointing clients system)
    (stepped : connectStep index fd system = .ok after)
    : Pointing clients after := by
  rw [connectStep] at stepped
  split at stepped
  · rename_i accepting
    obtain ⟨server, -, stepped⟩ := bind_eq_ok.mp stepped
    cases stepped
    have known (client : Address) (alive : (system.heap.objects client).isSome)
        : (if client = system.fresh then some { fd, msgDelimiter := none }
            else system.heap.objects client : Option TcpClient).isSome := by
      split
      · rfl
      · exact alive
    refine ⟨pointing.stored, pointing.nodup, ?_, ?_, ?_, pointing.services,
      pointing.unreleased⟩
    · intro client member
      obtain ⟨used, alive⟩ := pointing.live client member
      exact ⟨Nat.lt_succ_of_lt used, known client alive⟩
    · intro position thread client there new
      rcases getElem?_set_cases there with ⟨rfl, rfl⟩ | ⟨differs, before⟩
      · cases new
        refine ⟨Nat.lt_succ_self _, ?_, fun member => ?_, fun other second found again => ?_⟩
        · change (if system.fresh = system.fresh then some { fd, msgDelimiter := none }
            else system.heap.objects system.fresh : Option TcpClient).isSome
          rw [if_pos rfl]
          rfl
        · exact Nat.lt_irrefl _ (pointing.live _ member).1
        · rcases getElem?_set_cases found with ⟨same, -⟩ | ⟨-, earlier⟩
          · exact same
          · have used := (pointing.newcomers other second _ earlier again).1
            exact absurd used (Nat.lt_irrefl _)
      · obtain ⟨used, alive, absent, only⟩ :=
          pointing.newcomers position thread client before new
        refine ⟨Nat.lt_succ_of_lt used, known client alive, absent, ?_⟩
        intro other second found again
        rcases getElem?_set_cases found with ⟨-, rfl⟩ | ⟨-, earlier⟩
        · cases again
          exact absurd used (Nat.lt_irrefl _)
        · exact only other second earlier again
    · intro position thread client there holds
      rcases getElem?_set_cases there with ⟨-, rfl⟩ | ⟨-, before⟩
      · cases holds
      · exact pointing.pending position thread client before holds
  · cases stepped

/-- A newcomer is put into the database. -/
theorem Pointing.update {index : Nat} {client : Address} (pointing : Pointing clients system)
    (updating : system.acceptThreads[index]? = some (.update client))
    : Pointing (clients ++ [client])
        ((system.stored clients client).setAccept index (.listen client)) := by
  obtain ⟨used, alive, absent, only⟩ := pointing.newcomers index _ client updating rfl
  refine ⟨rfl, List.nodup_append.mpr ⟨pointing.nodup, List.nodup_singleton client, ?_⟩, ?_, ?_, ?_,
    fun address service found => ?_, pointing.unreleased⟩
  · intro old member other new same
    rw [List.mem_singleton.mp new] at same
    exact absent (same ▸ member)
  · intro other member
    rcases List.mem_append.mp member with old | new
    · exact pointing.live other old
    · rw [List.mem_singleton.mp new]
      exact ⟨used, alive⟩
  · intro position thread other there new
    rcases getElem?_set_cases there with ⟨-, rfl⟩ | ⟨differs, before⟩
    · cases new
    · obtain ⟨usedOther, aliveOther, absentOther, onlyOther⟩ :=
        pointing.newcomers position thread other before new
      refine ⟨usedOther, aliveOther, fun member => ?_, fun further second found again => ?_⟩
      · rcases List.mem_append.mp member with old | same
        · exact absentOther old
        · rw [List.mem_singleton.mp same] at new
          exact differs (only position thread before new)
      · rcases getElem?_set_cases found with ⟨-, rfl⟩ | ⟨-, earlier⟩
        · cases again
        · exact onlyOther further second earlier again
  · intro position thread other there holds
    rcases getElem?_set_cases there with ⟨-, rfl⟩ | ⟨-, before⟩
    · cases holds
      exact List.mem_append_right _ List.mem_cons_self
    · exact List.mem_append_left _ (pointing.pending position thread other before holds)
  · exact List.Subset.trans (pointing.services address service found)
      (List.subset_append_left _ _)

/-- A thread of a service goes on, and the services hold known clients only. -/
theorem Pointing.setService {middle : System} {index : Nat} {next : ServiceThread}
    (pointing : Pointing clients system) (stored : middle.server = system.server)
    (heap : middle.heap = system.heap) (fresh : middle.fresh = system.fresh)
    (threads : middle.acceptThreads = system.acceptThreads)
    (services
      : ∀ address service, middle.services address = some service →
          service.clients ⊆ clients)
    : Pointing clients (middle.setService index next) := by
  refine pointing.frame (congrArg TcpServer.clientDb stored) heap (Nat.le_of_eq fresh.symm)
    services (fun other thread there => ?_)
  change middle.acceptThreads[other]? = some thread at there
  rw [threads] at there
  exact .inl there

theorem System.updates_accept {index : Nat} {thread : AcceptThread}
    (there : system.acceptThreads[index]? = some thread)
    : system.updates (.accept index) = thread.newcomer := by
  rw [System.updates, there]
  rfl

/-- An accept thread's step puts its newcomer into the database, or moves a known client. -/
theorem Pointing.accept {index : Nat} (pointing : Pointing clients system)
    (stepped : acceptStep index system = .ok after)
    : Pointing (clients ++ (system.updates (.accept index)).toList) after := by
  have here {thread : AcceptThread} (there : system.acceptThreads[index]? = some thread)
      (old : thread.newcomer = none)
      : clients ++ (system.updates (.accept index)).toList = clients := by
    rw [System.updates_accept there, old]
    exact List.append_nil clients
  cases stepped_of_acceptStep stepped with
  | aside isMain => cases isMain
  | @update _ client others updating stored =>
      obtain rfl : clients = others := Option.some.inj (pointing.stored.symm.trans stored)
      rw [System.updates_accept updating]
      exact pointing.update updating
  | listen listening current =>
      rw [here listening rfl]
      refine pointing.setAccept rfl rfl (Nat.le_refl _) rfl pointing.services rfl ?_
      exact fun client holds => pointing.pending index _ client listening holds
  | @stopThread _ _ _ service _ stopping found created =>
      rw [here stopping rfl]
      have known : service.clients ⊆ clients := pointing.services _ service found
      refine pointing.setAccept rfl rfl (Nat.le_refl _) rfl (pointing.services_store known) rfl ?_
      exact fun client holds => pointing.pending index _ client stopping holds
  | @pushBack _ client _ service pushing found =>
      rw [here pushing rfl]
      have known : service.clients ++ [client] ⊆ clients := by
        have added := pointing.pending index _ client pushing rfl
        exact List.append_subset.mpr
          ⟨pointing.services _ service found, List.cons_subset.mpr ⟨added, List.nil_subset _⟩⟩
      exact pointing.setAccept rfl rfl (Nat.le_refl _) rfl (pointing.services_store known) rfl
        nofun
  | @calloc _ _ service allocating found =>
      rw [here allocating rfl]
      have known : service.clients ⊆ clients := pointing.services _ service found
      exact pointing.setAccept rfl rfl (Nat.le_refl _) rfl (pointing.services_store known) rfl
        nofun
  | @startThread _ _ service starting found =>
      rw [here starting rfl]
      have known : service.clients ⊆ clients := pointing.services _ service found
      exact pointing.setAccept rfl rfl (Nat.le_succ _) rfl (pointing.services_store known) rfl
        nofun

/-- A prologue copies the clients of the database, or none. -/
theorem Pointing.service {index : Nat} (pointing : Pointing clients system)
    (stepped : serviceStep index system = .ok after)
    : Pointing clients after := by
  cases stepped_of_serviceStep stepped with
  | aside isMain => cases isMain
  | test testing prologue => exact pointing.setService rfl rfl rfl rfl pointing.services
  | @copy _ thread service copied copying prologue found stored =>
      obtain rfl : clients = copied := Option.some.inj (pointing.stored.symm.trans stored)
      have known : service.clients ++ clients ⊆ clients :=
        List.append_subset.mpr ⟨pointing.services _ service found, List.Subset.refl _⟩
      exact pointing.setService rfl rfl rfl rfl (pointing.services_store known)

theorem Pointing.step {action : Action} (pointing : Pointing clients system)
    (stepped : step system action = .ok after) (remains : after.main.purged = false)
    : Pointing (clients ++ (system.updates action).toList) after := by
  cases action with
  | accept index => exact pointing.accept stepped
  | call call =>
      cases callStep_eq_ok stepped
      rw [show system.updates (.call call) = none from rfl, Option.toList_none,
        List.append_nil]
      exact pointing.frame rfl rfl (Nat.le_refl _) pointing.services (fun _ _ => .inl)
  | main =>
      rw [show system.updates .main = none from rfl, Option.toList_none, List.append_nil]
      exact pointing.spare (sparesClients_of_mainStep stepped remains)
  | connect index fd =>
      rw [show system.updates (.connect index fd) = none from rfl, Option.toList_none,
        List.append_nil]
      exact pointing.connect stepped
  | service index =>
      rw [show system.updates (.service index) = none from rfl, Option.toList_none,
        List.append_nil]
      exact pointing.service stepped

/-- At first there are no clients. -/
theorem pointing_construct (storage : Storage) : Pointing [] (TcpServer.construct storage) := by
  refine ⟨rfl, List.nodup_nil, nofun, nofun, nofun, fun address service found => ?_,
    rfl, rfl⟩
  rcases services_store_eq address service found with ⟨-, rfl⟩ | ⟨-, found⟩
  · exact List.Subset.refl _
  · cases found

/-- What was purged before a step was purged after it. -/
theorem purged_of_step {action : Action} (stepped : Ethnm.step system action = .ok after)
    (remains : after.main.purged = false)
    : system.main.purged = false := by
  refine eq_false_of_ne_true (fun purged => ?_)
  have still : after.main.purged = true := by
    cases action with
    | call call =>
        change callStep call system = .ok after at stepped
        rw [callStep] at stepped
        split at stepped
        case h_3 => cases stepped
        all_goals
          rename_i main
          rw [main] at purged
          cases purged
    | main => exact purged_of_stepped (stepped_of_mainStep stepped) purged
    | connect index fd => exact purged_of_stepped (stepped_of_connectStep stepped) purged
    | accept index => exact purged_of_stepped (stepped_of_acceptStep stepped) purged
    | service index => exact purged_of_stepped (stepped_of_serviceStep stepped) purged
  cases remains.symm.trans still

end Invariant

/-- Until the purge every run keeps the pointers, by induction on the run. -/
theorem pointing_of_run {storage : Storage} {history : List (System × Action)} {system : System}
    (run : Run step (TcpServer.construct storage) history system)
    (remains : system.main.purged = false)
    : Pointing (updatesOf history) system := by
  induction run with
  | refl => exact pointing_construct storage
  | snoc run stepped ih =>
      rw [updatesOf_snoc]
      exact (ih (purged_of_step stepped remains)).step stepped remains

/-- Something in the server holds the address of the client: the database, a client service, or
an accept thread on its way through `AddClient`.
-/
inductive System.PointsTo (system : System) (client : Address) : Prop
  | stored {clients : List Address} (there : system.server.clientDb = some clients)
      (member : client ∈ clients)
  | served {address : Address} {service : ClientService}
      (there : system.services address = some service) (member : client ∈ service.clients)
  | accepted {index : Nat} {thread : AcceptThread}
      (there : system.acceptThreads[index]? = some thread)
      (holds : thread.newcomer = some client ∨ thread.pending = some client)

/-- Whatever is pointed to is in the database, or one accept thread alone has it. -/
theorem Pointing.owned {clients : List Address} {system : System} {client : Address}
    (pointing : Pointing clients system) (points : system.PointsTo client)
    : client ∈ clients
      ∨ client ∉ clients
        ∧ (system.heap.objects client).isSome
        ∧ ∃ index thread,
            system.acceptThreads[index]? = some thread
            ∧ thread.newcomer = some client
            ∧ ∀ (other : Nat) (second : AcceptThread),
                system.acceptThreads[other]? = some second → second.newcomer = some client →
                other = index := by
  cases points with
  | stored there member =>
      obtain rfl := Option.some.inj (pointing.stored.symm.trans there)
      exact .inl member
  | served there member => exact .inl (pointing.services _ _ there member)
  | @accepted index thread there holds =>
      rcases holds with new | known
      · obtain ⟨-, alive, absent, only⟩ := pointing.newcomers index thread client there new
        exact .inr ⟨absent, alive, index, thread, there, new, only⟩
      · exact .inl (pointing.pending index thread client there known)

/-- However the threads interleave, and however often the services are stopped and started:
until the purge nothing points to a client that is not alive. The database has the clients that
were put into it, in their order and each once; a client that is not in it is pointed to by one
accept thread alone; and none was aborted.
-/
theorem pointers_live {storage : Storage} {history : List (System × Action)} {system : System}
    (run : Run step (TcpServer.construct storage) history system)
    (remains : system.main.purged = false)
    : (∀ client, system.PointsTo client → (system.heap.objects client).isSome)
      ∧ system.server.clientDb = some (updatesOf history)
      ∧ (updatesOf history).Nodup
      ∧ (∀ client, system.PointsTo client → client ∉ updatesOf history →
          ∃ index thread,
            system.acceptThreads[index]? = some thread
            ∧ thread.newcomer = some client
            ∧ (∀ address service, system.services address = some service →
                client ∉ service.clients)
            ∧ ∀ (other : Nat) (second : AcceptThread),
                system.acceptThreads[other]? = some second →
                second.newcomer = some client ∨ second.pending = some client →
                other = index)
      ∧ system.heap.aborted = [] := by
  have pointing := pointing_of_run run remains
  refine ⟨fun client points => ?_, pointing.stored, pointing.nodup, fun client points absent => ?_,
    pointing.unreleased.2⟩
  · rcases pointing.owned points with member | ⟨-, alive, -⟩
    · exact (pointing.live client member).2
    · exact alive
  · obtain ⟨-, -, index, thread, there, new, only⟩ :=
      (pointing.owned points).resolve_left absent
    refine ⟨index, thread, there, new, fun address service found member => ?_, ?_⟩
    · exact absent (pointing.services address service found member)
    · intro other second found holds
      rcases holds with again | known
      · exact only other second found again
      · exact absurd (pointing.pending other second client found known) absent

/-- Two threads accept a client each, and the later client is put into the database first. -/
theorem pointers_live_two
    : ∃ history system,
        Run step (TcpServer.construct zeroStorage) history system
        ∧ system.server.clientDb = some [5, 4]
        ∧ ∀ client, system.PointsTo client → (system.heap.objects client).isSome := by
  have passed : executesTo step (TcpServer.construct zeroStorage)
      (startActions ++ stopAcceptActions
        ++ [.call .startConnectionAcceptance, .main, .main, .main, .main,
          .connect 0 7, .connect 1 8, .accept 1, .accept 0, .accept 1, .accept 1])
      (fun history system =>
        decide (updatesOf history = [5, 4] ∧ system.main.purged = false))
      = true := by decide
  obtain ⟨history, system, run, test⟩ := exists_run_of_executesTo passed
  obtain ⟨updates, remains⟩ := of_decide_eq_true test
  obtain ⟨live, stored, -⟩ := pointers_live run remains
  exact ⟨history, system, run, updates ▸ stored, live⟩

end Ethnm
