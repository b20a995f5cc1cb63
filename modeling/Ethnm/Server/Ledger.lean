import Ethnm.Library.Custody
import Ethnm.Server.Effects

/-! Client services as resources in custody. A thread that has set a service's handle aside,
in `Listen`, `Stop` or `Start`, has the service in hand; otherwise the service's own thread
runs on it.
-/

namespace Ethnm
open Custody Function Runs

/-- What a client service with this handle is doing. -/
def Handle.status : Handle → Status Nat Handle
  | .null => .held .null
  | .zeroed => .held .zeroed
  | .created thread => .running thread

/-- The threads that handle client services. -/
inductive Party
  | main
  | accept (index : Nat)
  deriving DecidableEq

/-- The client service that an accept thread has in hand, with its handle. -/
def AcceptThread.inHand : AcceptThread → Option (Address × Handle)
  | .pushBack service _ => some (service, .null)
  | .calloc service => some (service, .null)
  | .startThread service => some (service, .zeroed)
  | _ => none

namespace System

def status (system : System) (address : Address) : Option (Status Nat Handle) :=
  (system.services address).map (·.thread.status)

def mainHand (system : System) : Option (Address × Handle) :=
  system.main.inHand.bind (fun handle =>
    system.server.clientService.map (fun service => (service, handle)))

def hands (system : System) : Party → Option (Address × Handle)
  | .main => system.mainHand
  | .accept index => system.acceptThreads[index]?.bind AcceptThread.inHand

def workers (system : System) : List (Nat × Address) :=
  system.serviceThreads.map (fun thread => (thread.id, thread.service))

/-- The custody of the client services. -/
def ledger (system : System) : Ledger Party Address Nat Handle where
  status := system.status
  hands := system.hands
  workers := system.workers

end System

/-- Addresses and threads from `fresh` on were never used. -/
structure Fresh (system : System) : Prop where
  services : ∀ address, system.fresh ≤ address → system.services address = none
  threads : ∀ thread ∈ system.serviceThreads, thread.id < system.fresh

section Projections

variable {system : System} {address : Address} {service : ClientService} {index : Nat}
  {thread : AcceptThread} {main : Statement}

theorem status_store
    : (system.store address service).status
      = update system.status address (some service.thread.status) := by
  funext other
  by_cases same : other = address
  · subst other
    simp [System.status, System.store]
  · simp [System.status, System.store, same]

theorem status_deleted
    : (system.deleted address).status = update system.status address none := by
  funext other
  by_cases same : other = address
  · subst other
    simp [System.status, System.deleted]
  · simp [System.status, System.deleted, same]

theorem status_of_services (found : system.services address = some service)
    : system.status address = some service.thread.status := by
  rw [System.status, found]
  rfl

theorem hands_setAccept {present : AcceptThread}
    (there : system.acceptThreads[index]? = some present)
    : (system.setAccept index thread).hands
      = update system.hands (.accept index) thread.inHand := by
  obtain ⟨bound, -⟩ := List.getElem?_eq_some_iff.mp there
  funext party
  cases party with
  | main => rfl
  | accept other =>
      by_cases same : other = index
      · subst other
        simp [System.hands, System.setAccept, bound]
      · simp [System.hands, System.setAccept, same, Ne.symm same]

theorem hands_goto_none (empty : main.inHand = none)
    : (system.goto main).hands = update system.hands .main none := by
  funext party
  cases party with
  | main =>
      rw [update_self, System.hands, System.mainHand, System.goto, empty]
      rfl
  | accept other => rfl

theorem hands_goto_some {handle : Handle} (full : main.inHand = some handle)
    (current : system.server.clientService = some address)
    : (system.goto main).hands = update system.hands .main (some (address, handle)) := by
  funext party
  cases party with
  | main =>
      rw [update_self, System.hands, System.mainHand, System.goto, full, current]
      rfl
  | accept other => rfl

/-- The main thread had nothing in hand, and gets nothing. -/
theorem hands_of_main_none {after : System} (before : system.main.inHand = none)
    (afterwards : after.main.inHand = none)
    (acceptThreads : after.acceptThreads = system.acceptThreads)
    : after.hands = system.hands := by
  funext party
  cases party with
  | main =>
      rw [System.hands, System.hands, System.mainHand, System.mainHand, before, afterwards]
      rfl
  | accept index => rw [System.hands, System.hands, acceptThreads]

/-- The main thread has nothing in hand at most statements. -/
theorem hands_main_eq_none (empty : system.main.inHand = none) : system.hands .main = none := by
  rw [System.hands, System.mainHand, empty]
  rfl

theorem hands_main_eq_some {handle : Handle} (full : system.main.inHand = some handle)
    (current : system.server.clientService = some address)
    : system.hands .main = some (address, handle) := by
  rw [System.hands, System.mainHand, full, current]
  rfl

theorem hands_accept {present : AcceptThread}
    (there : system.acceptThreads[index]? = some present)
    : system.hands (.accept index) = present.inHand := by
  rw [System.hands, there]
  rfl

/-- An accept thread goes on with the same in hand. -/
theorem hands_setAccept_same {present : AcceptThread}
    (there : system.acceptThreads[index]? = some present)
    (same : thread.inHand = present.inHand)
    : (system.setAccept index thread).hands = system.hands := by
  rw [hands_setAccept there, same, ← hands_accept there, update_eq_self]

theorem workers_started (address : Address) (service : ClientService)
    : (system.started address service).workers
      = system.workers ++ [(system.fresh, address)] := by
  simp [System.workers, System.started]

theorem workers_stopped (address : Address) (service : ClientService) {id : Nat}
    : (system.stopped address service id).workers = system.workers.filter (·.1 ≠ id) := by
  rw [System.workers, System.workers, System.stopped, List.filter_map]
  rfl

theorem workers_setService {present changed : ServiceThread}
    (there : system.serviceThreads[index]? = some present) (id : changed.id = present.id)
    (service : changed.service = present.service)
    : (system.setService index changed).workers = system.workers := by
  obtain ⟨bound, rfl⟩ := List.getElem?_eq_some_iff.mp there
  rw [System.workers, System.workers, System.setService, List.map_set, id, service]
  exact List.ext_getElem? (fun other => by grind)

end Projections

section Moves

variable {system after : System} {party : Party} {address : Address} {thread : Nat}
  {handle : Handle}

theorem move_stay (status : after.status = system.status) (hands : after.hands = system.hands)
    (workers : after.workers = system.workers)
    : Move system.ledger after.ledger := by
  have same : after.ledger = system.ledger := by
    rw [System.ledger, status, hands, workers]
    rfl
  rw [same]
  exact .stay

theorem move_take (running : system.status address = some (.running thread))
    (free : system.hands party = none)
    (status : after.status = update system.status address (some (.held .null)))
    (hands : after.hands = update system.hands party (some (address, .null)))
    (workers : after.workers = system.workers.filter (·.1 ≠ thread))
    : Move system.ledger after.ledger := by
  rw [System.ledger, System.ledger, status, hands, workers]
  exact .take Handle.null running free

theorem move_change {now : Handle} (inHand : system.hands party = some (address, handle))
    (status : after.status = update system.status address (some (.held now)))
    (hands : after.hands = update system.hands party (some (address, now)))
    (workers : after.workers = system.workers)
    : Move system.ledger after.ledger := by
  rw [System.ledger, System.ledger, status, hands, workers]
  exact .change now inHand

theorem move_give (fresh : Fresh system)
    (inHand : system.hands party = some (address, handle))
    (status : after.status = update system.status address (some (.running system.fresh)))
    (hands : after.hands = update system.hands party none)
    (workers : after.workers = system.workers ++ [(system.fresh, address)])
    : Move system.ledger after.ledger := by
  rw [System.ledger, System.ledger, status, hands, workers]
  refine .give system.fresh inHand ?_
  intro entry member
  obtain ⟨thread, listed, rfl⟩ := List.mem_map.mp member
  exact Nat.ne_of_lt (fresh.threads thread listed)

theorem move_make (fresh : Fresh system) (free : system.hands party = none)
    (status : after.status = update system.status system.fresh (some (.held .zeroed)))
    (hands : after.hands = update system.hands party (some (system.fresh, .zeroed)))
    (workers : after.workers = system.workers)
    : Move system.ledger after.ledger := by
  rw [System.ledger, System.ledger, status, hands, workers]
  refine .make Handle.zeroed ?_ free
  change (system.services system.fresh).map _ = none
  rw [fresh.services system.fresh (Nat.le_refl _)]
  rfl

theorem move_destroy (inHand : system.hands party = some (address, handle))
    (status : after.status = update system.status address none)
    (hands : after.hands = update system.hands party none)
    (workers : after.workers = system.workers)
    : Move system.ledger after.ledger := by
  rw [System.ledger, System.ledger, status, hands, workers]
  exact .destroy inHand

end Moves

/-- Every step hands the client services on properly. -/
theorem move_of_stepped {system after : System} {action : Action} (fresh : Fresh system)
    (stepped : Stepped system action after)
    : Move system.ledger after.ledger := by
  cases stepped with
  | aside isMain aside =>
      refine move_stay ?_ ?_ ?_
      · funext address
        rw [System.status, aside.services]
        rfl
      · funext party
        cases party with
        | main =>
            rw [System.hands, System.hands, System.mainHand, aside.inHand, aside.clientService]
            rfl
        | accept index =>
            rw [System.hands, System.hands]
            rcases aside.acceptThreads with same | more
            · rw [same]
            · rw [more]
              by_cases bound : index < system.acceptThreads.length
              · rw [List.getElem?_append_left bound]
              · rw [List.getElem?_append_right (Nat.le_of_not_lt bound),
                  List.getElem?_eq_none (Nat.le_of_not_lt bound)]
                cases index - system.acceptThreads.length <;> rfl
      · rw [System.workers, aside.serviceThreads]
        rfl
  | @mainStopThread caller address service thread main current found created =>
      have running : system.status address = some (.running thread) := by
        rw [status_of_services found, created]
        rfl
      exact move_take running (hands_main_eq_none (by rw [main]; rfl)) status_store
        (hands_goto_some rfl current) (workers_stopped address service)
  | @mainDropClients caller address service clients main current found null =>
      have inHand : system.hands .main = some (address, .null) :=
        hands_main_eq_some (by rw [main]; rfl) current
      refine move_change inHand ?_ (hands_goto_some rfl current) rfl
      refine status_store.trans ?_
      rw [null]
      rfl
  | @mainDelete caller address service main current found =>
      have inHand : system.hands .main = some (address, .null) :=
        hands_main_eq_some (by rw [main]; rfl) current
      exact move_destroy inHand status_deleted (hands_goto_none rfl) rfl
  | @mainClear caller main =>
      refine move_stay rfl (hands_of_main_none (by rw [main]; rfl) ?_ rfl) rfl
      cases caller <;> rfl
  | mainNew main =>
      have empty : system.main.inHand = none := by rw [main]; rfl
      have same : (ClientService.construct system).hands = system.hands :=
        hands_of_main_none empty empty rfl
      refine move_make fresh (hands_main_eq_none empty) status_store ?_ rfl
      exact (hands_goto_some rfl rfl).trans (by rw [same])
  | @mainStartThread address service later main current found done =>
      exact move_give fresh (hands_main_eq_some main current) status_store
        (hands_goto_none done) (workers_started address service)
  | connect accepting => exact move_stay rfl (hands_setAccept_same accepting rfl) rfl
  | update updating stored => exact move_stay rfl (hands_setAccept_same updating rfl) rfl
  | listen listening current => exact move_stay rfl (hands_setAccept_same listening rfl) rfl
  | @stopThread index client address service thread stopping found created =>
      have running : system.status address = some (.running thread) := by
        rw [status_of_services found, created]
        rfl
      exact move_take running (hands_accept stopping) status_store (hands_setAccept stopping)
        (workers_stopped address service)
  | @pushBack index client address service pushing found =>
      refine move_stay ?_ (hands_setAccept_same pushing rfl) rfl
      exact (status_store).trans (update_eq_self_iff.mpr (status_of_services found).symm)
  | @calloc index address service allocating found =>
      exact move_change (hands_accept allocating) status_store (hands_setAccept allocating) rfl
  | @startThread index address service starting found =>
      exact move_give fresh (hands_accept starting) status_store (hands_setAccept starting)
        (workers_started address service)
  | test testing prologue => exact move_stay rfl rfl (workers_setService testing rfl rfl)
  | copy copying prologue found stored =>
      refine move_stay ?_ rfl (workers_setService copying rfl rfl)
      exact (status_store).trans (update_eq_self_iff.mpr (status_of_services found).symm)

section Freshness

variable {system after : System} {address : Address} {service : ClientService}

/-- An existing service is changed. -/
theorem Fresh.store (fresh : Fresh system) (found : system.services address = some service)
    (changed : ClientService)
    : Fresh (system.store address changed) := by
  refine ⟨?_, fresh.threads⟩
  intro other unused
  have different : other ≠ address := by
    rintro rfl
    rw [fresh.services other unused] at found
    cases found
  change (if other = address then some changed else system.services other) = none
  rw [if_neg different]
  exact fresh.services other unused

theorem Fresh.started (fresh : Fresh system) (found : system.services address = some service)
    : Fresh (system.started address service) := by
  refine ⟨?_, ?_⟩
  · intro other unused
    exact (fresh.store found _).services other (Nat.le_of_succ_le unused)
  · intro thread member
    rcases List.mem_append.mp member with member | member
    · exact Nat.lt_succ_of_lt (fresh.threads thread member)
    · rw [List.mem_singleton] at member
      subst thread
      exact Nat.lt_succ_self system.fresh

theorem Fresh.stopped (fresh : Fresh system) (found : system.services address = some service)
    (id : Nat)
    : Fresh (system.stopped address service id) :=
  ⟨(fresh.store found _).services,
    fun thread member => fresh.threads thread (List.mem_of_mem_filter member)⟩

theorem Fresh.setService (fresh : Fresh system) {index : Nat} {present changed : ServiceThread}
    (there : system.serviceThreads[index]? = some present) (id : changed.id = present.id)
    : Fresh (system.setService index changed) := by
  refine ⟨fresh.services, ?_⟩
  intro thread member
  rcases List.mem_or_eq_of_mem_set member with member | rfl
  · exact fresh.threads thread member
  · rw [id]
    exact fresh.threads present (List.mem_of_getElem? there)

theorem Fresh.step {action : Action} (fresh : Fresh system)
    (stepped : Stepped system action after)
    : Fresh after := by
  cases stepped with
  | aside isMain aside =>
      refine ⟨?_, ?_⟩
      · intro address unused
        rw [aside.services]
        exact fresh.services address (Nat.le_trans aside.fresh unused)
      · intro thread member
        rw [aside.serviceThreads] at member
        exact Nat.lt_of_lt_of_le (fresh.threads thread member) aside.fresh
  | @mainStopThread caller address service thread main current found created =>
      have stopped := fresh.stopped found thread
      exact ⟨stopped.services, stopped.threads⟩
  | mainDropClients clients main current found null =>
      exact ⟨(fresh.store found _).services, fresh.threads⟩
  | mainDelete main current found =>
      refine ⟨?_, fresh.threads⟩
      intro other unused
      change (if other = _ then none else system.services other) = none
      rw [fresh.services other unused, ite_self]
  | mainClear main => exact ⟨fresh.services, fresh.threads⟩
  | mainNew main =>
      refine ⟨?_, fun thread member => Nat.lt_succ_of_lt (fresh.threads thread member)⟩
      intro other unused
      have different : other ≠ system.fresh := Nat.ne_of_gt unused
      change (if other = _ then _ else system.services other) = none
      rw [if_neg different]
      exact fresh.services other (Nat.le_of_succ_le unused)
  | mainStartThread main current found done =>
      have started := fresh.started found
      exact ⟨started.services, started.threads⟩
  | connect accepting =>
      exact ⟨fun other unused => fresh.services other (Nat.le_of_succ_le unused),
        fun thread member => Nat.lt_succ_of_lt (fresh.threads thread member)⟩
  | update updating stored => exact ⟨fresh.services, fresh.threads⟩
  | listen listening current => exact ⟨fresh.services, fresh.threads⟩
  | @stopThread index client address service thread stopping found created =>
      have stopped := fresh.stopped found thread
      exact ⟨stopped.services, stopped.threads⟩
  | pushBack pushing found =>
      exact ⟨(fresh.store found _).services, fresh.threads⟩
  | calloc allocating found =>
      exact ⟨(fresh.store found _).services, fresh.threads⟩
  | startThread starting found =>
      have started := fresh.started found
      exact ⟨started.services, started.threads⟩
  | test testing prologue => exact fresh.setService testing rfl
  | copy copying prologue found stored => exact (fresh.store found _).setService copying rfl

end Freshness

/-- The custody of the client services is in order, and nothing is used before its time. -/
structure Orderly (system : System) : Prop where
  fresh : Fresh system
  accounted : Accounted system.ledger

theorem Orderly.step {system after : System} {action : Action} (orderly : Orderly system)
    (stepped : Stepped system action after)
    : Orderly after :=
  ⟨orderly.fresh.step stepped, orderly.accounted.move (move_of_stepped orderly.fresh stepped)⟩

/-- At first the only client service waits for `Start`. -/
theorem status_construct (storage : Storage)
    : (TcpServer.construct storage).status
      = update (fun _ => none) 1 (some (.held .zeroed)) := by
  funext address
  by_cases same : address = 1
  · subst address
    rfl
  · rw [update_of_ne same, System.status]
    exact congrArg _ (if_neg same)

theorem orderly_construct (storage : Storage) : Orderly (TcpServer.construct storage) := by
  have hands : (TcpServer.construct storage).hands
      = update (fun _ => none) Party.main (some (1, Handle.zeroed)) := by
    funext party
    cases party with
    | main => rfl
    | accept index => rfl
  refine ⟨⟨?_, nofun⟩, ?_⟩
  · intro address unused
    exact if_neg (Nat.ne_of_gt unused)
  · rw [System.ledger, status_construct, hands]
    exact accounted_empty.move (.make Handle.zeroed rfl rfl)

/-- However the threads interleave, the client services are in order; by induction on the
run.
-/
theorem orderly_of_run {storage : Storage} {history : List (System × Action)} {system : System}
    (run : Run step (TcpServer.construct storage) history system)
    (once : Guarded StartsOnce history)
    : Orderly system :=
  run.invariant once (orderly_construct storage)
    (fun _ _ _ orderly allowed stepped => orderly.step (stepped_of_step allowed stepped))

end Ethnm
