import Ethnm.Server.Agreement
import Ethnm.Server.Events

/-! There is only ever one client service's thread. The application may call `AddClient` itself
while accept threads do: whoever gets to `StopThread` first has the thread, and the next one has
no handle to stop.
-/

namespace Ethnm
open Runs

/-- One for an accept thread that has a client service in hand. -/
def AcceptThread.holds (thread : AcceptThread) : Nat :=
  if thread.inHand.isSome then 1 else 0

/-- How many of the threads have a client service in hand. -/
def holders (threads : List AcceptThread) : Nat :=
  threads.countP (·.inHand.isSome)

/-- One for the main thread when it has a client service in hand. -/
def Statement.holds (main : Statement) : Nat :=
  if main.inHand.isSome then 1 else 0

/-- The client services' threads, and the threads that have a client service in hand. -/
def System.crew (system : System) : Nat :=
  system.serviceThreads.length + holders system.acceptThreads + system.main.holds

/-- Every handle is that of a thread. -/
def Handled (system : System) : Prop :=
  ∀ address service id,
    system.services address = some service → service.thread = .created id →
      ∃ thread ∈ system.serviceThreads, thread.id = id

/-- Each client service has a thread or is in hand, and so has one for the application's own
calls that have one in hand.
-/
structure Crewed (others : Nat) (live : List Address) (system : System) : Prop where
  fresh : Fresh system
  existing : Existing system live
  count : system.crew + others ≤ live.length
  handled : Handled system

section Steps

variable {others : Nat} {live : List Address} {system after : System} {action : Action}
  {address : Address} {service : ClientService}

theorem holders_append (threads more : List AcceptThread)
    : holders (threads ++ more) = holders threads + holders more :=
  List.countP_append

theorem Handled.frame (handled : Handled system) (services : after.services = system.services)
    (threads : after.serviceThreads = system.serviceThreads)
    : Handled after := by
  unfold Handled
  rw [services, threads]
  exact handled

/-- A service is stored with the handle that it had, or with none. -/
theorem Handled.store (handled : Handled system) {changed : ClientService}
    (services : after.services = (system.store address changed).services)
    (threads
      : ∀ thread ∈ system.serviceThreads, ∃ now ∈ after.serviceThreads, now.id = thread.id)
    (handle
      : ∀ id, changed.thread = .created id → ∃ now ∈ after.serviceThreads, now.id = id)
    : Handled after := by
  intro other object id found created
  rw [services] at found
  rcases services_store_eq other object found with ⟨rfl, rfl⟩ | ⟨-, found⟩
  · exact handle id created
  · obtain ⟨thread, member, rfl⟩ := handled other object id found created
    exact threads thread member

/-- The only service's thread ends, and its handle is set aside. -/
theorem Crewed.stopped (crewed : Crewed others live system) (single : live.length ≤ 1)
    (found : system.services address = some service) {id : Nat}
    (created : service.thread = .created id)
    : (system.stopped address service id).serviceThreads = []
      ∧ holders system.acceptThreads + system.main.holds + others = 0
      ∧ live.length = 1
      ∧ Handled (system.stopped address service id) := by
  obtain ⟨thread, member, rfl⟩ := crewed.handled address service id found created
  have positive := List.length_pos_of_mem member
  have count := crewed.count
  rw [System.crew] at count
  obtain ⟨only, threads⟩ : ∃ only, system.serviceThreads = [only] :=
    List.length_eq_one_iff.mp (by omega)
  have ended : (system.stopped address service thread.id).serviceThreads = [] := by
    rw [threads] at member
    obtain rfl := List.mem_singleton.mp member
    change system.serviceThreads.filter _ = []
    rw [threads]
    simp
  refine ⟨ended, by omega, by omega, fun other object id present started => ?_⟩
  rcases services_store_eq other object present with ⟨rfl, rfl⟩ | ⟨differs, present⟩
  · cases started
  · refine absurd ?_ differs
    have alive {address : Address} {service : ClientService}
        (there : system.services address = some service) : address ∈ live := by
      rw [crewed.existing.all, status_of_services there]
      exact Option.some_ne_none _
    obtain ⟨one, rfl⟩ : ∃ one, live = [one] := List.length_eq_one_iff.mp (by omega)
    exact (List.mem_singleton.mp (alive present)).trans (List.mem_singleton.mp (alive found)).symm

/-- Other threads are looked at in place of the accept threads. -/
theorem crew_swap (system : System) (threads : List AcceptThread)
    : { system with acceptThreads := threads }.crew + holders system.acceptThreads
      = system.crew + holders threads := by
  change _ + holders threads + system.main.holds + _ = _ + _ + _ + _
  exact (by omega : ∀ a b c d : Nat, a + b + c + d = a + d + c + b) _ _ _ _

/-- An accept thread goes on. -/
theorem crew_setAccept (system middle : System) (next : AcceptThread) (old new : Nat)
    {index : Nat} {before : AcceptThread} (there : system.acceptThreads[index]? = some before)
    (was : before.holds = old) (is : next.holds = new)
    (acceptThreads : middle.acceptThreads = system.acceptThreads)
    (main : middle.main = system.main)
    : (middle.setAccept index next).crew + old + system.serviceThreads.length
      = system.crew + new + middle.serviceThreads.length := by
  have set := countP_set_add (·.inHand.isSome) next there
  change holders _ + before.holds = holders _ + next.holds at set
  change middle.serviceThreads.length + holders (middle.acceptThreads.set index next)
    + middle.main.holds + _ + _ = system.serviceThreads.length + _ + _ + _ + _
  rw [acceptThreads, main]
  omega

/-- The main thread goes on. -/
theorem crew_goto (system middle : System) (next : Statement) (old new : Nat)
    (was : system.main.holds = old) (is : next.holds = new)
    (acceptThreads : middle.acceptThreads = system.acceptThreads)
    : (middle.goto next).crew + old + system.serviceThreads.length
      = system.crew + new + middle.serviceThreads.length := by
  change middle.serviceThreads.length + holders middle.acceptThreads + next.holds + _ + _
    = system.serviceThreads.length + _ + _ + _ + _
  rw [acceptThreads]
  omega

/-- A service that is made is in hand, one that is deleted was in hand, and otherwise a service
goes from its thread into a hand, or from there to a new thread.
-/
theorem Crewed.crew (crewed : Crewed others live system) (single : live.length ≤ 1)
    (stepped : Stepped system action after)
    : (after.crew : Int) = system.crew + action.makes system := by
  have length_started (address : Address) (service : ClientService)
      : (system.started address service).serviceThreads.length
        = system.serviceThreads.length + 1 :=
    List.length_append
  have length_stopped {address : Address} {service : ClientService}
      (found : system.services address = some service) {id : Nat}
      (created : service.thread = .created id)
      : (system.stopped address service id).serviceThreads.length + 1
        = system.serviceThreads.length := by
    obtain ⟨ended, free, one, -⟩ := crewed.stopped single found created
    have count := crewed.count
    obtain ⟨thread, member, -⟩ := crewed.handled _ _ _ found created
    have positive := List.length_pos_of_mem member
    rw [System.crew] at count
    rw [ended, List.length_nil]
    omega
  cases stepped with
  | aside isMain aside =>
      have accept : holders after.acceptThreads = holders system.acceptThreads := by
        rcases aside.acceptThreads with same | more
        · rw [same]
        · rw [more, holders_append]
          rfl
      have makes : action.makes system = 0 := by
        cases action with
        | main => exact aside.makes
        | call | connect | accept | service => rfl
      rw [makes, System.crew, aside.serviceThreads, accept, Statement.holds, aside.inHand]
      exact (Int.add_zero _).symm
  | @mainStopThread caller address service thread main current found created =>
      have goes := crew_goto system (system.stopped address service thread)
        (.stopServiceCleanup caller) 0 1 (by rw [main]; rfl) rfl rfl
      have length := length_stopped found created
      rw [Action.makes, main]
      change _ = _ + (0 : Int)
      omega
  | @mainDropClients caller address service clients main current found null =>
      have goes := crew_goto system (system.store address { service with clients })
        (.stopServiceDelete caller) 1 1 (by rw [main]; rfl) rfl rfl
      change _ = _ + _ + system.serviceThreads.length at goes
      rw [Action.makes, main]
      change _ = _ + (0 : Int)
      omega
  | @mainDelete caller address service main current found =>
      have goes := crew_goto system (system.deleted address) (.stopServiceSetBit caller) 1 0
        (by rw [main]; rfl) rfl rfl
      change _ = _ + _ + system.serviceThreads.length at goes
      rw [Action.makes, main]
      change _ = _ + (-1 : Int)
      omega
  | @mainClear caller main =>
      have goes := crew_goto system
        { system with server := { system.server with clientService := none } }
        caller.afterStopService 0 0 (by rw [main]; rfl) (by cases caller <;> rfl) rfl
      have same := Nat.add_right_cancel (Nat.add_right_cancel goes)
      rw [Action.makes, main]
      exact (congrArg Nat.cast same).trans (Int.add_zero _).symm
  | mainNew main =>
      have goes := crew_goto system (ClientService.construct system) .startServiceStartThread 0 1
        (by rw [main]; rfl) rfl rfl
      change _ = _ + _ + system.serviceThreads.length at goes
      rw [Action.makes, main]
      change _ = _ + (1 : Int)
      omega
  | @mainStartThread address service later main current found done =>
      have goes := crew_goto system (system.started address service) later 1 0
        (by rw [Statement.holds, main]; rfl) (by rw [Statement.holds, done]; rfl) rfl
      have length := length_started address service
      rw [Action.makes, Statement.makes_of_zeroed main]
      omega
  | connect accepting =>
      have goes := crew_setAccept system system (.update system.fresh) 0 0 accepting rfl rfl rfl rfl
      have same := Nat.add_right_cancel (Nat.add_right_cancel goes)
      exact (congrArg Nat.cast same).trans (Int.add_zero _).symm
  | @update index client clients updating stored =>
      have goes := crew_setAccept system (system.stored clients client) (.listen client) 0 0
        updating rfl rfl rfl rfl
      change _ = _ + _ + system.serviceThreads.length at goes
      change _ = _ + (0 : Int)
      omega
  | @listen index client address listening current =>
      have goes := crew_setAccept system system (.stopThread address client) 0 0
        listening rfl rfl rfl rfl
      change _ = _ + (0 : Int)
      omega
  | @stopThread index client address service thread stopping found created =>
      have goes := crew_setAccept system (system.stopped address service thread)
        (.pushBack address client) 0 1 stopping rfl rfl rfl rfl
      have length := length_stopped found created
      change _ = _ + (0 : Int)
      omega
  | @pushBack index client address service pushing found =>
      have goes := crew_setAccept system
        (system.store address { service with clients := service.clients ++ [client] })
        (.calloc address) 1 1 pushing rfl rfl rfl rfl
      change _ = _ + _ + system.serviceThreads.length at goes
      change _ = _ + (0 : Int)
      omega
  | @calloc index address service allocating found =>
      have goes := crew_setAccept system
        (system.store address { service with thread := .zeroed }) (.startThread address) 1 1
        allocating rfl rfl rfl rfl
      change _ = _ + _ + system.serviceThreads.length at goes
      change _ = _ + (0 : Int)
      omega
  | @startThread index address service starting found =>
      have goes := crew_setAccept system (system.started address service) .accept 1 0
        starting rfl rfl rfl rfl
      have length := length_started address service
      change _ = _ + (0 : Int)
      omega
  | test testing prologue =>
      change ((_ + _ + _ : Nat) : Int) = _ + (0 : Int)
      rw [System.setService, List.length_set, Int.add_zero]
      rfl
  | copy copying prologue found stored =>
      change ((_ + _ + _ : Nat) : Int) = _ + (0 : Int)
      rw [System.setService, List.length_set, Int.add_zero]
      rfl

/-- Nobody ends a thread whose handle is still there. -/
theorem Crewed.handles (crewed : Crewed others live system) (single : live.length ≤ 1)
    (stepped : Stepped system action after)
    : Handled after := by
  have handled := crewed.handled
  -- A service's handle is stored, and its threads are those that there were.
  have stores {address : Address} {service changed : ClientService}
      (found : system.services address = some service) {stored : System}
      (services : stored.services = (system.store address changed).services)
      (threads : stored.serviceThreads = system.serviceThreads)
      (handle : changed.thread = service.thread ∨ changed.thread = .zeroed)
      : Handled stored := by
    refine handled.store services (fun thread member => ⟨thread, threads ▸ member, rfl⟩) ?_
    intro id created
    rw [threads]
    rcases handle with same | zeroed
    · exact handled address service id found (same ▸ created)
    · cases zeroed.symm.trans created
  have begins {address : Address} {service : ClientService} {began : System}
      (services : began.services = (system.started address service).services)
      (threads : began.serviceThreads = (system.started address service).serviceThreads)
      : Handled began := by
    refine handled.store services (fun thread member => ⟨thread, ?_, rfl⟩) ?_
    · rw [threads]
      exact List.mem_append_left _ member
    · intro id created
      cases created
      rw [threads]
      exact ⟨_, List.mem_append_right _ List.mem_cons_self, rfl⟩
  have sets {index : Nat} {thread : ServiceThread}
      (there : system.serviceThreads[index]? = some thread) (prologue : Prologue)
      (other : ServiceThread) (member : other ∈ system.serviceThreads)
      : ∃ new ∈ system.serviceThreads.set index { thread with prologue },
          new.id = other.id := by
    obtain ⟨position, found⟩ := List.mem_iff_getElem?.mp member
    by_cases here : index = position
    · subst here
      cases there.symm.trans found
      have bound := (List.getElem?_eq_some_iff.mp there).1
      exact ⟨_, List.mem_set bound _, rfl⟩
    · refine ⟨other, List.mem_iff_getElem?.mpr ⟨position, ?_⟩, rfl⟩
      rw [List.getElem?_set_ne here, found]
  cases stepped with
  | aside isMain aside => exact handled.frame aside.services aside.serviceThreads
  | mainStopThread main current found created =>
      exact (crewed.stopped single found created).2.2.2.frame rfl rfl
  | mainDropClients clients main current found null => exact stores found rfl rfl (.inl rfl)
  | @mainDelete caller address service main current found =>
      intro other object id present created
      change (if other = address then none else system.services other) = _ at present
      split at present
      · cases present
      · exact handled other object id present created
  | mainClear main => exact handled.frame rfl rfl
  | mainNew main =>
      refine handled.store rfl (fun thread member => ⟨thread, member, rfl⟩) (fun id created => ?_)
      cases created
  | mainStartThread main current found done => exact begins rfl rfl
  | connect accepting => exact handled.frame rfl rfl
  | update updating stored => exact handled.frame rfl rfl
  | listen listening current => exact handled.frame rfl rfl
  | stopThread stopping found created =>
      exact (crewed.stopped single found created).2.2.2.frame rfl rfl
  | pushBack pushing found => exact stores found rfl rfl (.inl rfl)
  | calloc allocating found => exact stores found rfl rfl (.inr rfl)
  | startThread starting found => exact begins rfl rfl
  | test testing prologue =>
      intro address service id found created
      obtain ⟨thread, member, rfl⟩ := handled address service id found created
      exact sets testing _ thread member
  | @copy index thread service clients copying prologue found stored =>
      refine handled.store rfl (sets copying .passed) (fun id created => ?_)
      obtain ⟨other, member, rfl⟩ := handled _ service id found created
      exact sets copying .passed other member

/-- A step gives each service that it makes a thread, or leaves it in hand. -/
theorem Crewed.step (crewed : Crewed others live system) (single : live.length ≤ 1)
    (stepped : Stepped system action after)
    : ∃ remaining : List Address,
        Crewed others remaining after
        ∧ (remaining.length : Int) = live.length + action.makes system := by
  obtain ⟨remaining, existing, made⟩ := crewed.existing.step crewed.fresh stepped
  have crew := crewed.crew single stepped
  have count := crewed.count
  exact ⟨remaining,
    ⟨crewed.fresh.step stepped, existing, by omega, crewed.handles single stepped⟩, made⟩

/-- The flags leave room for one service, if the bit was clear in memory. -/
theorem Balanced.services_le {storage : Storage} {stops : Nat} {services : Int}
    (balanced : Balanced storage stops services system)
    (listening : storage.state &&& tcpServerNotListeningClients = 0#32)
    : services ≤ 1 := by
  have sum := balanced.listening
  have now := balanced.serviceClear
  have atMost := clear_le_one tcpServerNotListeningClients system.server.state
  rw [clear_eq_one_iff.mpr listening] at sum
  cases main : system.main <;> rw [main] at sum now
  case startServiceStartThread | startServiceUnSetBit =>
    rw [now 0 rfl] at sum
    change services = 0 + (1 - 1) + 1 at sum
    omega
  case stopServiceSetBit caller =>
    change services = _ + (1 - 1) + -1 at sum
    omega
  all_goals
    change services = _ + (1 - 1) + 0 at sum
    omega

end Steps

-----------------------------------------------------------------------------------------
-- Runs
-----------------------------------------------------------------------------------------

namespace Session

/-- The application starts the server once, deletes it by `Stop` only, and sets and clears
neither flag that `Stop` sets.
-/
def Behaves (session : Session) : Event → Prop
  | .server action => StartsOnce session.system action
  | .setBit bit | .unSetBit bit =>
      bit &&& tcpServerNotAcceptingNewConnections = 0#32
      ∧ bit &&& tcpServerNotListeningClients = 0#32
  | .destroy => False
  | _ => True

instance (session : Session) (event : Event) : Decidable (session.Behaves event) := by
  unfold Behaves
  split <;> infer_instance

/-- There is at most one client service, and it has a thread or is in hand. -/
structure Lone (session : Session) : Prop where
  listening : session.prior.state &&& tcpServerNotListeningClients = 0#32
  crewed
    : ∃ stops live,
        Crewed (holders session.adders) live session.system
        ∧ Balanced session.prior.toStorage stops live.length session.system

section Alone

variable {session after : Session} {event : Event}

/-- At most one thread is alive. -/
theorem Lone.single (lone : session.Lone) : session.system.serviceThreads.length ≤ 1 := by
  obtain ⟨listening, stops, live, crewed, balanced⟩ := lone
  have services := balanced.services_le listening
  have count := crewed.count
  rw [System.crew] at count
  omega

/-- A thread that is alive is the only one. -/
theorem Lone.eq_singleton (lone : session.Lone) {index : Nat} {thread : ServiceThread}
    (present : session.system.serviceThreads[index]? = some thread)
    : session.system.serviceThreads = [thread] := by
  have single := lone.single
  have member := List.mem_of_getElem? present
  obtain ⟨only, same⟩ : ∃ only, session.system.serviceThreads = [only] :=
    List.length_eq_one_iff.mp (Nat.le_antisymm single (List.length_pos_of_mem member))
  rw [same] at member ⊢
  rw [List.mem_singleton.mp member]

/-- Other objects of the heap, or other flags, make no difference. -/
theorem Lone.frame (lone : session.Lone) {state : BitVec 32}
    (accepts
      : Ethnm.clear tcpServerNotAcceptingNewConnections state
        = Ethnm.clear tcpServerNotAcceptingNewConnections session.system.server.state)
    (listens
      : Ethnm.clear tcpServerNotListeningClients state
        = Ethnm.clear tcpServerNotListeningClients session.system.server.state)
    {fresh : Nat} (used : session.system.fresh ≤ fresh) {heap : ClientHeap}
    (system
      : after.system
        = { session.system with server := { session.system.server with state }, fresh, heap })
    (adders : holders after.adders = holders session.adders) (prior : after.prior = session.prior)
    : after.Lone := by
  obtain ⟨listening, stops, live, crewed, balanced⟩ := lone
  refine ⟨prior ▸ listening, stops, live, ?_, ?_⟩
  · rw [adders, system]
    refine ⟨⟨fun address unused => ?_, fun thread member => ?_⟩, ?_, crewed.count, ?_⟩
    · exact crewed.fresh.services address (Nat.le_trans used unused)
    · exact Nat.lt_of_lt_of_le (crewed.fresh.threads thread member) used
    · exact crewed.existing.same rfl
    · exact crewed.handled.frame rfl rfl
  · rw [prior, system]
    obtain ⟨accepting, acceptClear, listening, serviceClear, started, ending⟩ := balanced
    refine ⟨?_, ?_, ?_, ?_, started, ?_⟩
    · rw [accepts]
      exact accepting
    · rw [accepts]
      exact acceptClear
    · rw [listens]
      exact listening
    · rw [listens]
      exact serviceClear
    · rw [listens]
      exact ending

/-- The application's own call of `AddClient` goes on. -/
theorem Lone.add (lone : session.Lone) {index : Nat} {added : System}
    (stepped
      : acceptStep index { session.system with acceptThreads := session.adders } = .ok added)
    (system : after.system = { added with acceptThreads := session.system.acceptThreads })
    (adders : after.adders = added.acceptThreads) (prior : after.prior = session.prior)
    : after.Lone := by
  obtain ⟨listening, stops, live, crewed, balanced⟩ := lone
  have single : (live.length : Int) ≤ 1 := balanced.services_le listening
  have did := stepped_of_acceptStep stepped
  -- The application's calls are looked at in place of the accept threads'.
  have swapped : Crewed (holders session.system.acceptThreads) live
      { session.system with acceptThreads := session.adders } := by
    have swap := crew_swap session.system session.adders
    exact ⟨⟨crewed.fresh.services, crewed.fresh.threads⟩, crewed.existing.same rfl,
      Nat.le_trans (Nat.le_of_eq swap) crewed.count, crewed.handled.frame rfl rfl⟩
  obtain ⟨remaining, crewed, made⟩ := swapped.step (by omega) did
  have same : remaining.length = live.length := by
    change _ = _ + (0 : Int) at made
    omega
  refine ⟨prior ▸ listening, stops, remaining, ?_, ?_⟩
  · rw [adders, system]
    have swap := crew_swap added session.system.acceptThreads
    exact ⟨⟨crewed.fresh.services, crewed.fresh.threads⟩, crewed.existing.same rfl,
      Nat.le_trans (Nat.le_of_eq swap) crewed.count, crewed.handled.frame rfl rfl⟩
  · rw [prior, same, system]
    cases did
    case aside isMain aside => cases isMain
    all_goals exact balanced.same rfl rfl rfl rfl

/-- Whatever happens, no second thread begins. -/
theorem Lone.step (lone : session.Lone) (behaves : session.Behaves event)
    (did : session.Did event after)
    : after.Lone ∧ after.prior = session.prior := by
  cases did with
  | @server action system seen written stepped silent =>
      obtain ⟨listening, stops, live, crewed, balanced⟩ := lone
      have single : (live.length : Int) ≤ 1 := balanced.services_le listening
      obtain ⟨remaining, crewed, made⟩ := crewed.step (by omega) (stepped_of_step behaves stepped)
      have next := balanced.step behaves stepped
      rw [← made] at next
      exact ⟨⟨listening, _, remaining, crewed, next⟩, rfl⟩
  | looks looks silent => exact ⟨lone.frame rfl rfl (Nat.le_refl _) rfl rfl rfl, rfl⟩
  | setBit bit =>
      exact ⟨lone.frame (clear_or_of_disjoint behaves.1) (clear_or_of_disjoint behaves.2)
        (Nat.le_refl _) rfl rfl rfl, rfl⟩
  | unSetBit bit =>
      exact ⟨lone.frame (clear_and_not_of_disjoint behaves.1)
        (clear_and_not_of_disjoint behaves.2) (Nat.le_refl _) rfl rfl rfl, rfl⟩
  | addClient client =>
      exact ⟨lone.frame rfl rfl (Nat.le_succ _) rfl (holders_append _ _) rfl, rfl⟩
  | add stepped => exact ⟨lone.add stepped rfl rfl rfl, rfl⟩
  | destroy => exact behaves.elim
  | select present selecting => exact ⟨lone.frame rfl rfl (Nat.le_refl _) rfl rfl rfl, rfl⟩
  | clear present receiving found ended room =>
      exact ⟨lone.frame rfl rfl (Nat.le_refl _) rfl rfl rfl, rfl⟩
  | receive present receiving found here there =>
      split
      · exact ⟨lone.frame rfl rfl (Nat.le_refl _) rfl rfl rfl, rfl⟩
      · exact ⟨lone.frame rfl rfl (Nat.le_refl _) rfl rfl rfl, rfl⟩
  | handOver present handing others silent room =>
      exact ⟨lone.frame rfl rfl (Nat.le_refl _) rfl rfl rfl, rfl⟩

/-- At first the only client service is in the main thread's hand. -/
theorem lone_construct {prior : PriorContents}
    (listening : prior.state &&& tcpServerNotListeningClients = 0#32)
    : (construct prior).Lone := by
  have kept := kept_construct prior.toStorage
  obtain ⟨live, existing, balanced⟩ := kept.balanced
  have member : 1 ∈ live := by
    rw [existing.all, status_construct, Function.update_self]
    exact Option.some_ne_none _
  refine ⟨listening, 0, live, ⟨kept.orderly.fresh, existing, ?_, ?_⟩, balanced⟩
  · exact List.length_pos_of_mem member
  · intro address service id found created
    change (if address = 1 then some _ else none) = some service at found
    split at found
    · cases found
      cases created
    · cases found

end Alone

end Session

end Ethnm
