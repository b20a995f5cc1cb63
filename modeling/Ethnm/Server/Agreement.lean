import Ethnm.Server.LiveThreads

/-! The clients of the client database and those of the client service. A client is counted
on its way, from the accept thread that made it into the database, and from there into the
service.
-/

namespace Ethnm
open Custody Runs

-----------------------------------------------------------------------------------------
-- Agreement
-----------------------------------------------------------------------------------------

/-- The client that an accept thread has put into the database and not yet into a service. -/
def AcceptThread.pending : AcceptThread → Option Address
  | .listen client => some client
  | .stopThread _ client => some client
  | .pushBack _ client => some client
  | _ => none

/-- The client that an accept thread is adding to the current service, which `service` is. -/
def AcceptThread.adding (service : Address) : AcceptThread → Option Address
  | .listen client => some client
  | .stopThread target client => if target = service then some client else none
  | .pushBack target client => if target = service then some client else none
  | _ => none

/-- Whenever no `AddClient` is in progress, the service's thread has passed its prologue and
clients are listened to, the service has the clients of the database, each once.
-/
def Agrees (system : System) : Prop :=
  ∀ address service clients,
    system.server.clientService = some address
    → system.services address = some service
    → system.server.clientDb = some clients
    → (∀ thread ∈ system.acceptThreads, thread.inAddClient = false)
    → (∃ thread ∈ system.serviceThreads,
        thread.service = address ∧ thread.prologue = .passed)
    → system.server.isBitSet tcpServerNotListeningClients = false
    → service.clients.Perm clients ∧ service.clients.Nodup

/-- `AddClient` is called only while there is a client service. -/
def AddsToService (system : System) : Action → Prop
  | .accept index =>
      match system.acceptThreads[index]? with
      | some (.update _) => system.server.clientService.isSome
      | _ => True
  | _ => True

instance (system : System) (action : Action) : Decidable (AddsToService system action) := by
  unfold AddsToService
  split
  · split <;> infer_instance
  · infer_instance

/-- What was done so far for the lists of clients: whether any client was given to `Listen`, and
for the current service, whether one was before it was made, and whether clients were copied or
pushed back to it.
-/
structure Journal where
  listened : Bool
  behind : Bool
  copied : Bool
  pushed : Bool
  deriving DecidableEq, Repr

/-- What a step adds. The current service changes when `StartClientService` makes a new one. -/
def Journal.record (journal : Journal) (visit : System × Action) : Journal :=
  let (system, action) := visit
  match action with
  | .main =>
      if system.main = .startServiceNew then
        { journal with behind := journal.listened, copied := false, pushed := false }
      else
        journal
  | .accept index =>
      match system.acceptThreads[index]? with
      | some (.listen _) => { journal with listened := true }
      | some (.pushBack service _) =>
          if system.server.clientService = some service then
            { journal with pushed := true }
          else
            journal
      | _ => journal
  | .service index =>
      match system.serviceThreads[index]? with
      | some thread =>
          if thread.prologue = .copy ∧ system.server.clientService = some thread.service then
            { journal with copied := true }
          else
            journal
      | none => journal
  | .call _ | .connect _ _ => journal

/-- Nothing was done yet. -/
def Journal.start : Journal :=
  { listened := false, behind := false, copied := false, pushed := false }

/-- The journal of a run. -/
def journalOf (history : List (System × Action)) : Journal :=
  history.foldl Journal.record .start

theorem journalOf_snoc (history : List (System × Action)) (visit : System × Action)
    : journalOf (history ++ [visit]) = (journalOf history).record visit := by
  rw [journalOf, List.foldl_append]
  rfl

/-- A prologue comes in time. If clients were given to `Listen` before the service was made, then
the flag is tested before `StartClientService` clears it, or the clients were copied already; and
they are copied before any are copied or pushed back, and while none is being added.
-/
def PrologueInTime (journal : Journal) (system : System) (thread : ServiceThread) : Prop :=
  match thread.prologue with
  | .test =>
      journal.behind = true
      → system.server.isBitSet tcpServerNotListeningClients ∨ journal.copied = true
  | .copy =>
      journal.copied = false
      ∧ journal.pushed = false
      ∧ ∀ adder ∈ system.acceptThreads, adder.adding thread.service = none
  | .passed => True

instance (journal : Journal) (system : System) (thread : ServiceThread)
    : Decidable (PrologueInTime journal system thread) := by
  unfold PrologueInTime
  split <;> infer_instance

/-- Every prologue on the current service comes in time. -/
def ProloguesInTime (history : List (System × Action)) (system : System) : Action → Prop
  | .service index =>
      match system.serviceThreads[index]? with
      | none => True
      | some thread =>
          system.server.clientService = some thread.service
          → PrologueInTime (journalOf history) system thread
  | _ => True

instance (history : List (System × Action)) (system : System) (action : Action)
    : Decidable (ProloguesInTime history system action) := by
  unfold ProloguesInTime
  split
  · split <;> infer_instance
  · infer_instance

-----------------------------------------------------------------------------------------
-- Counting clients
-----------------------------------------------------------------------------------------

namespace System

/-- How often a client is about to be put into the database. -/
def arriving (client : Address) (system : System) : Nat :=
  system.acceptThreads.countP (· = .update client)

/-- How often a client is on its way from the database to a service. -/
def pending (client : Address) (system : System) : Nat :=
  system.acceptThreads.countP (·.pending = some client)

/-- How often a client is about to be given to `Listen`. -/
def listening (client : Address) (system : System) : Nat :=
  system.acceptThreads.countP (· = .listen client)

/-- How often a client is being added to a service, if that is the current one. -/
def adding (address client : Address) (system : System) : Nat :=
  system.acceptThreads.countP (·.adding address = some client)

end System

section Counting

variable {system : System} {address client : Address} {index : Nat} {present : AcceptThread}

theorem AcceptThread.pending_of_adding {thread : AcceptThread}
    (adding : thread.adding address = some client)
    : thread.pending = some client := by
  cases thread with
  | listen other => exact adding
  | stopThread target other | pushBack target other =>
      rw [AcceptThread.adding] at adding
      split at adding
      · exact adding
      · cases adding
  | accept | update | calloc | startThread => cases adding

theorem System.adding_le_pending (address client : Address) (system : System)
    : system.adding address client ≤ system.pending client :=
  List.countP_mono_left (fun _ _ adding =>
    decide_eq_true (AcceptThread.pending_of_adding (of_decide_eq_true adding)))

theorem System.listening_le_adding (address client : Address) (system : System)
    : system.listening client ≤ system.adding address client := by
  refine List.countP_mono_left (fun thread _ listening => ?_)
  rw [of_decide_eq_true listening]
  exact decide_eq_true rfl

/-- A count changes with the thread that goes on. -/
theorem countP_set_add (test : AcceptThread → Bool) (next : AcceptThread)
    {threads : List AcceptThread}
    (there : threads[index]? = some present)
    : (threads.set index next).countP test + (if test present then 1 else 0)
      = threads.countP test + (if test next then 1 else 0) := by
  obtain ⟨bound, rfl⟩ := List.getElem?_eq_some_iff.mp there
  have counted := @List.boole_getElem_le_countP _ test threads index bound
  rw [List.countP_set bound]
  omega

theorem arriving_setAccept (client : Address) (next : AcceptThread)
    (there : system.acceptThreads[index]? = some present)
    : (system.setAccept index next).arriving client
        + (if present = .update client then 1 else 0)
      = system.arriving client + (if next = .update client then 1 else 0) := by
  have counted := countP_set_add (· = .update client) next there
  simp only [decide_eq_true_eq] at counted
  exact counted

theorem listening_setAccept (client : Address) (next : AcceptThread)
    (there : system.acceptThreads[index]? = some present)
    : (system.setAccept index next).listening client
        + (if present = .listen client then 1 else 0)
      = system.listening client + (if next = .listen client then 1 else 0) := by
  have counted := countP_set_add (· = .listen client) next there
  simp only [decide_eq_true_eq] at counted
  exact counted

theorem pending_setAccept (client : Address) (next : AcceptThread)
    (there : system.acceptThreads[index]? = some present)
    : (system.setAccept index next).pending client
        + (if present.pending = some client then 1 else 0)
      = system.pending client + (if next.pending = some client then 1 else 0) := by
  have counted := countP_set_add (·.pending = some client) next there
  simp only [decide_eq_true_eq] at counted
  exact counted

theorem adding_setAccept (address client : Address) (next : AcceptThread)
    (there : system.acceptThreads[index]? = some present)
    : (system.setAccept index next).adding address client
        + (if present.adding address = some client then 1 else 0)
      = system.adding address client
        + (if next.adding address = some client then 1 else 0) := by
  have counted := countP_set_add (·.adding address = some client) next there
  simp only [decide_eq_true_eq] at counted
  exact counted

end Counting

/-- Every client is where it has to be: at most once on the way into the database or there,
and from there at most once in the current service or on the way to it. A service that is not
behind, or has copied the clients, misses none; and no thread has passed its prologue on one
that is.
-/
structure Tracked (journal : Journal) (clients : List Address) (system : System) : Prop where
  stored : system.server.clientDb = some clients
  once : ∀ client, clients.count client + system.arriving client ≤ 1
  used : ∀ client, system.fresh ≤ client → clients.count client + system.arriving client = 0
  added : ∀ client, system.pending client ≤ clients.count client
  waiting
    : journal.listened = false → ∀ client, clients.count client ≤ system.listening client
  attached
    : ∀ address service,
        system.server.clientService = some address
        → system.services address = some service
        → (∀ caller, system.main ≠ .stopServiceDelete caller)
        → ∀ client,
            service.clients.count client + system.adding address client ≤ clients.count client
  empty
    : ∀ address service,
        system.server.clientService = some address
        → system.services address = some service
        → (∀ caller, system.main ≠ .stopServiceDelete caller)
        → journal.copied = false
        → journal.pushed = false
        → service.clients = []
  complete
    : ∀ address service,
        system.server.clientService = some address
        → system.services address = some service
        → (∀ caller, system.main ≠ .stopServiceDelete caller)
        → (journal.behind = true → journal.copied = true)
        → ∀ client,
            clients.count client ≤ service.clients.count client + system.adding address client
  passed
    : ∀ thread ∈ system.serviceThreads,
        system.server.clientService = some thread.service
        → thread.prologue = .passed
        → journal.behind = true
        → journal.copied = true

section Tracking

variable {journal : Journal} {clients : List Address} {system after : System}

/-- The clients stay where they are. -/
theorem Tracked.frame (tracked : Tracked journal clients system)
    (stored : after.server.clientDb = some clients)
    (current : after.server.clientService = system.server.clientService)
    (services
      : ∀ address service,
          after.services address = some service
          → ∃ old, system.services address = some old ∧ service.clients = old.clients)
    (arriving : ∀ client, after.arriving client = system.arriving client)
    (pending : ∀ client, after.pending client = system.pending client)
    (listening
      : journal.listened = false
        → ∀ client, after.listening client = system.listening client)
    (adding
      : ∀ address client,
          system.server.clientService = some address
          → after.adding address client = system.adding address client)
    (fresh : system.fresh ≤ after.fresh)
    (deleting
      : ∀ caller, system.main = .stopServiceDelete caller
        → ∃ caller, after.main = .stopServiceDelete caller)
    (passed
      : ∀ thread ∈ after.serviceThreads,
          thread.prologue = .passed → thread ∈ system.serviceThreads)
    : Tracked journal clients after := by
  have keeping (keeps : ∀ caller, after.main ≠ .stopServiceDelete caller) (caller : Caller)
      : system.main ≠ .stopServiceDelete caller := by
    intro main
    obtain ⟨caller, main⟩ := deleting caller main
    exact keeps caller main
  refine ⟨stored, ?_, ?_, ?_, ?_, ?_, ?_, ?_, ?_⟩
  · intro client
    rw [arriving]
    exact tracked.once client
  · intro client unused
    rw [arriving]
    exact tracked.used client (Nat.le_trans fresh unused)
  · intro client
    rw [pending]
    exact tracked.added client
  · intro none client
    rw [listening none]
    exact tracked.waiting none client
  · intro address service is found keeps client
    rw [current] at is
    obtain ⟨old, before, same⟩ := services address service found
    rw [adding address client is, same]
    exact tracked.attached address old is before (keeping keeps) client
  · intro address service is found keeps copied pushed
    rw [current] at is
    obtain ⟨old, before, same⟩ := services address service found
    rw [same]
    exact tracked.empty address old is before (keeping keeps) copied pushed
  · intro address service is found keeps copied client
    rw [current] at is
    obtain ⟨old, before, same⟩ := services address service found
    rw [adding address client is, same]
    exact tracked.complete address old is before (keeping keeps) copied client
  · intro thread member is prologue
    rw [current] at is
    exact tracked.passed thread (passed thread member prologue) is prologue

/-- An accept thread goes on, and the clients stay where they are. -/
theorem Tracked.frameAccept {middle : System} {index : Nat} {present next : AcceptThread}
    (tracked : Tracked journal clients system) (server : middle.server = system.server)
    (main : middle.main = system.main)
    (acceptThreads : middle.acceptThreads = system.acceptThreads)
    (fresh : system.fresh ≤ middle.fresh)
    (services
      : ∀ address service,
          middle.services address = some service
          → ∃ old, system.services address = some old ∧ service.clients = old.clients)
    (passed
      : ∀ thread ∈ middle.serviceThreads,
          thread.prologue = .passed → thread ∈ system.serviceThreads)
    (there : system.acceptThreads[index]? = some present)
    (arriving : ∀ client, present = .update client ↔ next = .update client)
    (pending : present.pending = next.pending)
    (listening
      : journal.listened = false → ∀ client, present = .listen client ↔ next = .listen client)
    (adding
      : ∀ address,
          system.server.clientService = some address
          → present.adding address = next.adding address)
    : Tracked journal clients (middle.setAccept index next) := by
  have thereMiddle : middle.acceptThreads[index]? = some present := by
    rw [acceptThreads]
    exact there
  refine tracked.frame ?_ ?_ services ?_ ?_ ?_ ?_ fresh ?_ passed
  · exact (congrArg TcpServer.clientDb server).trans tracked.stored
  · exact congrArg TcpServer.clientService server
  · intro client
    have counted := arriving_setAccept client next thereMiddle
    rw [if_congr (arriving client) rfl rfl, Nat.add_right_cancel_iff] at counted
    rw [counted, System.arriving, acceptThreads]
    rfl
  · intro client
    have counted := pending_setAccept client next thereMiddle
    rw [pending, Nat.add_right_cancel_iff] at counted
    rw [counted, System.pending, acceptThreads]
    rfl
  · intro none client
    have counted := listening_setAccept client next thereMiddle
    rw [if_congr (listening none client) rfl rfl, Nat.add_right_cancel_iff] at counted
    rw [counted, System.listening, acceptThreads]
    rfl
  · intro address client current
    have counted := adding_setAccept address client next thereMiddle
    rw [adding address current, Nat.add_right_cancel_iff] at counted
    rw [counted, System.adding, acceptThreads]
    rfl
  · intro caller deleting
    exact ⟨caller, main.trans deleting⟩

/-- Once a client was given to `Listen`, nothing is known of those that wait for it. -/
theorem Tracked.listened (tracked : Tracked journal clients system)
    : Tracked { journal with listened := true } clients system :=
  { tracked with waiting := nofun }

/-- A service is changed, but not its clients. -/
theorem services_store {address : Address} {service changed : ClientService}
    (found : system.services address = some service) (same : changed.clients = service.clients)
    (other : Address) (object : ClientService)
    (stored : (system.store address changed).services other = some object)
    : ∃ old, system.services other = some old ∧ object.clients = old.clients := by
  rcases services_store_eq other object stored with ⟨rfl, rfl⟩ | ⟨-, before⟩
  · exact ⟨service, found, same⟩
  · exact ⟨object, before, rfl⟩

/-- A thread that has just been started has not passed its prologue. -/
theorem mem_of_passed_started {address : Address} {id : Nat} (thread : ServiceThread)
    (member
      : thread ∈ system.serviceThreads ++ [{ id, service := address, prologue := .test }])
    (passed : thread.prologue = .passed)
    : thread ∈ system.serviceThreads := by
  rcases List.mem_append.mp member with member | member
  · exact member
  · rw [List.mem_singleton] at member
    subst thread
    cases passed

theorem Tracked.aside (tracked : Tracked journal clients system) (aside : Aside system after)
    (remains : after.main.purged = false)
    : Tracked journal clients after := by
  have counts (test : AcceptThread → Bool) (never : test .accept = false)
      : after.acceptThreads.countP test = system.acceptThreads.countP test := by
    rcases aside.acceptThreads with same | more
    · rw [same]
    · rw [more, List.countP_append, List.countP_singleton, never]
      rfl
  refine tracked.frame ?_ aside.clientService ?_ ?_ ?_ ?_ ?_ aside.fresh ?_ ?_
  · rcases aside.clientDb with same | purged
    · rw [same]
      exact tracked.stored
    · rw [remains] at purged
      cases purged
  · intro address service found
    rw [aside.services] at found
    exact ⟨service, found, rfl⟩
  · exact fun client => counts _ rfl
  · exact fun client => counts _ rfl
  · exact fun _ client => counts _ rfl
  · exact fun address client _ => counts _ rfl
  · intro caller deleting
    have makes := aside.makes
    rw [deleting] at makes
    cases makes
  · intro thread member _
    rw [aside.serviceThreads] at member
    exact member

/-- The service of a thread runs it. -/
theorem Orderly.running (orderly : Orderly system) {thread : ServiceThread}
    (member : thread ∈ system.serviceThreads)
    : system.status thread.service = some (.running thread.id) :=
  orderly.accounted.employed.owned (thread.id, thread.service)
    (List.mem_map.mpr ⟨thread, member, rfl⟩)

/-- A service that runs a thread is not being deleted. -/
theorem Orderly.not_deleting (orderly : Orderly system) {thread : ServiceThread}
    (member : thread ∈ system.serviceThreads)
    (current : system.server.clientService = some thread.service) (caller : Caller)
    : system.main ≠ .stopServiceDelete caller := by
  intro deleting
  have inHand : system.hands .main = some (thread.service, .null) :=
    hands_main_eq_some (by rw [deleting]; rfl) current
  have held := orderly.accounted.held.inHand .main thread.service .null inHand
  cases (orderly.running member).symm.trans held

/-- The clients of a service that is about to be deleted do not count. -/
theorem Tracked.dropClients {caller : Caller} {address : Address} {service : ClientService}
    (tracked : Tracked journal clients system) (left : List Address)
    : Tracked journal clients
        ((system.store address { service with clients := left }).goto
          (.stopServiceDelete caller)) := by
  refine ⟨tracked.stored, tracked.once, tracked.used, tracked.added, tracked.waiting, ?_, ?_, ?_,
    tracked.passed⟩
  · intro other object is stored keeps
    exact absurd rfl (keeps caller)
  · intro other object is stored keeps
    exact absurd rfl (keeps caller)
  · intro other object is stored keeps
    exact absurd rfl (keeps caller)

theorem Tracked.delete {caller : Caller} {address : Address}
    (tracked : Tracked journal clients system)
    (current : system.server.clientService = some address)
    : Tracked journal clients ((system.deleted address).goto (.stopServiceSetBit caller)) := by
  have absent (other : Address) (object : ClientService)
      (is : system.server.clientService = some other)
      (stored : (system.deleted address).services other = some object) : False := by
    have same : address = other := Option.some.inj (current.symm.trans is)
    change (if other = address then none else system.services other) = _ at stored
    rw [if_pos same.symm] at stored
    cases stored
  refine ⟨tracked.stored, tracked.once, tracked.used, tracked.added, tracked.waiting, ?_, ?_, ?_,
    tracked.passed⟩
  · intro other object is stored
    exact (absent other object is stored).elim
  · intro other object is stored
    exact (absent other object is stored).elim
  · intro other object is stored
    exact (absent other object is stored).elim

/-- A new service has no clients, and no thread yet; if none was ever given to `Listen`, it does
not miss any.
-/
theorem Tracked.construct (tracked : Tracked journal clients system) (orderly : Orderly system)
    : Tracked { journal with behind := journal.listened, copied := false, pushed := false }
        clients ((ClientService.construct system).goto .startServiceStartThread) := by
  have new (address : Address) (service : ClientService)
      (is : some system.fresh = some address)
      (found : (ClientService.construct system).services address = some service)
      : service.clients = [] := by
    cases is
    change (if system.fresh = system.fresh then _ else _) = some service at found
    rw [if_pos rfl] at found
    cases found
    rfl
  refine ⟨tracked.stored, tracked.once, ?_, tracked.added, tracked.waiting, ?_, ?_, ?_, ?_⟩
  · intro client unused
    exact tracked.used client (Nat.le_of_succ_le unused)
  · intro address service is found _ client
    rw [new address service is found, List.count_nil, Nat.zero_add]
    exact Nat.le_trans (System.adding_le_pending address client system) (tracked.added client)
  · intro address service is found _ _ _
    exact new address service is found
  · intro address service is found _ early client
    have none : journal.listened = false := by
      refine eq_false_of_ne_true (fun listened => ?_)
      cases early listened
    refine Nat.le_trans (tracked.waiting none client) (Nat.le_trans ?_ (Nat.le_add_left _ _))
    exact System.listening_le_adding address client system
  · intro thread member is
    have same : system.fresh = thread.service := Option.some.inj is
    have running := orderly.running member
    rw [System.status, ← same, orderly.fresh.services system.fresh (Nat.le_refl _)] at running
    cases running

/-- An accepted client is new. -/
theorem Tracked.connect {index : Nat} {heap : ClientHeap}
    (tracked : Tracked journal clients system)
    (accepting : system.acceptThreads[index]? = some .accept)
    : Tracked journal clients {
        system.setAccept index (.update system.fresh) with
        heap
        fresh := system.fresh + 1
      } := by
  have arriving (client : Address)
      : (system.setAccept index (.update system.fresh)).arriving client
        = system.arriving client + (if system.fresh = client then 1 else 0) := by
    have counted := arriving_setAccept client (.update system.fresh) accepting
    simpa using counted
  have pending (client : Address)
      : (system.setAccept index (.update system.fresh)).pending client
        = system.pending client := by
    have counted := pending_setAccept client (.update system.fresh) accepting
    simpa [AcceptThread.pending] using counted
  have listening (client : Address)
      : (system.setAccept index (.update system.fresh)).listening client
        = system.listening client := by
    have counted := listening_setAccept client (.update system.fresh) accepting
    simpa using counted
  have adding (address client : Address)
      : (system.setAccept index (.update system.fresh)).adding address client
        = system.adding address client := by
    have counted := adding_setAccept address client (.update system.fresh) accepting
    simpa [AcceptThread.adding] using counted
  refine ⟨tracked.stored, ?_, ?_, ?_, ?_, ?_, tracked.empty, ?_, tracked.passed⟩
  · intro client
    refine le_of_eq_of_le (congrArg _ (arriving client)) ?_
    by_cases isIt : system.fresh = client
    · have unused := tracked.used client (Nat.le_of_eq isIt)
      rw [if_pos isIt]
      omega
    · rw [if_neg isIt]
      exact tracked.once client
  · intro client unused
    refine (congrArg _ (arriving client)).trans ?_
    rw [if_neg (Nat.ne_of_lt unused)]
    exact tracked.used client (Nat.le_of_succ_le unused)
  · intro client
    exact le_of_eq_of_le (pending client) (tracked.added client)
  · intro none client
    exact le_of_le_of_eq (tracked.waiting none client) (listening client).symm
  · intro address service is found keeps client
    refine le_of_eq_of_le (congrArg _ (adding address client)) ?_
    exact tracked.attached address service is found keeps client
  · intro address service is found keeps early client
    refine le_of_le_of_eq ?_ (congrArg _ (adding address client).symm)
    exact tracked.complete address service is found keeps early client

/-- A client arrives in the database. -/
theorem Tracked.update {index : Nat} {client : Address}
    (tracked : Tracked journal clients system)
    (updating : system.acceptThreads[index]? = some (.update client))
    : Tracked journal (clients ++ [client])
        ((system.stored clients client).setAccept index (.listen client)) := by
  have stored (other : Address)
      : (clients ++ [client]).count other
        = clients.count other + (if client = other then 1 else 0) := by
    rw [List.count_append, List.count_singleton]
    simp
  have arriving (other : Address)
      : ((system.stored clients client).setAccept index (.listen client)).arriving other
          + (if client = other then 1 else 0)
        = system.arriving other := by
    have counted : _ = system.arriving other + _ :=
      @arriving_setAccept (system.stored clients client) _ _ other (.listen client) updating
    simpa using counted
  have pending (other : Address)
      : ((system.stored clients client).setAccept index (.listen client)).pending other
        = system.pending other + (if client = other then 1 else 0) := by
    have counted : _ = system.pending other + _ :=
      @pending_setAccept (system.stored clients client) _ _ other (.listen client) updating
    simpa [AcceptThread.pending] using counted
  have listening (other : Address)
      : ((system.stored clients client).setAccept index (.listen client)).listening other
        = system.listening other + (if client = other then 1 else 0) := by
    have counted : _ = system.listening other + _ :=
      @listening_setAccept (system.stored clients client) _ _ other (.listen client) updating
    simpa using counted
  have adding (address other : Address)
      : ((system.stored clients client).setAccept index (.listen client)).adding address other
        = system.adding address other + (if client = other then 1 else 0) := by
    have counted : _ = system.adding address other + _ :=
      @adding_setAccept (system.stored clients client) _ _ address other (.listen client) updating
    simpa [AcceptThread.adding] using counted
  refine ⟨rfl, ?_, ?_, ?_, ?_, ?_, tracked.empty, ?_, tracked.passed⟩
  · intro other
    have once := tracked.once other
    rw [← arriving other] at once
    rw [stored other]
    omega
  · intro other unused
    have never := tracked.used other unused
    rw [← arriving other] at never
    rw [stored other]
    omega
  · intro other
    have added := tracked.added other
    rw [pending other, stored other]
    omega
  · intro none other
    have waiting := tracked.waiting none other
    rw [listening other, stored other]
    omega
  · intro address service is found keeps other
    have attached := tracked.attached address service is found keeps other
    rw [adding address other, stored other]
    omega
  · intro address service is found keeps early other
    have complete := tracked.complete address service is found keeps early other
    rw [adding address other, stored other]
    omega

/-- A client arrives in a service. -/
theorem Tracked.pushBack {index : Nat} {address client : Address} {service : ClientService}
    (tracked : Tracked journal clients system)
    (pushing : system.acceptThreads[index]? = some (.pushBack address client))
    (found : system.services address = some service)
    : Tracked (journal.record (system, .accept index)) clients
        ((system.store address { service with clients := service.clients ++ [client] }).setAccept
          index (.calloc address)) := by
  let middle := system.store address { service with clients := service.clients ++ [client] }
  have arriving (other : Address)
      : (middle.setAccept index (.calloc address)).arriving other = system.arriving other := by
    have counted : _ = system.arriving other + _ :=
      @arriving_setAccept middle _ _ other (.calloc address) pushing
    simpa using counted
  have pending (other : Address)
      : (middle.setAccept index (.calloc address)).pending other
          + (if client = other then 1 else 0)
        = system.pending other := by
    have counted : _ = system.pending other + _ :=
      @pending_setAccept middle _ _ other (.calloc address) pushing
    simpa [AcceptThread.pending] using counted
  have listening (other : Address)
      : (middle.setAccept index (.calloc address)).listening other
        = system.listening other := by
    have counted : _ = system.listening other + _ :=
      @listening_setAccept middle _ _ other (.calloc address) pushing
    simpa using counted
  have adding (target other : Address)
      : (middle.setAccept index (.calloc address)).adding target other
          + (if address = target ∧ client = other then 1 else 0)
        = system.adding target other := by
    have counted : _ = system.adding target other + _ :=
      @adding_setAccept middle _ _ target other (.calloc address) pushing
    simpa [AcceptThread.adding] using counted
  have total (target : Address) (object : ClientService)
      (stored : middle.services target = some object) (other : Address)
      : ∃ old, system.services target = some old
          ∧ object.clients.count other
              + (middle.setAccept index (.calloc address)).adding target other
            = old.clients.count other + system.adding target other := by
    rcases services_store_eq target object stored with ⟨rfl, rfl⟩ | ⟨different, before⟩
    · refine ⟨service, found, ?_⟩
      have counted := adding target other
      rw [List.count_append, List.count_singleton]
      simp only [true_and] at counted
      simp only [beq_iff_eq]
      omega
    · refine ⟨object, before, ?_⟩
      have counted := adding target other
      rw [if_neg (fun both => different both.1.symm)] at counted
      omega
  have recorded : journal.record (system, .accept index)
      = if system.server.clientService = some address then { journal with pushed := true }
        else journal := by
    simp only [Journal.record, pushing]
  have listened : (journal.record (system, .accept index)).listened = journal.listened := by
    rw [recorded]
    split <;> rfl
  have behind : (journal.record (system, .accept index)).behind = journal.behind := by
    rw [recorded]
    split <;> rfl
  have copied : (journal.record (system, .accept index)).copied = journal.copied := by
    rw [recorded]
    split <;> rfl
  refine ⟨tracked.stored, ?_, ?_, ?_, ?_, ?_, ?_, ?_, ?_⟩
  · intro other
    exact le_of_eq_of_le (congrArg _ (arriving other)) (tracked.once other)
  · intro other unused
    exact (congrArg _ (arriving other)).trans (tracked.used other unused)
  · intro other
    have added := tracked.added other
    rw [← pending other] at added
    exact Nat.le_trans (Nat.le_add_right _ _) added
  · rw [listened]
    intro none other
    exact le_of_le_of_eq (tracked.waiting none other) (listening other).symm
  · intro target object is stored keeps other
    obtain ⟨old, before, same⟩ := total target object stored other
    exact le_of_eq_of_le same (tracked.attached target old is before keeps other)
  · rw [copied]
    intro target object is stored keeps notCopied notPushed
    rw [recorded] at notPushed
    split at notPushed
    · cases notPushed
    · rename_i different
      rcases services_store_eq target object stored with ⟨rfl, rfl⟩ | ⟨-, before⟩
      · exact absurd is different
      · exact tracked.empty target object is before keeps notCopied notPushed
  · rw [behind, copied]
    intro target object is stored keeps early other
    obtain ⟨old, before, same⟩ := total target object stored other
    exact le_of_le_of_eq (tracked.complete target old is before keeps early other) same.symm
  · rw [behind, copied]
    exact tracked.passed

/-- A thread that is in its prologue goes on. -/
theorem mem_setService {index : Nat} {changed thread : ServiceThread}
    (member : thread ∈ (system.setService index changed).serviceThreads)
    : thread ∈ system.serviceThreads ∨ thread = changed :=
  List.mem_or_eq_of_mem_set member

theorem ProloguesInTime.inTime {history : List (System × Action)} {index : Nat}
    {thread : ServiceThread} (inTime : ProloguesInTime history system (.service index))
    (there : system.serviceThreads[index]? = some thread)
    (current : system.server.clientService = some thread.service)
    : PrologueInTime (journalOf history) system thread := by
  simp only [ProloguesInTime, there] at inTime
  exact inTime current

/-- A prologue that does not copy misses nothing, when it comes in time. -/
theorem Tracked.test {index : Nat} {thread : ServiceThread}
    (tracked : Tracked journal clients system) (prologue : thread.prologue = .test)
    (inTime
      : system.server.clientService = some thread.service
        → PrologueInTime journal system thread)
    : Tracked journal clients
        (system.setService index {
          thread with
          prologue :=
            if system.server.isBitSet tcpServerNotListeningClients then .copy else .passed
        }) := by
  refine ⟨tracked.stored, tracked.once, tracked.used, tracked.added, tracked.waiting,
    tracked.attached, tracked.empty, tracked.complete, ?_⟩
  intro runner member is passed behind
  rcases mem_setService member with member | rfl
  · exact tracked.passed runner member is passed behind
  · have early := inTime is
    rw [PrologueInTime, prologue] at early
    rcases early behind with set | copied
    · rw [if_pos set] at passed
      cases passed
    · exact copied

/-- A prologue that copies gives a service without clients all of them. -/
theorem Tracked.copy {index : Nat} {thread : ServiceThread} {service : ClientService}
    (tracked : Tracked journal clients system) (orderly : Orderly system)
    (copying : system.serviceThreads[index]? = some thread) (prologue : thread.prologue = .copy)
    (found : system.services thread.service = some service)
    (inTime
      : system.server.clientService = some thread.service
        → PrologueInTime journal system thread)
    : Tracked (journal.record (system, .service index)) clients
        ((system.store thread.service
            { service with clients := service.clients ++ clients }).setService
          index { thread with prologue := .passed }) := by
  by_cases current : system.server.clientService = some thread.service
  · have recorded : journal.record (system, .service index) = { journal with copied := true } := by
      simp only [Journal.record, copying, prologue, current, and_self, if_true]
    have early := inTime current
    rw [PrologueInTime, prologue] at early
    obtain ⟨notCopied, notPushed, noAdder⟩ := early
    have empty := tracked.empty thread.service service current found
      (orderly.not_deleting (List.mem_of_getElem? copying) current) notCopied notPushed
    have copied (client : Address)
        : (service.clients ++ clients).count client + system.adding thread.service client
          = clients.count client := by
      have none : system.adding thread.service client = 0 := by
        refine List.countP_eq_zero.mpr ?_
        intro adder among
        rw [noAdder adder among]
        exact nofun
      rw [empty, none, List.nil_append, Nat.add_zero]
    have same (address : Address) (object : ClientService)
        (is : system.server.clientService = some address)
        (stored : (system.store thread.service
            { service with clients := service.clients ++ clients }).services address
          = some object) (client : Address)
        : object.clients.count client + system.adding address client = clients.count client := by
      cases current.symm.trans is
      rcases services_store_eq _ object stored with ⟨-, rfl⟩ | ⟨different, -⟩
      · exact copied client
      · exact absurd rfl different
    rw [recorded]
    refine ⟨tracked.stored, tracked.once, tracked.used, tracked.added, tracked.waiting, ?_, nofun,
      ?_, fun _ _ _ _ _ => rfl⟩
    · intro address object is stored keeps client
      exact Nat.le_of_eq (same address object is stored client)
    · intro address object is stored keeps _ client
      exact Nat.le_of_eq (same address object is stored client).symm
  · have recorded : journal.record (system, .service index) = journal := by
      simp only [Journal.record, copying, current, and_false, if_false]
    have other (address : Address) (object : ClientService)
        (is : system.server.clientService = some address)
        (stored : (system.store thread.service
            { service with clients := service.clients ++ clients }).services address
          = some object)
        : system.services address = some object := by
      rcases services_store_eq address object stored with ⟨rfl, -⟩ | ⟨-, before⟩
      · exact absurd is current
      · exact before
    rw [recorded]
    refine ⟨tracked.stored, tracked.once, tracked.used, tracked.added, tracked.waiting, ?_, ?_, ?_,
      ?_⟩
    · intro address object is stored
      exact tracked.attached address object is (other address object is stored)
    · intro address object is stored
      exact tracked.empty address object is (other address object is stored)
    · intro address object is stored
      exact tracked.complete address object is (other address object is stored)
    · intro runner member is passed
      rcases mem_setService member with member | rfl
      · exact tracked.passed runner member is passed
      · exact absurd is current

/-- The main thread's other steps do not go into the journal. -/
theorem Journal.record_aside {action : Action} (isMain : action.isMain)
    (makes : system.main.makes = 0)
    : journal.record (system, action) = journal := by
  cases action with
  | call | connect => rfl
  | accept | service => cases isMain
  | main =>
      refine if_neg (fun main => ?_)
      rw [main] at makes
      cases makes

/-- A step whose prologues come in time keeps the clients where they have to be. -/
theorem Tracked.step {history : List (System × Action)} {action : Action}
    (tracked : Tracked (journalOf history) clients system) (orderly : Orderly system)
    (inTime : ProloguesInTime history system action)
    (stepped : Stepped system action after) (remains : after.main.purged = false)
    : ∃ clients, Tracked (journalOf (history ++ [(system, action)])) clients after := by
  rw [journalOf_snoc]
  generalize earlier : journalOf history = journal at tracked
  cases stepped with
  | aside isMain aside =>
      rw [Journal.record_aside isMain aside.makes]
      exact ⟨clients, tracked.aside aside remains⟩
  | mainStopThread main current found created =>
      rw [Journal.record_aside rfl (by rw [main]; rfl)]
      refine ⟨clients, tracked.frame tracked.stored rfl (services_store found rfl) (fun _ => rfl)
        (fun _ => rfl) (fun _ _ => rfl) (fun _ _ _ => rfl) (Nat.le_refl _) ?_ ?_⟩
      · intro caller deleting
        rw [main] at deleting
        cases deleting
      · exact fun thread member _ => List.mem_of_mem_filter member
  | mainDropClients left main current found null =>
      rw [Journal.record_aside rfl (by rw [main]; rfl)]
      exact ⟨clients, tracked.dropClients left⟩
  | mainDelete main current found =>
      have same : journal.record (system, .main) = journal :=
        if_neg (fun new => by cases main.symm.trans new)
      rw [same]
      exact ⟨clients, tracked.delete current⟩
  | mainClear main =>
      rw [Journal.record_aside rfl (by rw [main]; rfl)]
      exact ⟨clients, tracked.stored, tracked.once, tracked.used, tracked.added, tracked.waiting,
        nofun, nofun, nofun, nofun⟩
  | mainNew main =>
      have new : journal.record (system, .main)
          = { journal with behind := journal.listened, copied := false, pushed := false } :=
        if_pos main
      rw [new]
      exact ⟨clients, tracked.construct orderly⟩
  | mainStartThread main current found done =>
      rw [Journal.record_aside rfl (Statement.makes_of_zeroed main)]
      refine ⟨clients, tracked.frame tracked.stored rfl (services_store found rfl) (fun _ => rfl)
        (fun _ => rfl) (fun _ _ => rfl) (fun _ _ _ => rfl) (Nat.le_succ _) ?_
        mem_of_passed_started⟩
      intro caller deleting
      rw [deleting] at main
      cases main
  | connect accepting => exact ⟨clients, tracked.connect accepting⟩
  | @update index client stored updating found =>
      have same : journal.record (system, .accept index) = journal := by
        simp only [Journal.record, updating]
      rw [same]
      cases tracked.stored.symm.trans found
      exact ⟨_, tracked.update updating⟩
  | @listen index client address listening current =>
      have listened : journal.record (system, .accept index)
          = { journal with listened := true } := by
        simp only [Journal.record, listening]
      rw [listened]
      refine ⟨clients, tracked.listened.frameAccept rfl rfl rfl (Nat.le_refl _) ?_ ?_ listening
        (fun _ => iff_of_false nofun nofun) rfl nofun ?_⟩
      · exact fun address service found => ⟨service, found, rfl⟩
      · exact fun thread member _ => member
      · intro address is
        cases current.symm.trans is
        rw [AcceptThread.adding, AcceptThread.adding, if_pos rfl]
  | @stopThread index client address service thread stopping found created =>
      have same : journal.record (system, .accept index) = journal := by
        simp only [Journal.record, stopping]
      rw [same]
      refine ⟨clients, tracked.frameAccept rfl rfl rfl (Nat.le_refl _) (services_store found rfl)
        ?_ stopping (fun _ => iff_of_false nofun nofun) rfl (fun _ _ => iff_of_false nofun nofun)
        (fun _ _ => rfl)⟩
      exact fun thread member _ => List.mem_of_mem_filter member
  | pushBack pushing found => exact ⟨clients, tracked.pushBack pushing found⟩
  | @calloc index address service allocating found =>
      have same : journal.record (system, .accept index) = journal := by
        simp only [Journal.record, allocating]
      rw [same]
      refine ⟨clients, tracked.frameAccept rfl rfl rfl (Nat.le_refl _) (services_store found rfl)
        ?_ allocating (fun _ => iff_of_false nofun nofun) rfl
        (fun _ _ => iff_of_false nofun nofun) (fun _ _ => rfl)⟩
      exact fun thread member _ => member
  | @startThread index address service starting found =>
      have same : journal.record (system, .accept index) = journal := by
        simp only [Journal.record, starting]
      rw [same]
      exact ⟨clients, tracked.frameAccept rfl rfl rfl (Nat.le_succ _) (services_store found rfl)
        mem_of_passed_started starting (fun _ => iff_of_false nofun nofun) rfl
        (fun _ _ => iff_of_false nofun nofun) (fun _ _ => rfl)⟩
  | @test index thread testing prologue =>
      have same : journal.record (system, .service index) = journal := by
        simp only [Journal.record, testing, prologue, reduceCtorEq, false_and, if_false]
      rw [same]
      exact ⟨clients, tracked.test prologue
        (fun current => earlier ▸ inTime.inTime testing current)⟩
  | copy copying prologue found stored =>
      cases tracked.stored.symm.trans stored
      exact ⟨clients, tracked.copy orderly copying prologue found
        (fun current => earlier ▸ inTime.inTime copying current)⟩

end Tracking

-----------------------------------------------------------------------------------------
-- Runs
-----------------------------------------------------------------------------------------

section Running

variable {storage : Storage} {history : List (System × Action)} {system after : System}

/-- What holds throughout a run whose prologues come in time. -/
structure Followed (storage : Storage) (history : List (System × Action)) (system : System)
    : Prop where
  kept : Kept storage history system
  tracked : system.main.purged = false → ∃ clients, Tracked (journalOf history) clients system

/-- The main thread has nothing in hand once the database was purged. -/
theorem Statement.purged_of_inHand {main : Statement} {handle : Handle}
    (full : main.inHand = some handle)
    : main.purged = false := by
  cases main <;> first | rfl | cases full

/-- Once the database was purged it stays so. -/
theorem purged_of_stepped {action : Action} (stepped : Stepped system action after)
    (purged : system.main.purged = true)
    : after.main.purged = true := by
  cases stepped
  case aside isMain aside => exact aside.purged purged
  case mainStopThread main _ _ _ | mainDropClients main _ _ _ | mainDelete main _ _
      | mainClear main | mainNew main =>
    rw [main] at purged
    cases purged
  case mainStartThread main _ _ _ =>
    rw [Statement.purged_of_inHand main] at purged
    cases purged
  all_goals exact purged

/-- The purge comes after the end of both services. -/
theorem Statement.ending_of_purged {main : Statement} (purged : main.purged = true)
    : main.ending = true := by
  cases main <;> first | rfl | cases purged

theorem Followed.step {action : Action} (followed : Followed storage history system)
    (once : StartsOnce system action) (inTime : ProloguesInTime history system action)
    (stepped : step system action = .ok after)
    : Followed storage (history ++ [(system, action)]) after := by
  have did := stepped_of_step once stepped
  refine ⟨followed.kept.step once stepped, ?_⟩
  intro remains
  have before : system.main.purged = false := by
    refine eq_false_of_ne_true (fun purged => ?_)
    rw [purged_of_stepped did purged] at remains
    cases remains
  obtain ⟨clients, tracked⟩ := followed.tracked before
  exact tracked.step followed.kept.orderly inTime did remains

/-- At first there are no clients. -/
theorem tracked_construct (storage : Storage)
    : Tracked .start [] (TcpServer.construct storage) := by
  have none (address : Address) (service : ClientService)
      (is : (TcpServer.construct storage).server.clientService = some address)
      (found : (TcpServer.construct storage).services address = some service)
      : service.clients = [] := by
    cases is
    cases found
    rfl
  refine ⟨rfl, fun _ => Nat.zero_le 1, fun _ _ => rfl, fun _ => Nat.le_refl 0,
    fun _ _ => Nat.zero_le _, ?_, ?_, fun _ _ _ _ _ _ _ => Nat.zero_le _, nofun⟩
  · intro address service is found _ client
    rw [none address service is found]
    exact Nat.le_refl 0
  · intro address service is found _ _ _
    exact none address service is found

/-- However the threads interleave, the clients are where they have to be if all prologues come
in time; by induction on the run.
-/
theorem followed_of_run (run : Run step (TcpServer.construct storage) history system)
    (once : Guarded StartsOnce history) (inTime : GuardedAfter ProloguesInTime [] history)
    : Followed storage history system := by
  induction run with
  | refl => exact ⟨kept_construct storage, fun _ => ⟨[], tracked_construct storage⟩⟩
  | snoc run stepped ih =>
      obtain ⟨once, starts⟩ := guarded_snoc.mp once
      obtain ⟨inTime, early⟩ := guardedAfter_snoc.mp inTime
      rw [List.nil_append] at early
      exact (ih once inTime).step starts early stepped

end Running

section Agreeing

variable {storage : Storage} {history : List (System × Action)} {system : System}
  {address : Address}

/-- While clients are listened to, the database was not purged. -/
theorem Kept.purged_eq_false (kept : Kept storage history system)
    (current : system.server.clientService = some address)
    (listening : system.server.isBitSet tcpServerNotListeningClients = false)
    : system.main.purged = false := by
  refine eq_false_of_ne_true (fun purged => ?_)
  obtain ⟨live, -, balanced⟩ := kept.balanced
  rcases balanced.ending (Statement.ending_of_purged purged) with none | set
  · rw [current] at none
    cases none
  · rw [clear_eq_ite, listening] at set
    cases set

theorem AcceptThread.pending_of_outside {thread : AcceptThread}
    (outside : thread.inAddClient = false)
    : thread.pending = none := by
  cases thread <;> first | rfl | cases outside

/-- Outside `AddClient` no client is on its way to a service. -/
theorem System.adding_eq_zero (client : Address)
    (outside : ∀ thread ∈ system.acceptThreads, thread.inAddClient = false)
    : system.adding address client = 0 := by
  refine List.countP_eq_zero.mpr ?_
  intro thread member adding
  have pending := AcceptThread.pending_of_adding (of_decide_eq_true adding)
  rw [AcceptThread.pending_of_outside (outside thread member)] at pending
  cases pending

end Agreeing

/-- In every run whose prologues come in time, the service has the clients of the database in
every state reached.
-/
theorem agrees_of_prologuesInTime {storage : Storage} {history : List (System × Action)}
    {system : System} (run : Run step (TcpServer.construct storage) history system)
    (once : Guarded StartsOnce history) (inTime : GuardedAfter ProloguesInTime [] history)
    : Agrees system := by
  obtain ⟨kept, tracked⟩ := followed_of_run run once inTime
  rintro address service clients is found stored outside ⟨thread, member, rfl, passed⟩ listening
  obtain ⟨known, tracked⟩ := tracked (kept.purged_eq_false is listening)
  cases tracked.stored.symm.trans stored
  have keeps := kept.orderly.not_deleting member is
  have equal (client : Address) : service.clients.count client = clients.count client := by
    have attached := tracked.attached thread.service service is found keeps client
    have complete := tracked.complete thread.service service is found keeps
      (tracked.passed thread member is passed) client
    rw [System.adding_eq_zero client outside] at attached complete
    omega
  refine ⟨List.perm_iff_count.mpr equal, List.nodup_iff_count_le_one.mpr ?_⟩
  intro client
  rw [equal client]
  exact Nat.le_trans (Nat.le_add_right _ _) (tracked.once client)

/-- A client connects and is added. -/
def addActions : List Action :=
  .connect 0 4 :: List.replicate 6 (.accept 0)

/-- `StopClientService`, to its end. -/
def stopServiceActions : List Action :=
  .call .stopClientService :: List.replicate 6 .main

/-- `StartClientService` up to the last statement, with the prologue of its thread. -/
def startServiceActions : List Action :=
  [.call .startClientService, .main, .main, .main, .service 0, .service 0]

/-- A client that was added before is copied to the new service. -/
theorem agrees_copied
    : ∃ history system,
        Run step (TcpServer.construct zeroStorage) history system
        ∧ system.server.clientDb = some [3]
        ∧ system.serviceThreads = [{ id := 6, service := 5, prologue := .passed }]
        ∧ Agrees system := by
  have passed : executesTo step (TcpServer.construct zeroStorage)
      (startActions ++ .service 0 :: addActions ++ .service 0 :: stopServiceActions
        ++ startServiceActions ++ [.main])
      (fun history system =>
        decide (Guarded StartsOnce history
          ∧ GuardedAfter ProloguesInTime [] history
          ∧ system.server.clientDb = some [3]
          ∧ system.serviceThreads = [{ id := 6, service := 5, prologue := .passed }]))
      = true := by decide +kernel
  obtain ⟨history, system, run, test⟩ := exists_run_of_executesTo passed
  obtain ⟨once, inTime, stored, threads⟩ := of_decide_eq_true test
  exact ⟨history, system, run, stored, threads, agrees_of_prologuesInTime run once inTime⟩

/-- A client is added while `StartClientService` waits to clear the flag: the thread that
`Listen` starts copies the database once more, and the client is in the service twice.
-/
theorem not_agrees_secondPrologue
    : ∃ history system,
        Run step (TcpServer.construct zeroStorage) history system
        ∧ Guarded StartsOnce history
        ∧ Guarded AddsToService history
        ∧ ¬ Agrees system := by
  have passed : executesTo step (TcpServer.construct zeroStorage)
      (startActions ++ .service 0 :: stopServiceActions ++ startServiceActions ++ addActions
        ++ [.service 0, .service 0, .main])
      (fun history system =>
        decide (Guarded StartsOnce history
          ∧ Guarded AddsToService history
          ∧ system.server.clientService = some 3
          ∧ system.services 3 = some { clients := [5, 5], thread := .created 6 }
          ∧ system.server.clientDb = some [5]
          ∧ system.acceptThreads = [.accept]
          ∧ system.serviceThreads = [{ id := 6, service := 3, prologue := .passed }]
          ∧ system.server.isBitSet tcpServerNotListeningClients = false))
      = true := by decide +kernel
  obtain ⟨history, system, run, test⟩ := exists_run_of_executesTo passed
  obtain ⟨once, adds, is, found, stored, outside, threads, listening⟩ := of_decide_eq_true test
  refine ⟨history, system, run, once, adds, ?_⟩
  intro agrees
  have agree := agrees 3 _ [5] is found stored (by rw [outside]; decide)
    (by rw [threads]; decide) listening
  cases agree.1.length_eq

end Ethnm
