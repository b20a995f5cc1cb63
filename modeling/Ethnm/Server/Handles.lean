import Ethnm.Server.CallOrder

/-! The handles of the client services in a run whose steps come in time. A service that was
started, and not stopped, exists; and either a thread runs on it, or a `Listen` has its handle in
hand. Where `Start` has started two threads on a service, the handle tells only the last.
-/

namespace Ethnm
open Runs

namespace System

/-- The handle of a client service that exists. -/
def handle (address : Address) (system : System) : Option Handle :=
  (system.services address).map (·.thread)

/-- The threads on a client service. -/
def threadsOn (address : Address) (system : System) : List Nat :=
  (system.workers.filter (·.2 = address)).map (·.1)

end System

-----------------------------------------------------------------------------------------
-- The current client service
-----------------------------------------------------------------------------------------

/-- The thread of the current client service was stopped exactly if `StopClientService` is past
that. A client service that was just made had no thread, and an address that was never used none
either.
-/
structure Staged (history : List (System × Action)) (system : System) : Prop where
  unused
    : ∀ address, system.fresh ≤ address
      → threadStarts address history = 0 ∧ threadStops address history = 0
  current : ∀ address, system.server.clientService = some address → address < system.fresh
  unstopped
    : ∀ address, system.server.clientService = some address
      → system.main.stopping = false
      → threadStops address history = 0
  stopped
    : ∀ address, system.server.clientService = some address
      → system.main.inHand = some .null
      → 1 ≤ threadStops address history
  made
    : ∀ address, system.server.clientService = some address
      → system.main = .startServiceStartThread
      → threadStarts address history = 0

section Stages

variable {history : List (System × Action)} {system after : System} {action : Action}
  {address : Address}

theorem Statement.cases_of_inHand_zeroed {main : Statement} (zeroed : main.inHand = some .zeroed)
    : main = .constructed ∨ main = .startStartManager ∨ main.startsThread = true := by
  cases main <;> first | cases zeroed; done | simp [Statement.startsThread]

theorem Statement.not_stopping_of_zeroed {main : Statement}
    (zeroed : main.inHand = some .zeroed)
    : main.stopping = false ∧ main.stopsThread = false := by
  cases main <;> first | exact ⟨rfl, rfl⟩ | cases zeroed

/-- The main thread comes to the start of a new service's thread after it has made the service. -/
theorem new_of_startServiceStartThread (stepped : mainStep system = .ok after)
    (main : after.main = .startServiceStartThread)
    : system.main = .startServiceNew := by
  have zeroed : after.main.inHand = some .zeroed := by rw [main]; rfl
  cases stepped_of_mainStep stepped with
  | aside isMain aside =>
      rcases Statement.cases_of_inHand_zeroed (aside.inHand.symm.trans zeroed)
        with before | before | starts
      · rw [mainStep, before] at stepped
        cases stepped
      · have next := (called_of_mainStep stepped (by rw [before]; rfl)).main
        cases main.symm.trans next
      · rw [aside.startsNone] at starts
        cases starts
  | mainStopThread | mainDropClients | mainDelete => cases zeroed
  | @mainClear caller => cases caller <;> cases zeroed
  | mainNew before => exact before
  | mainStartThread before current found done => cases done.symm.trans zeroed

/-- Only what is done on the current service is recorded. -/
theorem Staged.unused_snoc (staged : Staged history system) (unused : system.fresh ≤ address)
    : threadStarts address (history ++ [(system, action)]) = 0
      ∧ threadStops address (history ++ [(system, action)]) = 0 := by
  have notCurrent : system.server.clientService ≠ some address :=
    fun is => Nat.lt_irrefl _ (Nat.lt_of_lt_of_le (staged.current address is) unused)
  have same {statements : Statement → Bool}
      : timesOn statements address (history ++ [(system, action)])
        = timesOn statements address history := by
    rw [timesOn_snoc, if_neg (fun all => notCurrent all.2.2), Nat.add_zero]
  rw [threadStarts, threadStops, same, same]
  exact staged.unused address unused

/-- The current client service stays, with what was done on it. -/
theorem Staged.frame (staged : Staged history system) (fresh : system.fresh ≤ after.fresh)
    (service : after.server.clientService = system.server.clientService)
    (starts : action = .main → system.main.startsThread = false)
    (stops : action = .main → system.main.stopsThread = false)
    (stopping : after.main.stopping = false → system.main.stopping = false)
    (inHand : after.main.inHand = some .null → system.main.inHand = some .null)
    (made : after.main = .startServiceStartThread → system.main = .startServiceStartThread)
    : Staged (history ++ [(system, action)]) after := by
  refine ⟨fun address unused => staged.unused_snoc (Nat.le_trans fresh unused), ?_, ?_, ?_, ?_⟩
  · intro address is
    exact Nat.lt_of_lt_of_le (staged.current address (service ▸ is)) fresh
  · intro address is kept
    rw [threadStops, timesOn_snoc_of_not stops]
    exact staged.unstopped address (service ▸ is) (stopping kept)
  · intro address is null
    rw [threadStops, timesOn_snoc_of_not stops]
    exact staged.stopped address (service ▸ is) (inHand null)
  · intro address is starting
    rw [threadStarts, timesOn_snoc_of_not starts]
    exact staged.made address (service ▸ is) (made starting)

theorem Staged.mainStep (staged : Staged history system) (stepped : mainStep system = .ok after)
    : Staged (history ++ [(system, .main)]) after := by
  have new := @new_of_startServiceStartThread system after stepped
  cases stepped_of_mainStep stepped with
  | aside isMain aside =>
      refine staged.frame aside.fresh aside.clientService (fun _ => aside.startsNone)
        (fun _ => aside.stopsNone) (fun kept => aside.stopping ▸ kept)
        (fun null => aside.inHand ▸ null) (fun main => ?_)
      have makes := aside.makes
      rw [new main] at makes
      cases makes
  | @mainStopThread caller address service thread main current found created =>
      refine ⟨fun address unused => staged.unused_snoc unused, staged.current, nofun, ?_, nofun⟩
      intro other is _
      have stops : system.main.stopsThread := by rw [main]; rfl
      have is : system.server.clientService = some other := is
      rw [threadStops, timesOn_snoc_self stops is]
      exact Nat.le_add_left 1 _
  | mainDropClients clients main current found null =>
      exact staged.frame (Nat.le_refl _) rfl (fun _ => by rw [main]; rfl)
        (fun _ => by rw [main]; rfl) nofun (fun _ => by rw [main]; rfl) nofun
  | mainDelete main current found =>
      exact staged.frame (Nat.le_refl _) rfl (fun _ => by rw [main]; rfl)
        (fun _ => by rw [main]; rfl) nofun nofun nofun
  | mainClear main =>
      exact ⟨fun address unused => staged.unused_snoc unused, nofun, nofun, nofun, nofun⟩
  | mainNew main =>
      have never (address : Address) (is : some system.fresh = some address)
          : threadStarts address (history ++ [(system, .main)]) = 0
            ∧ threadStops address (history ++ [(system, .main)]) = 0 :=
        staged.unused_snoc (Nat.le_of_eq (Option.some.inj is))
      refine ⟨fun address unused => staged.unused_snoc (Nat.le_of_succ_le unused), ?_, ?_, nofun,
        ?_⟩
      · rintro address is
        cases is
        exact Nat.lt_succ_self _
      · exact fun address is _ => (never address is).2
      · exact fun address is _ => (never address is).1
  | @mainStartThread address service later main current found done =>
      obtain ⟨kept, stopsNone⟩ := Statement.not_stopping_of_zeroed main
      refine ⟨fun address unused => staged.unused_snoc (Nat.le_of_succ_le unused), ?_, ?_, ?_, ?_⟩
      · exact fun address is => Nat.lt_succ_of_lt (staged.current address is)
      · intro address is _
        rw [threadStops, timesOn_snoc_of_not (fun _ => stopsNone)]
        exact staged.unstopped address is kept
      · exact fun address is null => nomatch done.symm.trans null
      · intro address is starting
        have starting : later = .startServiceStartThread := starting
        rw [starting] at done
        cases done

theorem Staged.step (staged : Staged history system) (stepped : step system action = .ok after)
    : Staged (history ++ [(system, action)]) after := by
  have other (isMain : action.isMain = false) (stepped : Stepped system action after)
      : Staged (history ++ [(system, action)]) after := by
    cases stepped with
    | aside yes => rw [yes] at isMain; cases isMain
    | mainStopThread | mainDropClients | mainDelete | mainClear | mainNew | mainStartThread =>
        cases isMain
    | connect | startThread =>
        exact staged.frame (Nat.le_succ _) rfl (fun is => by cases is) (fun is => by cases is) id id
          id
    | update | listen | stopThread | pushBack | calloc | test | copy =>
        exact staged.frame (Nat.le_refl _) rfl (fun is => by cases is) (fun is => by cases is) id id
          id
  cases action with
  | main => exact staged.mainStep stepped
  | connect index fd => exact other rfl (stepped_of_connectStep stepped)
  | accept index => exact other rfl (stepped_of_acceptStep stepped)
  | service index => exact other rfl (stepped_of_serviceStep stepped)
  | call call =>
      have kept : system.main.stopping = false := by
        rw [Ethnm.step, callStep] at stepped
        split at stepped
        case h_3 => cases stepped
        all_goals
          rename_i main
          rw [main]
          rfl
      cases callStep_eq_ok stepped
      refine staged.frame (Nat.le_refl _) rfl (fun is => by cases is) (fun is => by cases is)
        (fun _ => kept) ?_ ?_
      all_goals
        intro is
        cases call <;> cases is

theorem staged_construct (storage : Storage) : Staged [] (TcpServer.construct storage) := by
  refine ⟨fun address _ => ⟨rfl, rfl⟩, ?_, fun _ _ _ => rfl, nofun, nofun⟩
  intro address is
  cases is
  exact (by decide : 1 < 2)

end Stages

-----------------------------------------------------------------------------------------
-- Handles, and who holds them
-----------------------------------------------------------------------------------------

section Projections

variable {system : System} {address other : Address} {service : ClientService} {index : Nat}
  {present next : AcceptThread} {handle : Handle}

theorem handle_store (address : Address) (service : ClientService) (other : Address)
    : (system.store address service).handle other
      = if other = address then some service.thread else system.handle other := by
  simp only [System.handle, System.store]
  split <;> rfl

theorem handle_store_self (address : Address) (service : ClientService)
    : (system.store address service).handle address = some service.thread :=
  (handle_store address service address).trans (if_pos rfl)

theorem handle_store_of_ne (service : ClientService) (different : other ≠ address)
    : (system.store address service).handle other = system.handle other :=
  (handle_store address service other).trans (if_neg different)

theorem handle_of_services (found : system.services address = some service)
    : system.handle address = some service.thread := by
  rw [System.handle, found]
  rfl

/-- A service is changed, but not its handle. -/
theorem handle_store_same {changed : ClientService}
    (found : system.services address = some service) (same : changed.thread = service.thread)
    : (system.store address changed).handle other = system.handle other := by
  rw [handle_store]
  split
  · rename_i isIt
    rw [isIt, handle_of_services found, same]
  · rfl

theorem handle_deleted_of_ne (different : other ≠ address)
    : (system.deleted address).handle other = system.handle other := by
  simp only [System.handle, System.deleted, if_neg different]

theorem threadsOn_started_self (address : Address) (service : ClientService)
    : (system.started address service).threadsOn address
      = system.threadsOn address ++ [system.fresh] := by
  simp [System.threadsOn, workers_started]

theorem threadsOn_started_of_ne (service : ClientService) (different : other ≠ address)
    : (system.started address service).threadsOn other = system.threadsOn other := by
  simp [System.threadsOn, workers_started, Ne.symm different]

theorem threadsOn_stopped (address : Address) (service : ClientService) (id : Nat)
    (other : Address)
    : (system.stopped address service id).threadsOn other
      = (system.threadsOn other).filter (· ≠ id) := by
  rw [System.threadsOn, System.threadsOn, workers_stopped, List.filter_map, List.filter_filter,
    List.filter_filter]
  exact congrArg (List.map _) (List.filter_congr (fun worker _ => Bool.and_comm ..))

theorem threadsOn_stopped_subset (address : Address) (service : ClientService) (id : Nat)
    : (system.stopped address service id).threadsOn other ⊆ system.threadsOn other := by
  rw [threadsOn_stopped]
  exact List.filter_subset_self _

/-- A thread goes on in its prologue. -/
theorem threadsOn_setService {thread : ServiceThread} (prologue : Prologue)
    (there : system.serviceThreads[index]? = some thread)
    : (system.setService index { thread with prologue }).threadsOn address
      = system.threadsOn address := by
  rw [System.threadsOn, System.threadsOn,
    @workers_setService system index thread { thread with prologue } there rfl rfl]

/-- An accept thread goes on among the others. -/
theorem holding_setAccept (address : Address) (next : AcceptThread)
    (there : system.acceptThreads[index]? = some present)
    : ∃ before behind,
        system.holding address = before ++ (present.inHandOf address).toList ++ behind
        ∧ (system.setAccept index next).holding address
          = before ++ (next.inHandOf address).toList ++ behind := by
  obtain ⟨bound, rfl⟩ := List.getElem?_eq_some_iff.mp there
  have holds (thread : AcceptThread) (threads : List AcceptThread)
      : (thread :: threads).filterMap (·.inHandOf address)
        = (thread.inHandOf address).toList ++ threads.filterMap (·.inHandOf address) := by
    rw [List.filterMap_cons]
    split
    all_goals
      rename_i held
      rw [held]
      rfl
  refine ⟨(system.acceptThreads.take index).filterMap (·.inHandOf address),
    (system.acceptThreads.drop (index + 1)).filterMap (·.inHandOf address), ?_, ?_⟩
  · rw [System.holding, List.append_assoc, ← holds, List.getElem_cons_drop,
      ← List.filterMap_append, List.take_append_drop]
  · rw [System.holding, System.setAccept, List.set_eq_take_append_cons_drop, if_pos bound,
      List.filterMap_append, holds, List.append_assoc]

/-- It goes on with the same in hand. -/
theorem holding_setAccept_same {middle : System}
    (there : system.acceptThreads[index]? = some present)
    (acceptThreads : middle.acceptThreads = system.acceptThreads)
    (same : next.inHandOf address = present.inHandOf address)
    : (middle.setAccept index next).holding address = system.holding address := by
  rw [← acceptThreads] at there
  obtain ⟨before, behind, held, holds⟩ := holding_setAccept address next there
  rw [holds, same, ← held, System.holding, acceptThreads, System.holding]

/-- Nobody else holds the handle. -/
theorem holding_setAccept_alone {middle : System}
    (there : system.acceptThreads[index]? = some present)
    (acceptThreads : middle.acceptThreads = system.acceptThreads)
    (alone : (system.holding address).length ≤ (present.inHandOf address).toList.length)
    : (middle.setAccept index next).holding address = (next.inHandOf address).toList := by
  have same : system.holding address = middle.holding address := by
    rw [System.holding, ← acceptThreads, System.holding]
  rw [← acceptThreads] at there
  obtain ⟨before, behind, held, holds⟩ := holding_setAccept address next there
  rw [same, held, List.length_append, List.length_append] at alone
  have noneBefore : before = [] := List.eq_nil_of_length_eq_zero (by omega)
  have noneBehind : behind = [] := List.eq_nil_of_length_eq_zero (by omega)
  rw [holds, noneBefore, noneBehind, List.append_nil, List.nil_append]

theorem mem_holding (there : system.acceptThreads[index]? = some present)
    (holds : present.inHandOf address = some handle)
    : handle ∈ system.holding address :=
  List.mem_filterMap.mpr ⟨present, List.mem_of_getElem? there, holds⟩

theorem inHandOf_self {thread : AcceptThread} (inHand : thread.inHand = some (address, handle))
    : thread.inHandOf address = some handle := by
  rw [AcceptThread.inHandOf, inHand]
  exact if_pos rfl

theorem inHandOf_of_ne {thread : AcceptThread} (inHand : thread.inHand = some (address, handle))
    (different : other ≠ address)
    : thread.inHandOf other = none := by
  rw [AcceptThread.inHandOf, inHand]
  exact if_neg (Ne.symm different)

end Projections

/-- A handle that a `Listen` has freed or zeroed is in that one's hands alone. A service that was
started and not stopped exists; and if it was started once, its handle tells every thread on it.
-/
structure Manned (history : List (System × Action)) (address : Address) (system : System)
    : Prop where
  known
    : system.handle address ≠ none ∨ 1 ≤ threadStarts address history
      → address < system.fresh
  existing
    : 1 ≤ threadStarts address history → threadStops address history = 0
      → system.handle address ≠ none
  null
    : system.handle address = some .null
      → .null ∈ system.holding address ∨ 1 ≤ threadStops address history
  zeroed
    : system.handle address = some .zeroed → 1 ≤ threadStarts address history
      → .zeroed ∈ system.holding address
  calloced : .zeroed ∈ system.holding address → system.handle address ≠ some .null
  alone : (system.holding address).length ≤ 1
  held
    : system.holding address ≠ []
      → 1 ≤ threadStarts address history ∧ threadStops address history = 0
  running
    : system.threadsOn address ≠ []
      → 1 ≤ threadStarts address history ∧ threadStops address history = 0
  told
    : threadStarts address history = 1
      → ∀ thread ∈ system.threadsOn address, system.handle address = some (.created thread)
  unattended
    : threadStarts address history = 1 → system.holding address ≠ []
      → system.threadsOn address = []

section Manning

variable {history later : List (System × Action)} {system after : System} {action : Action}
  {address : Address} {service : ClientService} {index : Nat}

/-- Nothing happens to a client service, but that a thread may leave it. -/
theorem Manned.frame (manned : Manned history address system)
    (handle : after.handle address = system.handle address)
    (holding : after.holding address = system.holding address)
    (threads : after.threadsOn address ⊆ system.threadsOn address)
    (fresh : system.fresh ≤ after.fresh)
    (starts : threadStarts address later = threadStarts address history)
    (stops : threadStops address later = threadStops address history)
    : Manned later address after := by
  constructor
  case known =>
    rw [handle, starts]
    exact fun there => Nat.lt_of_lt_of_le (manned.known there) fresh
  case existing =>
    rw [handle, starts, stops]
    exact manned.existing
  case null =>
    rw [handle, holding, stops]
    exact manned.null
  case zeroed =>
    rw [handle, holding, starts]
    exact manned.zeroed
  case calloced =>
    rw [handle, holding]
    exact manned.calloced
  case alone =>
    rw [holding]
    exact manned.alone
  case held =>
    rw [holding, starts, stops]
    exact manned.held
  case running =>
    rw [starts, stops]
    exact fun some => manned.running (fun none => some (List.subset_nil.mp (none ▸ threads)))
  case told =>
    rw [handle, starts]
    exact fun once thread member => manned.told once thread (threads member)
  case unattended =>
    rw [holding, starts]
    intro once held
    have none := manned.unattended once held
    exact List.subset_nil.mp (none ▸ threads)

/-- A service that was started and not stopped. -/
theorem Manned.of_started (known : address < system.fresh)
    (started : 1 ≤ threadStarts address history) (unstopped : threadStops address history = 0)
    (there : system.handle address ≠ none)
    (null : system.handle address = some .null → .null ∈ system.holding address)
    (zeroed : system.handle address = some .zeroed → .zeroed ∈ system.holding address)
    (calloced : .zeroed ∈ system.holding address → system.handle address ≠ some .null)
    (alone : (system.holding address).length ≤ 1)
    (told
      : threadStarts address history = 1
        → ∀ thread ∈ system.threadsOn address, system.handle address = some (.created thread))
    (unattended
      : threadStarts address history = 1 → system.holding address ≠ []
        → system.threadsOn address = [])
    : Manned history address system where
  known := fun _ => known
  existing := fun _ _ => there
  null := fun is => .inl (null is)
  zeroed := fun is _ => zeroed is
  calloced := calloced
  alone := alone
  held := fun _ => ⟨started, unstopped⟩
  running := fun _ => ⟨started, unstopped⟩
  told := told
  unattended := unattended

/-- A service that has no thread, and whose handle nobody holds. -/
theorem Manned.of_unattended (holding : system.holding address = [])
    (threads : system.threadsOn address = [])
    (known
      : system.handle address ≠ none ∨ 1 ≤ threadStarts address history
        → address < system.fresh)
    (existing
      : 1 ≤ threadStarts address history → threadStops address history = 0
        → system.handle address ≠ none)
    (null : system.handle address = some .null → 1 ≤ threadStops address history)
    (zeroed : system.handle address = some .zeroed → threadStarts address history = 0)
    : Manned history address system := by
  constructor
  case known => exact known
  case existing => exact existing
  case null => exact fun is => .inr (null is)
  case zeroed =>
    intro is started
    rw [zeroed is] at started
    exact absurd started (by decide)
  case calloced =>
    rw [holding]
    exact fun member => absurd member List.not_mem_nil
  case alone =>
    rw [holding]
    exact Nat.zero_le 1
  case held => exact fun some => absurd holding some
  case running => exact fun some => absurd threads some
  case told =>
    rw [threads]
    exact fun _ thread member => absurd member List.not_mem_nil
  case unattended => exact fun _ _ => threads

/-- On a service that was not started or was stopped there is nobody. -/
theorem Manned.deserted (manned : Manned history address system)
    (idle : threadStarts address history = 0 ∨ 1 ≤ threadStops address history)
    : system.holding address = [] ∧ system.threadsOn address = [] := by
  constructor
  · by_contra held
    obtain ⟨started, unstopped⟩ := manned.held held
    omega
  · by_contra running
    obtain ⟨started, unstopped⟩ := manned.running running
    omega

/-- If a thread was started once, it is the one that `StopThread` stops. -/
theorem Manned.threads_stopped (manned : Manned history address system) {thread : Nat}
    (before : system.handle address = some (.created thread))
    (once : threadStarts address history = 1)
    : (system.threadsOn address).filter (· ≠ thread) = [] := by
  rw [List.filter_eq_nil_iff]
  intro other member
  have told := manned.told once other member
  rw [before] at told
  cases told
  simp

/-- A `Listen` stops the thread of a service that can be stopped. -/
theorem Manned.taken (manned : Manned history address system) {thread : Nat}
    (stoppable : system.Stoppable history address)
    (before : system.handle address = some (.created thread))
    (handle : after.handle address = some .null)
    (holding : after.holding address = [.null])
    (threads : after.threadsOn address = (system.threadsOn address).filter (· ≠ thread))
    (fresh : system.fresh ≤ after.fresh)
    (starts : threadStarts address later = threadStarts address history)
    (stops : threadStops address later = threadStops address history)
    : Manned later address after := by
  obtain ⟨started, unstopped, -⟩ := stoppable
  have left (once : threadStarts address later = 1) : after.threadsOn address = [] :=
    threads.trans (manned.threads_stopped before (starts ▸ once))
  refine .of_started (Nat.lt_of_lt_of_le (manned.known (.inr started)) fresh) (starts ▸ started)
    (stops.trans unstopped) ?there ?null ?zeroed ?calloced ?alone ?told
    (fun once _ => left once)
  case there =>
    rw [handle]
    exact Option.some_ne_none _
  case null =>
    rw [holding]
    exact fun _ => List.mem_cons_self
  case zeroed =>
    rw [handle]
    exact fun is => by cases is
  case calloced =>
    rw [holding]
    exact fun zeroed => by cases List.mem_singleton.mp zeroed
  case alone =>
    rw [holding]
    exact Nat.le_refl 1
  case told =>
    intro once other member
    rw [left once] at member
    cases member

/-- `Listen` allocates a new handle. -/
theorem Manned.allocated (manned : Manned history address system)
    (before : system.holding address ≠ [])
    (handle : after.handle address = some .zeroed)
    (holding : after.holding address = [.zeroed])
    (threads : after.threadsOn address = system.threadsOn address)
    (fresh : system.fresh ≤ after.fresh)
    (starts : threadStarts address later = threadStarts address history)
    (stops : threadStops address later = threadStops address history)
    : Manned later address after := by
  obtain ⟨started, unstopped⟩ := manned.held before
  have left (once : threadStarts address later = 1) : after.threadsOn address = [] :=
    threads.trans (manned.unattended (starts ▸ once) before)
  refine .of_started (Nat.lt_of_lt_of_le (manned.known (.inr started)) fresh) (starts ▸ started)
    (stops.trans unstopped) ?there ?null ?zeroed ?calloced ?alone ?told
    (fun once _ => left once)
  case there =>
    rw [handle]
    exact Option.some_ne_none _
  case null =>
    rw [handle]
    exact fun is => by cases is
  case zeroed =>
    rw [holding]
    exact fun _ => List.mem_cons_self
  case calloced =>
    rw [handle]
    exact fun _ is => by cases is
  case alone =>
    rw [holding]
    exact Nat.le_refl 1
  case told =>
    intro once other member
    rw [left once] at member
    cases member

/-- A thread was started, and its handle tells it. -/
theorem Manned.of_created {thread : Nat} (known : address < system.fresh)
    (started : 1 ≤ threadStarts address history) (unstopped : threadStops address history = 0)
    (handle : system.handle address = some (.created thread))
    (alone : (system.holding address).length ≤ 1)
    (told : threadStarts address history = 1 → system.threadsOn address = [thread])
    (notHeld : threadStarts address history = 1 → system.holding address = [])
    : Manned history address system := by
  refine .of_started known started unstopped ?there ?null ?zeroed ?calloced alone ?told
    (fun once held => absurd (notHeld once) held)
  case there =>
    rw [handle]
    exact Option.some_ne_none _
  case null | zeroed =>
    rw [handle]
    exact fun is => by cases is
  case calloced =>
    rw [handle]
    exact fun _ is => by cases is
  case told =>
    intro once other member
    rw [told once, List.mem_singleton] at member
    rw [handle, member]

/-- `Listen` starts a new thread. -/
theorem Manned.restarted (manned : Manned history address system)
    (before : system.holding address ≠ [])
    (handle : after.handle address = some (.created system.fresh))
    (holding : after.holding address = [])
    (threads : after.threadsOn address = system.threadsOn address ++ [system.fresh])
    (fresh : system.fresh ≤ after.fresh)
    (starts : threadStarts address later = threadStarts address history)
    (stops : threadStops address later = threadStops address history)
    : Manned later address after := by
  obtain ⟨started, unstopped⟩ := manned.held before
  refine .of_created (Nat.lt_of_lt_of_le (manned.known (.inr started)) fresh) (starts ▸ started)
    (stops.trans unstopped) handle ?_ (fun once => ?_) (fun _ => holding)
  · rw [holding]
    exact Nat.zero_le 1
  · rw [threads, manned.unattended (starts ▸ once) before]
    rfl

/-- `Start` or `StartClientService` starts a thread. -/
theorem Manned.begun (manned : Manned history address system)
    (unstopped : threadStops address history = 0)
    (there : system.handle address ≠ none)
    (handle : after.handle address = some (.created system.fresh))
    (holding : after.holding address = system.holding address)
    (threads : after.threadsOn address = system.threadsOn address ++ [system.fresh])
    (fresh : system.fresh ≤ after.fresh)
    (starts : threadStarts address later = threadStarts address history + 1)
    (stops : threadStops address later = threadStops address history)
    : Manned later address after := by
  have first (once : threadStarts address later = 1) : ¬ 1 ≤ threadStarts address history := by
    omega
  refine .of_created (Nat.lt_of_lt_of_le (manned.known (.inl there)) fresh)
    (starts ▸ Nat.le_add_left 1 _) (stops.trans unstopped) handle ?_ (fun once => ?_)
    (fun once => ?_)
  · rw [holding]
    exact manned.alone
  · have none : system.threadsOn address = [] := by
      by_contra some
      exact first once (manned.running some).1
    rw [threads, none]
    rfl
  · rw [holding]
    by_contra held
    exact first once (manned.held held).1

/-- Nobody holds the handle of a service that is stopped, and no thread is left on it. -/
theorem Manned.ended (manned : Manned history address system)
    (holding : after.holding address = [])
    (threads : after.threadsOn address = [])
    (fresh : system.fresh ≤ after.fresh)
    (there : after.handle address ≠ none → system.handle address ≠ none)
    (starts : threadStarts address later = threadStarts address history)
    (stops : 1 ≤ threadStops address later)
    (zeroed : after.handle address ≠ some .zeroed)
    : Manned later address after := by
  refine .of_unattended holding threads (fun either => ?_) (fun _ none => by omega)
    (fun _ => stops) (fun is => absurd is zeroed)
  rw [starts] at either
  exact Nat.lt_of_lt_of_le (manned.known (either.imp_left there)) fresh

/-- A service that was just made has a handle without a thread. -/
theorem Manned.made (manned : Manned history address system)
    (unused : threadStarts address history = 0)
    (handle : after.handle address = some .zeroed)
    (holding : after.holding address = system.holding address)
    (threads : after.threadsOn address = system.threadsOn address)
    (fresh : address < after.fresh)
    (starts : threadStarts address later = threadStarts address history)
    : Manned later address after := by
  obtain ⟨notHeld, notRunning⟩ := manned.deserted (.inl unused)
  refine .of_unattended (holding.trans notHeld) (threads.trans notRunning) (fun _ => fresh)
    (fun started => by omega) (fun is => ?_) (fun _ => starts.trans unused)
  rw [handle] at is
  cases is

/-- A statement that starts a service's thread is recorded as one. -/
theorem startsThread_of_started {next : Statement}
    (stepped : mainStep system = .ok ((system.started address service).goto next))
    (zeroed : system.main.inHand = some .zeroed)
    : system.main.startsThread = true := by
  rcases Statement.cases_of_inHand_zeroed zeroed with main | main | starts
  · rw [mainStep, main] at stepped
    cases stepped
  · have more := (called_of_mainStep stepped (by rw [main]; rfl)).acceptThreads
    have more : system.acceptThreads.length = system.acceptThreads.length + 1 := more
    omega
  · exact starts

/-- The main thread keeps the order of handles. -/
theorem Manned.mainStep (manned : ∀ address, Manned history address system)
    (staged : Staged history system) (timed : WellTimed history system .main)
    (stepped : mainStep system = .ok after) (address : Address)
    : Manned (history ++ [(system, .main)]) address after := by
  have keeps {statements : Statement → Bool} (none : statements system.main = false)
      (address : Address)
      : timesOn statements address (history ++ [(system, .main)])
        = timesOn statements address history :=
    timesOn_snoc_of_not (fun _ => none)
  cases stepped_of_mainStep stepped with
  | aside isMain aside =>
      refine (manned address).frame ?_ ?_ ?_ aside.fresh (keeps aside.startsNone address)
        (keeps aside.stopsNone address)
      · rw [System.handle, System.handle, aside.services]
      · rcases aside.acceptThreads with accept | accept
        · rw [System.holding, System.holding, accept]
        · rw [System.holding, System.holding, accept, List.filterMap_append]
          exact List.append_nil _
      · rw [System.threadsOn, System.threadsOn, System.workers, System.workers,
          aside.serviceThreads]
        exact List.Subset.refl _
  | @mainStopThread caller current service thread main is found created =>
      have timed := timed
      simp only [WellTimed, Statement.WellTimed, main] at timed
      obtain ⟨stoppable, once⟩ := timed current is
      have starts : system.main.startsThread = false := by rw [main]; rfl
      have stops : system.main.stopsThread = true := by rw [main]; rfl
      have before : system.handle current = some (.created thread) := by
        rw [handle_of_services found, created]
      by_cases same : address = current
      · subst address
        refine (manned current).ended stoppable.2.2 ?_ (Nat.le_refl _) ?_ (keeps starts current) ?_
          ?_
        · exact (threadsOn_stopped current service thread current).trans
            ((manned current).threads_stopped before once)
        · rw [before]
          exact fun _ is => by cases is
        · rw [threadStops, timesOn_snoc_self stops is]
          exact Nat.le_add_left 1 _
        · intro is
          cases (handle_store_self current { service with thread := .null }).symm.trans is
      · exact (manned address).frame (handle_store_of_ne _ same) rfl
          (threadsOn_stopped_subset current service thread) (Nat.le_refl _) (keeps starts address)
          (timesOn_snoc_of_ne is same)
  | mainDropClients clients main current found null =>
      exact (manned address).frame (handle_store_same found rfl) rfl (List.Subset.refl _)
        (Nat.le_refl _) (keeps (by rw [main]; rfl) address) (keeps (by rw [main]; rfl) address)
  | @mainDelete caller current service main is found =>
      have starts : system.main.startsThread = false := by rw [main]; rfl
      have stops : system.main.stopsThread = false := by rw [main]; rfl
      by_cases same : address = current
      · subst address
        have stopped := staged.stopped current is (by rw [main]; rfl)
        have gone : ((system.deleted current).goto (.stopServiceSetBit caller)).handle current
            = none := by
          simp only [System.handle, System.goto, System.deleted, if_true]
          rfl
        obtain ⟨notHeld, notRunning⟩ := (manned current).deserted (.inr stopped)
        refine (manned current).ended notHeld notRunning (Nat.le_refl _)
          (fun there => absurd gone there) (keeps starts current) ?_ ?_
        · rw [threadStops, keeps stops current]
          exact stopped
        · rw [gone]
          exact fun is => by cases is
      · exact (manned address).frame (handle_deleted_of_ne same) rfl (List.Subset.refl _)
          (Nat.le_refl _) (keeps starts address) (keeps stops address)
  | mainClear main =>
      exact (manned address).frame rfl rfl (List.Subset.refl _) (Nat.le_refl _)
        (keeps (by rw [main]; rfl) address) (keeps (by rw [main]; rfl) address)
  | mainNew main =>
      have starts : system.main.startsThread = false := by rw [main]; rfl
      have stops : system.main.stopsThread = false := by rw [main]; rfl
      by_cases same : address = system.fresh
      · subst address
        exact (manned _).made (staged.unused _ (Nat.le_refl _)).1
          (handle_store_self _ _) rfl rfl (Nat.lt_succ_self _) (keeps starts _)
      · exact (manned address).frame (handle_store_of_ne _ same) rfl
          (List.Subset.refl _) (Nat.le_succ _) (keeps starts address) (keeps stops address)
  | @mainStartThread current service next main is found done =>
      have starts := startsThread_of_started stepped main
      obtain ⟨kept, stops⟩ := Statement.not_stopping_of_zeroed main
      by_cases same : address = current
      · subst address
        refine (manned current).begun (staged.unstopped current is kept) ?_
          (handle_store_self current _) rfl
          (threadsOn_started_self current service)
          (Nat.le_succ _)
          (timesOn_snoc_self starts is) (keeps stops current)
        rw [handle_of_services found]
        exact fun is => by cases is
      · exact (manned address).frame (handle_store_of_ne _ same) rfl
          (fun _ member => threadsOn_started_of_ne service same ▸ member) (Nat.le_succ _)
          (timesOn_snoc_of_ne is same) (keeps stops address)

/-- The accept threads keep the order of handles. -/
theorem Manned.acceptStep (manned : ∀ address, Manned history address system)
    (timed : WellTimed history system (.accept index))
    (stepped : acceptStep index system = .ok after) (address : Address)
    : Manned (history ++ [(system, .accept index)]) address after := by
  have keeps {statements : Statement → Bool} (address : Address)
      : timesOn statements address (history ++ [(system, .accept index)])
        = timesOn statements address history :=
    timesOn_snoc_of_not (fun is => by cases is)
  cases stepped_of_acceptStep stepped with
  | aside isMain => cases isMain
  | update updating stored =>
      exact (manned address).frame rfl (holding_setAccept_same updating rfl rfl)
        (List.Subset.refl _) (Nat.le_refl _) (keeps address) (keeps address)
  | listen listening current =>
      exact (manned address).frame rfl (holding_setAccept_same listening rfl rfl)
        (List.Subset.refl _) (Nat.le_refl _) (keeps address) (keeps address)
  | @stopThread _ client current service thread stopping found created =>
      have stoppable : system.Stoppable history current := timed _ stopping
      by_cases same : address = current
      · subst address
        refine (manned current).taken stoppable (by rw [handle_of_services found, created])
          (handle_store_self current _)
          ((holding_setAccept_alone stopping rfl ?_).trans ?_)
          (threadsOn_stopped current service thread current) (Nat.le_refl _) (keeps current)
          (keeps current)
        · rw [stoppable.2.2]
          exact Nat.zero_le _
        · rw [inHandOf_self rfl]
          rfl
      · exact (manned address).frame (handle_store_of_ne _ same)
          (holding_setAccept_same stopping rfl (inHandOf_of_ne rfl same))
          (threadsOn_stopped_subset current service thread) (Nat.le_refl _) (keeps address)
          (keeps address)
  | pushBack pushing found =>
      exact (manned address).frame (handle_store_same found rfl)
        (holding_setAccept_same pushing rfl rfl) (List.Subset.refl _) (Nat.le_refl _)
        (keeps address) (keeps address)
  | @calloc _ current service allocating found =>
      by_cases same : address = current
      · subst address
        have held := mem_holding allocating (inHandOf_self rfl)
        refine (manned current).allocated (List.ne_nil_of_mem held)
          (handle_store_self current _)
          ((holding_setAccept_alone allocating rfl ?_).trans ?_) rfl (Nat.le_refl _)
          (keeps current) (keeps current)
        · rw [inHandOf_self rfl]
          exact (manned current).alone
        · rw [inHandOf_self rfl]
          rfl
      · exact (manned address).frame (handle_store_of_ne _ same)
          (holding_setAccept_same allocating rfl
            ((inHandOf_of_ne rfl same).trans (inHandOf_of_ne rfl same).symm))
          (List.Subset.refl _) (Nat.le_refl _) (keeps address) (keeps address)
  | @startThread _ current service starting found =>
      by_cases same : address = current
      · subst address
        have held := mem_holding starting (inHandOf_self rfl)
        refine (manned current).restarted (List.ne_nil_of_mem held)
          (handle_store_self current _)
          (holding_setAccept_alone starting rfl ?_)
          (threadsOn_started_self current service) (Nat.le_succ _) (keeps current) (keeps current)
        rw [inHandOf_self rfl]
        exact (manned current).alone
      · exact (manned address).frame (handle_store_of_ne _ same)
          (holding_setAccept_same starting rfl (inHandOf_of_ne rfl same).symm)
          (fun _ member => threadsOn_started_of_ne service same ▸ member) (Nat.le_succ _)
          (keeps address) (keeps address)

/-- A call, a new client and the prologue of a client service's thread change no handle. -/
theorem Manned.step (manned : ∀ address, Manned history address system)
    (staged : Staged history system) (timed : WellTimed history system action)
    (stepped : step system action = .ok after) (address : Address)
    : Manned (history ++ [(system, action)]) address after := by
  have keeps (notMain : action ≠ .main) {statements : Statement → Bool} (address : Address)
      : timesOn statements address (history ++ [(system, action)])
        = timesOn statements address history :=
    timesOn_snoc_of_not (fun is => absurd is notMain)
  cases action with
  | main => exact Manned.mainStep manned staged timed stepped address
  | accept index => exact Manned.acceptStep manned timed stepped address
  | call call =>
      cases callStep_eq_ok stepped
      exact (manned address).frame rfl rfl (List.Subset.refl _) (Nat.le_refl _)
        (keeps nofun address) (keeps nofun address)
  | connect index fd =>
      cases stepped_of_connectStep stepped with
      | aside isMain => cases isMain
      | connect accepting =>
          exact (manned address).frame rfl (holding_setAccept_same accepting rfl rfl)
            (List.Subset.refl _) (Nat.le_succ _) (keeps nofun address) (keeps nofun address)
  | service index =>
      cases stepped_of_serviceStep stepped with
      | aside isMain => cases isMain
      | test testing prologue =>
          exact (manned address).frame rfl rfl
            (fun _ member => threadsOn_setService _ testing ▸ member) (Nat.le_refl _)
            (keeps nofun address) (keeps nofun address)
      | @copy _ thread service clients copying prologue found stored =>
          have same : ((system.store thread.service
              { service with clients := service.clients ++ clients }).setService index
                { thread with prologue := .passed }).threadsOn address
              = system.threadsOn address :=
            threadsOn_setService .passed copying
          exact (manned address).frame (handle_store_same found rfl) rfl
            (fun _ member => same ▸ member) (Nat.le_refl _) (keeps nofun address)
            (keeps nofun address)

theorem manned_construct (storage : Storage) (address : Address)
    : Manned [] address (TcpServer.construct storage) := by
  have handle : (TcpServer.construct storage).handle address
      = if address = 1 then some .zeroed else none := by
    refine (handle_store 1 _ address).trans ?_
    split <;> rfl
  refine .of_unattended rfl rfl ?_ (fun started => by cases started) (fun is => ?_) (fun _ => rfl)
  · rintro (there | started)
    · rw [handle] at there
      split at there
      · rename_i isIt
        rw [isIt]
        exact (by decide : 1 < 2)
      · exact absurd rfl there
    · cases started
  · rw [handle] at is
    split at is <;> cases is

end Manning

end Ethnm
