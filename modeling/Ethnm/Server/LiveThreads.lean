import Ethnm.Server.Ledger
import Ethnm.Server.Flags

/-! The threads that are alive between calls. `ConnectionManager::Stop` does not end the accept
thread, so the flags tell the numbers of threads exactly as long as it was never called.
-/

namespace Ethnm
open Custody Function Runs

-----------------------------------------------------------------------------------------
-- The client services that exist
-----------------------------------------------------------------------------------------

/-- The client services that exist, each once. -/
structure Existing (system : System) (live : List Address) : Prop where
  distinct : live.Nodup
  all : ∀ address, address ∈ live ↔ system.status address ≠ none

section Existence

variable {system after : System} {live : List Address} {address : Address}
  {service : ClientService}

theorem Existing.same (existing : Existing system live) (same : after.status = system.status)
    : Existing after live :=
  ⟨existing.distinct, by rw [same]; exact existing.all⟩

/-- An existing service is changed. -/
theorem Existing.store (existing : Existing system live)
    (found : system.services address = some service) {changed : ClientService}
    (status : after.status = (system.store address changed).status)
    : Existing after live := by
  refine ⟨existing.distinct, ?_⟩
  intro other
  rw [existing.all, status, status_store]
  by_cases same : other = address
  · subst other
    rw [update_self, status_of_services found]
    exact iff_of_true nofun nofun
  · rw [update_of_ne same]

/-- A new service exists besides the others. -/
theorem Existing.make (existing : Existing system live)
    (absent : system.status address = none) {now : Status Nat Handle}
    (status : after.status = update system.status address (some now))
    : Existing after (address :: live) := by
  refine ⟨List.nodup_cons.mpr ⟨?_, existing.distinct⟩, ?_⟩
  · rw [existing.all]
    exact not_not_intro absent
  · intro other
    rw [List.mem_cons, existing.all, status]
    by_cases same : other = address
    · subst other
      rw [update_self]
      exact iff_of_true (.inl rfl) nofun
    · rw [update_of_ne same]
      exact or_iff_right same

/-- A service does not exist any more. -/
theorem Existing.destroy (existing : Existing system live)
    (status : after.status = update system.status address none)
    : Existing after (live.erase address) := by
  refine ⟨existing.distinct.erase address, ?_⟩
  intro other
  rw [existing.distinct.mem_erase_iff, existing.all, status]
  by_cases same : other = address
  · subst other
    rw [update_self]
    exact iff_of_false (fun both => both.1 rfl) (fun now => now rfl)
  · rw [update_of_ne same]
    exact and_iff_right same

/-- The client services that an action makes, less those that it deletes. -/
def Action.makes (system : System) : Action → Int
  | .main => system.main.makes
  | _ => 0

theorem Existing.step {action : Action} (existing : Existing system live)
    (fresh : Fresh system) (stepped : Stepped system action after)
    : ∃ remaining : List Address,
        Existing after remaining
        ∧ (remaining.length : Int) = live.length + action.makes system := by
  have unchanged (kept : Existing after live) (none : action.makes system = 0)
      : ∃ remaining : List Address,
          Existing after remaining
          ∧ (remaining.length : Int) = live.length + action.makes system :=
    ⟨live, kept, by rw [none, Int.add_zero]⟩
  cases stepped with
  | aside isMain aside =>
      refine unchanged (existing.same ?_) ?_
      · funext address
        rw [System.status, aside.services]
        rfl
      · cases action with
        | main => exact aside.makes
        | call | connect | accept | service => rfl
  | mainStopThread main current found created =>
      exact unchanged (existing.store found rfl) (by rw [Action.makes, main]; rfl)
  | mainDropClients clients main current found null =>
      exact unchanged (existing.store found rfl) (by rw [Action.makes, main]; rfl)
  | @mainDelete caller address service main current found =>
      refine ⟨live.erase address, existing.destroy status_deleted, ?_⟩
      have member : address ∈ live := by
        rw [existing.all, status_of_services found]
        exact Option.some_ne_none _
      have positive := List.length_pos_of_mem member
      have made : Action.makes system .main = -1 := by rw [Action.makes, main]; rfl
      rw [List.length_erase_of_mem member, made]
      omega
  | mainClear main => exact unchanged (existing.same rfl) (by rw [Action.makes, main]; rfl)
  | mainNew main =>
      have absent : system.status system.fresh = none := by
        rw [System.status, fresh.services system.fresh (Nat.le_refl _)]
        rfl
      have made : Action.makes system .main = 1 := by rw [Action.makes, main]; rfl
      refine ⟨system.fresh :: live, existing.make absent status_store, ?_⟩
      rw [List.length_cons, made]
      omega
  | mainStartThread main current found done =>
      exact unchanged (existing.store found rfl) (Statement.makes_of_zeroed main)
  | connect accepting => exact unchanged (existing.same rfl) rfl
  | update updating stored => exact unchanged (existing.same rfl) rfl
  | listen listening current => exact unchanged (existing.same rfl) rfl
  | stopThread stopping found created => exact unchanged (existing.store found rfl) rfl
  | pushBack pushing found => exact unchanged (existing.store found rfl) rfl
  | calloc allocating found => exact unchanged (existing.store found rfl) rfl
  | startThread starting found => exact unchanged (existing.store found rfl) rfl
  | test testing prologue => exact unchanged (existing.same rfl) rfl
  | copy copying prologue found stored => exact unchanged (existing.store found rfl) rfl

end Existence

-----------------------------------------------------------------------------------------
-- Runs
-----------------------------------------------------------------------------------------

/-- The calls of `ConnectionManager::Stop` in a run. -/
def managerStops (history : List (System × Action)) : Nat :=
  history.countP (fun visit => visit.2 = .main && visit.1.main.stopsManager)

section Counting

variable {storage : Storage} {system after : System} {stops : Nat} {services : Int}

/-- Only the main thread tips the balance. -/
theorem Balanced.same (balanced : Balanced storage stops services system)
    (main : after.main = system.main) (state : after.server.state = system.server.state)
    (threads : after.acceptThreads.length = system.acceptThreads.length)
    (current : after.server.clientService = system.server.clientService)
    : Balanced storage stops services after := by
  obtain ⟨accepting, acceptClear, listening, serviceClear, started, ending⟩ := balanced
  refine ⟨?_, ?_, ?_, ?_, ?_, ?_⟩
  · rw [threads, main, state]
    exact accepting
  · rw [main, state]
    exact acceptClear
  · rw [main, state]
    exact listening
  · rw [main, state]
    exact serviceClear
  · rw [threads, main]
    exact started
  · rw [main, current, state]
    exact ending

/-- A call only begins. -/
theorem Balanced.call {call : ServerCall} (balanced : Balanced storage stops services system)
    (once : StartsOnce system (.call call)) (stepped : callStep call system = .ok after)
    : Balanced storage stops services after := by
  have entered := callStep_eq_ok stepped
  subst after
  obtain ⟨accepting, acceptClear, listening, serviceClear, started, ending⟩ := balanced
  cases call
  all_goals
    have main := once
    simp only [StartsOnce] at main
    rw [main] at accepting listening started
    refine ⟨accepting, ?_, listening, ?_, started, ?_⟩
    all_goals
      intros
      contradiction

/-- Every step keeps the balance; a call of `ConnectionManager::Stop` counts. -/
theorem Balanced.step {action : Action} (balanced : Balanced storage stops services system)
    (once : StartsOnce system action) (stepped : step system action = .ok after)
    : Balanced storage
        (stops + if action = .main && system.main.stopsManager then 1 else 0)
        (services + action.makes system) after := by
  cases action with
  | main =>
      have next := balanced.mainStep stepped
      simpa [Action.makes] using next
  | call call =>
      simpa [Action.makes] using balanced.call once stepped
  | connect index fd =>
      have kept : Balanced storage stops services after := by
        cases stepped_of_connectStep stepped with
        | aside isMain => cases isMain
        | connect accepting => exact balanced.same rfl rfl List.length_set rfl
      simpa [Action.makes] using kept
  | accept index =>
      have kept : Balanced storage stops services after := by
        cases stepped_of_acceptStep stepped
        case aside isMain aside => cases isMain
        all_goals exact balanced.same rfl rfl List.length_set rfl
      simpa [Action.makes] using kept
  | service index =>
      have kept : Balanced storage stops services after := by
        cases stepped_of_serviceStep stepped
        case aside isMain aside => cases isMain
        all_goals exact balanced.same rfl rfl rfl rfl
      simpa [Action.makes] using kept

/-- The flags are balanced at first: the only client service waits for `Start`. -/
theorem balanced_construct (storage : Storage)
    : Balanced storage 0 1 (TcpServer.construct storage) := by
  have accepts
      : clear tcpServerNotAcceptingNewConnections (TcpServer.construct storage).server.state
        = clear tcpServerNotAcceptingNewConnections storage.state :=
    clear_or_of_disjoint (by decide)
  have listens
      : clear tcpServerNotListeningClients (TcpServer.construct storage).server.state
        = clear tcpServerNotListeningClients storage.state :=
    clear_or_of_disjoint (by decide)
  refine ⟨?_, nofun, ?_, nofun, Int.le_refl 1, nofun⟩
  · rw [accepts]
    change (0 : Int) = _ + _ + 0 + -1
    omega
  · rw [listens]
    change (1 : Int) = _ + _ + 0
    omega

/-- What holds throughout a run. -/
structure Kept (storage : Storage) (history : List (System × Action)) (system : System) : Prop
    where
  orderly : Orderly system
  balanced
    : ∃ live, Existing system live
        ∧ Balanced storage (managerStops history) live.length system

theorem Kept.step {history : List (System × Action)} {action : Action}
    (kept : Kept storage history system) (once : StartsOnce system action)
    (stepped : step system action = .ok after)
    : Kept storage (history ++ [(system, action)]) after := by
  have did := stepped_of_step once stepped
  obtain ⟨orderly, live, existing, balanced⟩ := kept
  obtain ⟨remaining, exist, made⟩ := existing.step orderly.fresh did
  refine ⟨orderly.step did, remaining, exist, ?_⟩
  have next := balanced.step once stepped
  rw [managerStops, List.countP_append, List.countP_singleton, made]
  exact next

theorem kept_construct (storage : Storage)
    : Kept storage [] (TcpServer.construct storage) := by
  refine ⟨orderly_construct storage, [1], ⟨List.nodup_singleton 1, ?_⟩,
    balanced_construct storage⟩
  intro address
  rw [List.mem_singleton, status_construct]
  by_cases same : address = 1
  · subst address
    exact iff_of_true rfl nofun
  · rw [update_of_ne same]
    exact iff_of_false same (fun now => now rfl)

/-- However the threads interleave, flags, threads and client services are in balance; by
induction on the run.
-/
theorem kept_of_run {history : List (System × Action)}
    (run : Run step (TcpServer.construct storage) history system)
    (once : Guarded StartsOnce history)
    : Kept storage history system :=
  run.induction once (kept_construct storage)
    (fun _ _ _ _ kept allowed stepped => kept.step allowed stepped)

end Counting

-----------------------------------------------------------------------------------------
-- Threads between calls
-----------------------------------------------------------------------------------------

/-- No call is in progress, in any thread. -/
structure Quiescent (system : System) : Prop where
  main : system.main = .idle
  accept : ∀ thread ∈ system.acceptThreads, thread.inAddClient = false

/-- There is an accept thread unless the flag says that there is none, and a client
service's thread unless the flag says that there is none.
-/
def ThreadsMatch (system : System) : Prop :=
  system.acceptThreads.length
      = (if system.server.isBitSet tcpServerNotAcceptingNewConnections then 0 else 1)
    ∧ system.serviceThreads.length
      = (if system.server.isBitSet tcpServerNotListeningClients then 0 else 1)

/-- Between calls the threads match the flags, and no thread is alive that could add a client
when the client database is purged.
-/
def LiveThreadsMatch (system : System) : Prop :=
  (Quiescent system → ThreadsMatch system)
    ∧ (system.main = .stopPurge → system.acceptThreads = [])

/-- The bits of both flags were clear where `state` is stored, and no connection manager was
stopped.
-/
structure Undisturbed (storage : Storage) (history : List (System × Action)) : Prop where
  accepting : storage.state &&& tcpServerNotAcceptingNewConnections = 0#32
  listening : storage.state &&& tcpServerNotListeningClients = 0#32
  stops : managerStops history = 0

section Matching

variable {storage : Storage} {history : List (System × Action)} {system : System}

/-- The number that a flag stands for. -/
theorem clear_eq_ite (server : TcpServer) (bit : BitVec 32)
    : clear bit server.state = ((if server.isBitSet bit then 0 else 1 : Nat) : Int) := by
  by_cases set : server.isBitSet bit = true
  · rw [TcpServer.clear_of_isBitSet set, if_pos set]
    rfl
  · rw [TcpServer.clear_of_not_isBitSet set, if_neg set]
    rfl

theorem clear_eq_one_iff {bit word : BitVec 32} : clear bit word = 1 ↔ word &&& bit = 0#32 := by
  unfold clear
  split
  · exact iff_of_true rfl ‹_›
  · exact iff_of_false nofun ‹_›

theorem clear_le_one (bit word : BitVec 32) : clear bit word ≤ 1 := by
  unfold clear
  split <;> decide

/-- Nobody has a client service in hand between calls. -/
theorem Quiescent.hands (quiescent : Quiescent system) (party : Party)
    : system.hands party = none := by
  cases party with
  | main => exact hands_main_eq_none (by rw [quiescent.main]; rfl)
  | accept index =>
      cases present : system.acceptThreads[index]? with
      | none =>
          rw [System.hands, present]
          rfl
      | some thread =>
          have outside := quiescent.accept thread (List.mem_of_getElem? present)
          rw [hands_accept present]
          cases thread <;> first | rfl | cases outside

/-- Between calls the threads are those that the flags stand for, those of the stopped
connection managers, and one for each bit that was set before the constructor ran.
-/
theorem Kept.count (kept : Kept storage history system) (quiescent : Quiescent system)
    : (system.acceptThreads.length : Int)
        = clear tcpServerNotAcceptingNewConnections system.server.state
          + (1 - clear tcpServerNotAcceptingNewConnections storage.state) + managerStops history
      ∧ (system.serviceThreads.length : Int)
        = clear tcpServerNotListeningClients system.server.state
          + (1 - clear tcpServerNotListeningClients storage.state) := by
  obtain ⟨orderly, live, existing, balanced⟩ := kept
  have workers : system.workers.length = live.length :=
    orderly.accounted.length_workers quiescent.hands existing.distinct existing.all
  have accepting := balanced.accepting
  have listening := balanced.listening
  rw [quiescent.main] at accepting listening
  rw [System.workers, List.length_map] at workers
  rw [accepting, workers, listening]
  exact ⟨Int.add_zero _, Int.add_zero _⟩

theorem Kept.threadsMatch_iff (kept : Kept storage history system)
    (quiescent : Quiescent system)
    : ThreadsMatch system ↔ Undisturbed storage history := by
  obtain ⟨accepting, listening⟩ := kept.count quiescent
  have staleAccepting := clear_le_one tcpServerNotAcceptingNewConnections storage.state
  rw [clear_eq_ite] at accepting listening
  constructor
  · rintro ⟨accept, service⟩
    rw [← accept] at accepting
    rw [← service] at listening
    exact ⟨clear_eq_one_iff.mp (by omega), clear_eq_one_iff.mp (by omega), by omega⟩
  · rintro ⟨acceptClear, serviceClear, stops⟩
    rw [clear_eq_one_iff.mpr acceptClear, stops] at accepting
    rw [clear_eq_one_iff.mpr serviceClear] at listening
    exact ⟨by omega, by omega⟩

/-- `Purge` always runs beside an accept thread. -/
theorem Kept.acceptThreads_ne_nil (kept : Kept storage history system)
    (purging : system.main = .stopPurge)
    : system.acceptThreads ≠ [] := by
  obtain ⟨-, live, -, balanced⟩ := kept
  have started := balanced.started
  rw [purging] at started
  intro none
  rw [none] at started
  exact absurd started (by decide)

end Matching

/-- In every state that a run reaches, threads and flags match between calls exactly when the
bits were clear in memory and no connection manager was stopped; the client database is never
purged alone.
-/
theorem liveThreadsMatch_iff {storage : Storage} {history : List (System × Action)}
    {system : System} (run : Run step (TcpServer.construct storage) history system)
    (once : Guarded StartsOnce history)
    : LiveThreadsMatch system
      ↔ (Quiescent system → Undisturbed storage history) ∧ system.main ≠ .stopPurge := by
  have kept := kept_of_run run once
  refine and_congr (forall_congr' (fun quiescent => kept.threadsMatch_iff quiescent)) ?_
  exact ⟨fun alone purging => kept.acceptThreads_ne_nil purging (alone purging),
    fun never purging => absurd purging never⟩

/-- Storage that held zeros. -/
def zeroStorage : Storage where
  state := 0
  masterSockUdp := fun _ => 0

/-- `Start`, to its end. -/
def startActions : List Action :=
  [.call .start, .main, .main, .main, .main]

/-- `StopConnectionAcceptance`, to its end. -/
def stopAcceptActions : List Action :=
  [.call .stopConnectionAcceptance, .main, .main, .main, .main]

/-- After `Start` there is one thread of each kind. -/
theorem liveThreadsMatch_start
    : ∃ history system,
        Run step (TcpServer.construct zeroStorage) history system
        ∧ system.main = .idle
        ∧ LiveThreadsMatch system := by
  have passed : executesTo step (TcpServer.construct zeroStorage) startActions
      (fun history system =>
        decide (Guarded StartsOnce history ∧ system.main = .idle ∧ managerStops history = 0))
      = true := by decide
  obtain ⟨history, system, run, test⟩ := exists_run_of_executesTo passed
  obtain ⟨once, main, stops⟩ := of_decide_eq_true test
  refine ⟨history, system, run, main, (liveThreadsMatch_iff run once).mpr ⟨?_, ?_⟩⟩
  · exact fun _ => ⟨by decide, by decide, stops⟩
  · rw [main]
    exact nofun

/-- `StopConnectionAcceptance` after `Start` leaves the accept thread alive. -/
theorem not_liveThreadsMatch_stopAccept
    : ∃ history system,
        Run step (TcpServer.construct zeroStorage) history system
        ∧ Guarded StartsOnce history
        ∧ ¬ LiveThreadsMatch system := by
  have passed : executesTo step (TcpServer.construct zeroStorage)
      (startActions ++ stopAcceptActions)
      (fun history system =>
        decide (Guarded StartsOnce history
          ∧ system.main = .idle
          ∧ system.acceptThreads = [.accept]
          ∧ system.server.isBitSet tcpServerNotAcceptingNewConnections = true))
      = true := by decide
  obtain ⟨history, system, run, test⟩ := exists_run_of_executesTo passed
  obtain ⟨once, main, threads, set⟩ := of_decide_eq_true test
  refine ⟨history, system, run, once, ?_⟩
  rintro ⟨between, -⟩
  have quiescent : Quiescent system := ⟨main, by rw [threads]; decide⟩
  have accept := (between quiescent).1
  rw [threads, if_pos set] at accept
  cases accept

end Ethnm
