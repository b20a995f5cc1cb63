import Ethnm.Server.Agreement

/-! Who touches the clients of a client service. `Listen` stops the service's thread before it
adds a client, because that thread reads the list in its loop; `Stop` stops it before it drops
the clients. No other party is at the service then, and its thread finds the list to itself.
-/

namespace Ethnm
open Custody Runs

/-- The party whose step an action is. A client service's thread is none. -/
def Action.party : Action → Option Party
  | .call _ | .main => some .main
  | .connect index _ | .accept index => some (.accept index)
  | .service _ => none

/-- A step changes the clients of a service, or deletes the service. -/
def Touches (system after : System) (address : Address) : Prop :=
  ∃ before, system.services address = some before
    ∧ ∀ now, after.services address = some now → now.clients ≠ before.clients

/-- A party has the service to itself: no thread runs on it, and no other party has set its
handle aside.
-/
structure AlonePartyAt (system : System) (address : Address) (party : Party) : Prop where
  threads : ∀ thread ∈ system.serviceThreads, thread.service ≠ address
  parties
    : ∀ other handle, system.hands other = some (address, handle) → other = party

/-- A thread has its service to itself: no other thread runs on it, and no party has set its
handle aside.
-/
structure AloneThreadAt (system : System) (address : Address) (index : Nat) : Prop where
  threads
    : ∀ other thread, system.serviceThreads[other]? = some thread → thread.service = address →
        other = index
  parties : ∀ party handle, system.hands party ≠ some (address, handle)

section Alone

variable {system after : System} {address : Address} {index : Nat} {action : Action}

/-- Who has a service in hand has it alone. -/
theorem Orderly.alone_of_hands (orderly : Orderly system) {party : Party} {handle : Handle}
    (inHand : system.hands party = some (address, handle))
    : AlonePartyAt system address party := by
  refine ⟨fun thread member same => ?_, fun other condition held => ?_⟩
  · have running := orderly.running member
    rw [same] at running
    have held := orderly.accounted.held.inHand party address handle inHand
    exact nomatch held.symm.trans running
  · exact orderly.accounted.held.exclusive other party address condition handle held inHand

/-- No two threads are the same. -/
theorem Orderly.distinct_ids (orderly : Orderly system)
    : (system.serviceThreads.map (·.id)).Nodup := by
  have distinct := orderly.accounted.employed.distinct
  rwa [System.ledger, System.workers, List.map_map] at distinct

/-- A thread that is alive has its service alone. -/
theorem Orderly.alone_of_thread (orderly : Orderly system) {thread : ServiceThread}
    (alive : system.serviceThreads[index]? = some thread)
    : AloneThreadAt system thread.service index := by
  have running := orderly.running (List.mem_of_getElem? alive)
  refine ⟨fun other second found same => ?_, fun party handle inHand => ?_⟩
  · have again := orderly.running (List.mem_of_getElem? found)
    rw [same, running] at again
    have id : thread.id = second.id := Status.running.inj (Option.some.inj again)
    have ids (position : Nat) {present : ServiceThread}
        (there : system.serviceThreads[position]? = some present)
        : (system.serviceThreads.map (·.id))[position]? = some present.id := by
      rw [List.getElem?_map, there, Option.map_some]
    have second := ids other found
    obtain ⟨bound, -⟩ := List.getElem?_eq_some_iff.mp second
    exact (List.getElem?_inj bound orderly.distinct_ids).mp
      (second.trans (id ▸ (ids index alive).symm))
  · have held := orderly.accounted.held.inHand party thread.service handle inHand
    cases held.symm.trans running

/-- A service is stored as it was, up to its handle. -/
theorem not_touches_store {service changed : ClientService}
    (found : system.services address = some service) {other : Address} {stored : System}
    (services : stored.services = (system.store address changed).services)
    (same : changed.clients = service.clients)
    : ¬ Touches system stored other := by
  rintro ⟨before, present, differs⟩
  by_cases here : other = address
  · subst here
    obtain rfl : service = before := Option.some.inj (found.symm.trans present)
    refine differs changed ?_ same
    rw [services]
    exact if_pos rfl
  · refine differs before ?_ rfl
    rw [services]
    exact (if_neg here).trans present

/-- A step that leaves the services alone touches none. -/
theorem not_touches_of_services (services : after.services = system.services)
    : ¬ Touches system after address := by
  rintro ⟨before, present, differs⟩
  exact differs before (services ▸ present) rfl

/-- A step that stores a service touches no other one. -/
theorem eq_of_touches_store {changed : ClientService} {other : Address} {stored : System}
    (services : stored.services = (system.store address changed).services)
    (touches : Touches system stored other)
    : other = address := by
  obtain ⟨before, present, differs⟩ := touches
  by_cases here : other = address
  · exact here
  · refine absurd rfl (differs before ?_)
    rw [services]
    exact (if_neg here).trans present

/-- Who touches a service has it alone. -/
theorem Orderly.touches (orderly : Orderly system) (stepped : Stepped system action after)
    (touches : Touches system after address)
    : (∃ party, action.party = some party ∧ AlonePartyAt system address party)
      ∨ ∃ index, action = .service index ∧ AloneThreadAt system address index := by
  cases stepped with
  | aside isMain aside => exact absurd touches (not_touches_of_services aside.services)
  | mainStopThread main current found created =>
      exact absurd touches (not_touches_store found rfl rfl)
  | @mainDropClients caller service object clients main current found null =>
      obtain rfl : address = service := eq_of_touches_store rfl touches
      exact .inl ⟨.main, rfl,
        orderly.alone_of_hands (hands_main_eq_some (by rw [main]; rfl) current)⟩
  | @mainDelete caller service object main current found =>
      have here : address = service := by
        obtain ⟨before, present, differs⟩ := touches
        by_cases here : address = service
        · exact here
        · exact absurd rfl (differs before ((if_neg here).trans present))
      subst here
      exact .inl ⟨.main, rfl,
        orderly.alone_of_hands (hands_main_eq_some (by rw [main]; rfl) current)⟩
  | mainClear main => exact absurd touches (not_touches_of_services rfl)
  | mainNew main =>
      obtain rfl : address = system.fresh := eq_of_touches_store rfl touches
      obtain ⟨before, present, -⟩ := touches
      exact nomatch (orderly.fresh.services _ (Nat.le_refl _)).symm.trans present
  | mainStartThread main current found done =>
      exact absurd touches (not_touches_store found rfl rfl)
  | connect accepting => exact absurd touches (not_touches_of_services rfl)
  | update updating stored => exact absurd touches (not_touches_of_services rfl)
  | listen listening current => exact absurd touches (not_touches_of_services rfl)
  | stopThread stopping found created =>
      exact absurd touches (not_touches_store found rfl rfl)
  | @pushBack index client service object pushing found =>
      obtain rfl : address = service := eq_of_touches_store rfl touches
      exact .inl ⟨.accept index, rfl, orderly.alone_of_hands (hands_accept pushing)⟩
  | calloc allocating found => exact absurd touches (not_touches_store found rfl rfl)
  | startThread starting found => exact absurd touches (not_touches_store found rfl rfl)
  | test testing prologue => exact absurd touches (not_touches_of_services rfl)
  | @copy index thread object clients copying prologue found stored =>
      obtain rfl : address = thread.service := eq_of_touches_store rfl touches
      exact .inr ⟨index, rfl, orderly.alone_of_thread copying⟩

end Alone

/-- In every run, whatever a step adds to the clients of a service or drops from them, and
when a step deletes the service, the party or thread that makes the step has it alone.
-/
theorem touches_alone {storage : Storage} {history : List (System × Action)} {system : System}
    (run : Run step (TcpServer.construct storage) history system)
    (once : Guarded StartsOnce history) {action : Action} {after : System}
    (allowed : StartsOnce system action) (stepped : step system action = .ok after)
    {address : Address} (touches : Touches system after address)
    : (∃ party, action.party = some party ∧ AlonePartyAt system address party)
      ∨ ∃ index, action = .service index ∧ AloneThreadAt system address index :=
  (orderly_of_run run once).touches (stepped_of_step allowed stepped) touches

-----------------------------------------------------------------------------------------
-- The list that a thread traverses
-----------------------------------------------------------------------------------------

/-- A thread that was created is past its prologue if it is still there, and its service has
these clients.
-/
structure Traverses (id : Nat) (address : Address) (clients : List Address) (system : System)
    : Prop where
  created : id < system.fresh
  service : ∀ thread ∈ system.serviceThreads, thread.id = id → thread.service = address
  passed : ∀ thread ∈ system.serviceThreads, thread.id = id → thread.prologue = .passed
  listed
    : (∃ thread ∈ system.serviceThreads, thread.id = id) →
        (system.services address).map (·.clients) = some clients

section Traversal

variable {system after : System} {action : Action} {address : Address} {clients : List Address}
  {id : Nat}

theorem fresh_le_of_stepped (stepped : Stepped system action after)
    : system.fresh ≤ after.fresh := by
  cases stepped with
  | aside isMain aside => exact aside.fresh
  | mainNew main => exact Nat.le_succ _
  | mainStartThread main current found done => exact Nat.le_succ _
  | connect accepting => exact Nat.le_succ _
  | startThread starting found => exact Nat.le_succ _
  | _ => exact Nat.le_refl _

/-- A thread is new after a step, or was there before it and has not gone back. -/
theorem thread_of_stepped (stepped : Stepped system action after) {now : ServiceThread}
    (member : now ∈ after.serviceThreads)
    : now.id = system.fresh
      ∨ ∃ thread ∈ system.serviceThreads,
          thread.id = now.id
          ∧ thread.service = now.service
          ∧ (thread.prologue = .passed → now.prologue = .passed) := by
  have stays (before : now ∈ system.serviceThreads)
      : ∃ thread ∈ system.serviceThreads,
          thread.id = now.id
          ∧ thread.service = now.service
          ∧ (thread.prologue = .passed → now.prologue = .passed) :=
    ⟨now, before, rfl, rfl, id⟩
  cases stepped with
  | aside isMain aside => exact .inr (stays (aside.serviceThreads ▸ member))
  | mainStopThread main current found created =>
      exact .inr (stays (List.mem_of_mem_filter member))
  | stopThread stopping found created => exact .inr (stays (List.mem_of_mem_filter member))
  | mainStartThread main current found done =>
      rcases List.mem_append.mp member with before | new
      · exact .inr (stays before)
      · rw [List.mem_singleton.mp new]
        exact .inl rfl
  | startThread starting found =>
      rcases List.mem_append.mp member with before | new
      · exact .inr (stays before)
      · rw [List.mem_singleton.mp new]
        exact .inl rfl
  | @test index thread testing prologue =>
      rcases List.mem_or_eq_of_mem_set member with before | rfl
      · exact .inr (stays before)
      · refine .inr ⟨thread, List.mem_of_getElem? testing, rfl, rfl, fun passed => ?_⟩
        cases prologue.symm.trans passed
  | @copy index thread service clients copying prologue found stored =>
      rcases List.mem_or_eq_of_mem_set member with before | rfl
      · exact .inr (stays before)
      · exact .inr ⟨thread, List.mem_of_getElem? copying, rfl, rfl, fun _ => rfl⟩
  | _ => exact .inr (stays member)

/-- A service that is not touched has the clients that it had. -/
theorem clients_of_not_touches (untouched : ¬ Touches system after address)
    (listed : (system.services address).map (·.clients) = some clients)
    : (after.services address).map (·.clients) = some clients := by
  obtain ⟨before, present, rfl⟩ := Option.map_eq_some_iff.mp listed
  by_contra differs
  refine untouched ⟨before, present, fun now found same => differs ?_⟩
  rw [found, Option.map_some, same]

/-- Who touches a service is not there while a thread that is past its prologue runs on it. -/
theorem Orderly.not_touches (orderly : Orderly system) (stepped : Stepped system action after)
    {thread : ServiceThread} (present : thread ∈ system.serviceThreads)
    (passed : thread.prologue = .passed)
    : ¬ Touches system after thread.service := by
  intro touches
  rcases orderly.touches stepped touches with ⟨party, -, alone⟩ | ⟨index, rfl, alone⟩
  · exact alone.threads thread present rfl
  · cases stepped with
    | aside isMain aside => cases isMain
    | test testing prologue => exact not_touches_of_services rfl touches
    | @copy index other service clients copying prologue found stored =>
        obtain ⟨position, there⟩ := List.mem_iff_getElem?.mp present
        obtain rfl : position = index := alone.threads position thread there rfl
        obtain rfl : thread = other := Option.some.inj (there.symm.trans copying)
        cases prologue.symm.trans passed

/-- A traversal goes on over the same list, whatever the step. -/
theorem Traverses.step (traverses : Traverses id address clients system)
    (orderly : Orderly system) (stepped : Stepped system action after)
    : Traverses id address clients after := by
  have before {now : ServiceThread} (member : now ∈ after.serviceThreads) (same : now.id = id)
      : ∃ thread ∈ system.serviceThreads,
          thread.id = id ∧ thread.service = now.service
          ∧ (thread.prologue = .passed → now.prologue = .passed) := by
    subst same
    rcases thread_of_stepped stepped member with new | old
    · have created := traverses.created
      omega
    · exact old
  refine ⟨Nat.lt_of_lt_of_le traverses.created (fresh_le_of_stepped stepped), ?_, ?_, ?_⟩
  · intro now member same
    obtain ⟨thread, present, same, service, -⟩ := before member same
    exact service ▸ traverses.service thread present same
  · intro now member same
    obtain ⟨thread, present, same, -, passed⟩ := before member same
    exact passed (traverses.passed thread present same)
  · rintro ⟨now, member, same⟩
    obtain ⟨thread, present, same, -, -⟩ := before member same
    obtain rfl := traverses.service thread present same
    have untouched := orderly.not_touches stepped present (traverses.passed thread present same)
    exact clients_of_not_touches untouched (traverses.listed ⟨thread, present, same⟩)

/-- A thread that is past its prologue traverses the clients of its service. -/
theorem Orderly.traverses (orderly : Orderly system) {thread : ServiceThread}
    (present : thread ∈ system.serviceThreads) (passed : thread.prologue = .passed)
    : ∃ service,
        system.services thread.service = some service
        ∧ Traverses thread.id thread.service service.clients system := by
  have running := orderly.running present
  obtain ⟨service, found, -⟩ := Option.map_eq_some_iff.mp running
  have only (other : ServiceThread) (member : other ∈ system.serviceThreads)
      (same : other.id = thread.id)
      : other = thread :=
    List.inj_on_of_nodup_map orderly.distinct_ids member present same
  refine ⟨service, found, orderly.fresh.threads thread present, ?_, ?_, fun _ => ?_⟩
  · exact fun other member same => congrArg _ (only other member same)
  · exact fun other member same => (congrArg _ (only other member same)).trans passed
  · rw [found, Option.map_some]

end Traversal

/-- However the threads interleave: as long as a client service's thread that is past its
prologue lives, the list that it traverses is the one it began with; by induction on the run.
-/
theorem list_stays_while_served {storage : Storage} {before : List (System × Action)}
    {began : System} (run : Run step (TcpServer.construct storage) before began)
    (once : Guarded StartsOnce before) {thread : ServiceThread}
    (present : thread ∈ began.serviceThreads) (passed : thread.prologue = .passed)
    {later : List (System × Action)} {final : System} (goesOn : Run step began later final)
    (onceMore : Guarded StartsOnce later)
    (alive : ∃ now ∈ final.serviceThreads, now.id = thread.id)
    : ∃ first last,
        began.services thread.service = some first
        ∧ final.services thread.service = some last
        ∧ last.clients = first.clients := by
  have orderly := orderly_of_run run once
  obtain ⟨first, found, traverses⟩ := orderly.traverses present passed
  have kept (system : System) (action : Action) (after : System)
      (holds : Orderly system ∧ Traverses thread.id thread.service first.clients system)
      (allowed : StartsOnce system action) (stepped : Ethnm.step system action = .ok after)
      : Orderly after ∧ Traverses thread.id thread.service first.clients after := by
    have did := stepped_of_step allowed stepped
    exact ⟨holds.1.step did, holds.2.step holds.1 did⟩
  have traversed := (goesOn.invariant onceMore ⟨orderly, traverses⟩ kept).2
  obtain ⟨last, served, same⟩ := Option.map_eq_some_iff.mp (traversed.listed alive)
  exact ⟨first, last, found, served, same⟩

/-- The thread that serves a first client goes on while a second one connects, up to the call of
`StopThread`.
-/
theorem list_stays_while_served_second
    : ∃ before began later final thread,
        Run step (TcpServer.construct zeroStorage) before began
        ∧ thread ∈ began.serviceThreads
        ∧ (began.services thread.service).map (·.clients) = some [3]
        ∧ Run step began later final
        ∧ later.length = 3
        ∧ ∃ first last,
            began.services thread.service = some first
            ∧ final.services thread.service = some last
            ∧ last.clients = first.clients := by
  have passed : executesTo step (TcpServer.construct zeroStorage)
      (startActions ++ .service 0 :: .connect 0 7 :: List.replicate 6 (.accept 0) ++ [.service 0])
      (fun before began =>
        decide (Guarded StartsOnce before)
        && executesTo step began [.connect 0 8, .accept 0, .accept 0] (fun later final =>
          decide (Guarded StartsOnce later ∧ later.length = 3
            ∧ ∃ thread ∈ began.serviceThreads,
              thread.prologue = .passed
              ∧ (began.services thread.service).map (·.clients) = some [3]
              ∧ ∃ now ∈ final.serviceThreads, now.id = thread.id)))
      = true := by decide +kernel
  obtain ⟨before, began, run, test⟩ := exists_run_of_executesTo passed
  obtain ⟨once, test⟩ := Bool.and_eq_true_iff.mp test
  obtain ⟨later, final, goesOn, test⟩ := exists_run_of_executesTo test
  obtain ⟨onceMore, three, thread, present, passed, serves, alive⟩ := of_decide_eq_true test
  exact ⟨before, began, later, final, thread, run, present, serves, goesOn, three,
    list_stays_while_served run (of_decide_eq_true once) present passed goesOn onceMore alive⟩

/-- The first client connects, up to the `push_back` of `Listen`. -/
def firstClientActions : List Action :=
  startActions ++ [.connect 0 7, .accept 0, .accept 0, .accept 0]

/-- The service's thread is stopped when the accept thread adds the first client. -/
theorem touches_alone_first
    : ∃ history system,
        Run step (TcpServer.construct zeroStorage) history system
        ∧ ∃ after, step system (.accept 0) = .ok after
          ∧ ((∃ party, (Action.accept 0).party = some party ∧ AlonePartyAt system 1 party)
            ∨ ∃ index, Action.accept 0 = .service index ∧ AloneThreadAt system 1 index) := by
  have passed : executesTo step (TcpServer.construct zeroStorage) firstClientActions
      (fun history system =>
        decide (Guarded StartsOnce history ∧ (system.services 1).map (·.clients) = some [])
        && match step system (.accept 0) with
          | .ok after => decide ((after.services 1).map (·.clients) ≠ some [])
          | .error _ => false)
      = true := by decide
  obtain ⟨history, system, run, test⟩ := exists_run_of_executesTo passed
  obtain ⟨now, next⟩ := Bool.and_eq_true_iff.mp test
  obtain ⟨once, empty⟩ := of_decide_eq_true now
  cases stepped : step system (.accept 0) with
  | error halt =>
      rw [stepped] at next
      cases next
  | ok after =>
      rw [stepped] at next
      obtain ⟨before, present, none⟩ := Option.map_eq_some_iff.mp empty
      have touches : Touches system after 1 := by
        refine ⟨before, present, fun now found same => of_decide_eq_true next ?_⟩
        rw [found, Option.map_some, same, none]
      have allowed : StartsOnce system (.accept 0) := trivial
      exact ⟨history, system, run, after, stepped,
        touches_alone run once allowed stepped touches⟩

end Ethnm
