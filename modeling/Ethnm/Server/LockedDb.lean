import Ethnm.Library.RwSections
import Ethnm.Server.TcpServer

/-! `ClientDB` between threads. `Update` takes the lock for writing, `Copy` and `Display` take
it for reading, and so does `Purge`, which writes. Statement by statement, the calls do what
they would do one after the other, as long as nobody else is inside while a `Purge` is.
-/

namespace Ethnm.LockedDb
open ListCursor RwSections Runs

/-- What the lock is for, and the clients that the list points to. -/
structure Db where
  clients : List Address
  heap : ClientHeap

inductive Op
  | update (client : Address)
  | copy
  | display
  | purge
  deriving DecidableEq, Repr

/-- Where a call is between `lock` and `unlock`: before or behind its `push_back`, before the
test of its iterator with what it has copied or displayed, before `client->Display()`, or in
the traversal of `Purge` with the client at hand.
-/
inductive Place : Op → Type
  | pushBack {client : Address} : Place (.update client)
  | pushed {client : Address} : Place (.update client)
  | copying (position : Nat) (list : List Address) : Place .copy
  | displaying (position : Nat) (displayed : List Address) : Place .display
  | showing (position : Nat) (displayed : List Address) (client : Address) : Place .display
  | beginning : Place .purge
  | purging (client : Address) (cursor : Cursor Address) : Place .purge

/-- What a call gives to its caller: nothing, the list it has filled, or what it has
displayed.
-/
inductive Result
  | done
  | clients (clients : List Address)
  deriving DecidableEq, Repr

/-- The next statement of a call. -/
def turn : (op : Op) → Place op → Db → Except Fault (Turn Db (Place op) Result)
  | .update client, .pushBack, db =>
      .ok (.goes .pushed { db with clients := db.clients ++ [client] })
  | .update _, .pushed, _ => .ok (.ends .done)
  | .copy, .copying position list, db =>
      match db.clients[position]? with
      | none => .ok (.ends (.clients list))
      | some client => .ok (.goes (.copying (position + 1) (list ++ [client])) db)
  | .display, .displaying position displayed, db =>
      match db.clients[position]? with
      | none => .ok (.ends (.clients displayed))
      | some client => .ok (.goes (.showing position displayed client) db)
  | .display, .showing position displayed client, db =>
      if (db.heap.objects client).isSome then
        .ok (.goes (.displaying (position + 1) (displayed ++ [client])) db)
      else
        .error .useAfterFree
  | .purge, .beginning, db =>
      match db.clients with
      | [] => .ok (.ends .done)
      | client :: _ => .ok (.goes (.purging client (Cursor.start db.clients)) db)
  | .purge, .purging client cursor, db =>
      match cursor.after with
      | [] => .ok (.ends .done)
      | nextClient :: _ =>
          match cursor.next.remove client with
          | none => .error .danglingIterator
          | some rest => do
              let heap ← TcpClient.abort client db.heap
              return .goes (.purging nextClient rest) { clients := rest.toList, heap }

/-- The calls as sections under `rwlock`. -/
def sections : Sections Op Db Place Result Fault where
  mode
    | .update _ => .write
    | .copy | .display | .purge => .read
  writes
    | .update _ | .purge => true
    | .copy | .display => false
  enter
    | .update _ => .pushBack
    | .copy => .copying 0 []
    | .display => .displaying 0 []
    | .purge => .beginning
  turn := turn
  readOnly := by
    intro op state after place next reads turned
    cases place with
    | copying position list =>
        rw [turn] at turned
        split at turned <;> cases turned
        rfl
    | displaying position displayed =>
        rw [turn] at turned
        split at turned <;> cases turned
        rfl
    | showing position displayed client =>
        rw [turn] at turned
        split at turned <;> cases turned
        rfl
    | _ => cases reads

/-- What a call is for, when no other one is under way. -/
def atomically : Op → Db → Except Fault (Db × Result)
  | .update client, db => .ok ({ db with clients := db.clients ++ [client] }, .done)
  | .copy, db => .ok (db, .clients db.clients)
  | .display, db =>
      if db.clients.all (fun client => (db.heap.objects client).isSome) then
        .ok (db, .clients db.clients)
      else
        .error .useAfterFree
  | .purge, db => do
      let (clients, heap) ← ClientDB.purge db.clients db.heap
      return (⟨clients, heap⟩, .done)

-----------------------------------------------------------------------------------------
-- A call that has the database for itself
-----------------------------------------------------------------------------------------

/-- What a call has done when it is at a place. -/
def Place.Reached (base state : Db) : {op : Op} → Place op → Prop
  | _, .pushBack => state = base
  | .update client, .pushed => state = { base with clients := base.clients ++ [client] }
  | _, .copying position list =>
      state = base ∧ position ≤ base.clients.length ∧ list = base.clients.take position
  | _, .displaying position displayed =>
      state = base
      ∧ position ≤ base.clients.length
      ∧ displayed = base.clients.take position
      ∧ ∀ client ∈ displayed, (base.heap.objects client).isSome
  | _, .showing position displayed client =>
      state = base
      ∧ base.clients[position]? = some client
      ∧ displayed = base.clients.take position
      ∧ ∀ client ∈ displayed, (base.heap.objects client).isSome
  | _, .beginning => state = base
  | _, .purging client cursor =>
      state.clients = cursor.toList
      ∧ ClientDB.purge base.clients base.heap
        = sweep TcpClient.abort client cursor state.heap

section Alone

variable {op : Op} {base state after : Db}

/-- A list has been seen up to the next element. -/
theorem take_succ_of_getElem? {clients : List Address} {position : Nat} {client : Address}
    (here : clients[position]? = some client)
    : position < clients.length
      ∧ clients.take position ++ [client] = clients.take (position + 1) := by
  obtain ⟨within, rfl⟩ := List.getElem?_eq_some_iff.mp here
  exact ⟨within, List.take_append_getElem within⟩

/-- A turn of the traversal that removes a client and visits it. -/
theorem sweep_of_remove {σ : Type} {visit : Address → σ → Except Fault σ}
    {client next : Address} {others : List Address} {cursor rest : Cursor Address} {state : σ}
    (nonempty : cursor.after = next :: others) (removed : cursor.next.remove client = some rest)
    : sweep visit client cursor state
      = (do
          let state ← visit client state
          sweep visit next rest state) := by
  rw [sweep]
  split
  · rename_i ended
    cases nonempty.symm.trans ended
  · rename_i further
    cases nonempty.symm.trans further
    split
    · rename_i dangling
      cases removed.symm.trans dangling
    · rename_i kept
      cases removed.symm.trans kept
      rfl

/-- The traversal ends at the end of the list. -/
theorem sweep_of_ended {σ : Type} {visit : Address → σ → Except Fault σ} {client : Address}
    {cursor : Cursor Address} {state : σ} (ended : cursor.after = [])
    : sweep visit client cursor state = .ok (cursor.toList, state) := by
  rw [sweep]
  split
  · rfl
  · rename_i further
    exact nomatch ended.symm.trans further

/-- One statement does the next part of what the call is for. -/
theorem Place.Reached.turn {place next : Place op} (reached : place.Reached base state)
    (turned : LockedDb.turn op place state = .ok (.goes next after))
    : next.Reached base after := by
  cases place with
  | pushBack =>
      obtain rfl : state = base := reached
      cases turned
      exact rfl
  | pushed => cases turned
  | copying position list =>
      obtain ⟨rfl, within, rfl⟩ := reached
      rw [LockedDb.turn] at turned
      split at turned <;> cases turned
      rename_i client here
      obtain ⟨inside, longer⟩ := take_succ_of_getElem? here
      exact ⟨rfl, inside, longer⟩
  | displaying position displayed =>
      obtain ⟨rfl, within, rfl, live⟩ := reached
      rw [LockedDb.turn] at turned
      split at turned <;> cases turned
      rename_i here
      exact ⟨rfl, here, rfl, live⟩
  | showing position displayed client =>
      obtain ⟨rfl, here, rfl, live⟩ := reached
      rw [LockedDb.turn] at turned
      split at turned <;> cases turned
      rename_i present
      obtain ⟨inside, longer⟩ := take_succ_of_getElem? here
      refine ⟨rfl, inside, longer, fun other member => ?_⟩
      rcases List.mem_append.mp member with seen | new
      · exact live other seen
      · rw [List.mem_singleton.mp new]
        exact present
  | beginning =>
      obtain rfl : state = base := reached
      rw [LockedDb.turn] at turned
      split at turned <;> cases turned
      rename_i client rest clients
      refine ⟨rfl, ?_⟩
      rw [ClientDB.purge, clients, sweepList]
  | purging client cursor =>
      obtain ⟨left, same⟩ := reached
      rw [LockedDb.turn] at turned
      split at turned
      · cases turned
      · rename_i nextClient others further
        split at turned
        · cases turned
        · rename_i rest removed
          obtain ⟨heap, aborted, turned⟩ := bind_eq_ok.mp turned
          cases turned
          refine ⟨rfl, ?_⟩
          rw [same, sweep_of_remove further removed, aborted]
          rfl

/-- The next statement of a call is defined, but for those of a traversal of `Purge`, and
`client->Display()` for a client that was deleted.
-/
theorem Place.Reached.turn_error {place : Place op} {fault : Fault}
    (reached : place.Reached base state) (failed : LockedDb.turn op place state = .error fault)
    : op = .purge
      ∨ op = .display ∧ ∃ client ∈ state.clients, state.heap.objects client = none := by
  cases place with
  | pushBack => cases failed
  | pushed => cases failed
  | copying position list =>
      rw [LockedDb.turn] at failed
      split at failed <;> cases failed
  | displaying position displayed =>
      rw [LockedDb.turn] at failed
      split at failed <;> cases failed
  | showing position displayed client =>
      obtain ⟨rfl, here, -⟩ := reached
      rw [LockedDb.turn] at failed
      split at failed
      · cases failed
      · rename_i gone
        exact .inr ⟨rfl, client, List.mem_of_getElem? here, Option.not_isSome_iff_eq_none.mp gone⟩
  | beginning => exact .inl rfl
  | purging client cursor => exact .inl rfl

/-- A call that runs alone has done its part at every place; by induction on its statements. -/
theorem reached_of_within {place : Place op} (within : sections.Within op base place state)
    : place.Reached base state := by
  induction within with
  | enter =>
      cases op with
      | update client => exact rfl
      | copy => exact ⟨rfl, Nat.zero_le _, rfl⟩
      | display => exact ⟨rfl, Nat.zero_le _, rfl, fun _ member => nomatch member⟩
      | purge => exact rfl
  | goes _ turned ih => exact ih.turn turned

/-- A list that has no element at a position was seen as a whole. -/
theorem take_of_getElem?_none {clients : List Address} {position : Nat}
    (ended : clients[position]? = none)
    : clients.take position = clients :=
  List.take_of_length_le (List.getElem?_eq_none_iff.mp ended)

/-- A call that runs alone does what it is for. -/
theorem atomically_of_completes {result : Result}
    (completes : sections.Completes op base state result)
    : atomically op base = .ok (state, result) := by
  obtain ⟨place, within, turned⟩ := completes
  have reached := reached_of_within within
  change turn op place state = _ at turned
  cases place with
  | pushBack => cases turned
  | pushed =>
      obtain rfl : state = _ := reached
      cases turned
      rfl
  | copying position list =>
      obtain ⟨rfl, within, rfl⟩ := reached
      rw [turn] at turned
      split at turned <;> cases turned
      rename_i ended
      rw [take_of_getElem?_none ended]
      rfl
  | displaying position displayed =>
      obtain ⟨rfl, within, rfl, live⟩ := reached
      rw [turn] at turned
      split at turned
      · cases turned
        rename_i ended
        rw [take_of_getElem?_none ended] at live ⊢
        exact if_pos (List.all_eq_true.mpr live)
      · cases turned
  | showing position displayed client =>
      rw [turn] at turned
      split at turned <;> cases turned
  | beginning =>
      obtain rfl : state = base := reached
      rw [turn] at turned
      split at turned <;> cases turned
      rename_i empty
      obtain ⟨clients, heap⟩ := state
      obtain rfl : clients = [] := empty
      rfl
  | purging client cursor =>
      obtain ⟨left, same⟩ := reached
      rw [turn] at turned
      split at turned
      · cases turned
        rename_i ended
        rw [sweep_of_ended ended, ← left] at same
        rw [atomically, same]
        rfl
      · split at turned
        · cases turned
        · obtain ⟨heap, -, turned⟩ := bind_eq_ok.mp turned
          cases turned

/-- The traversal of a list without an end to its statements: what is left can be copied. -/
theorem within_copying {position : Nat} (within : position ≤ base.clients.length)
    : sections.Within .copy base (.copying position (base.clients.take position)) base := by
  induction position with
  | zero => exact .enter
  | succ position ih =>
      have here := List.getElem?_eq_getElem within
      obtain ⟨-, longer⟩ := take_succ_of_getElem? here
      have turned : turn .copy (.copying position (base.clients.take position)) base
          = .ok (.goes (.copying (position + 1) (base.clients.take (position + 1))) base) := by
        rw [turn, here, ← longer]
      exact (ih (Nat.le_of_succ_le within)).goes turned

/-- Live clients can be displayed, by induction on their number. -/
theorem within_displaying {position : Nat} (within : position ≤ base.clients.length)
    (live : ∀ client ∈ base.clients, (base.heap.objects client).isSome)
    : sections.Within .display base (.displaying position (base.clients.take position))
        base := by
  induction position with
  | zero => exact .enter
  | succ position ih =>
      have here := List.getElem?_eq_getElem within
      obtain ⟨-, longer⟩ := take_succ_of_getElem? here
      have present := live _ (List.mem_of_getElem? here)
      have read : turn .display (.displaying position (base.clients.take position)) base
          = .ok (.goes (.showing position (base.clients.take position) base.clients[position])
              base) := by
        rw [turn, here]
      have turned : turn .display
            (.showing position (base.clients.take position) base.clients[position]) base
          = .ok (.goes (.displaying (position + 1) (base.clients.take (position + 1)))
              base) := by
        rw [turn, if_pos present, ← longer]
      exact ((ih (Nat.le_of_succ_le within)).goes read).goes turned

/-- A traversal that succeeds can be made statement by statement; by its recursion. -/
theorem completes_purging {client : Address} {cursor : Cursor Address} {heap after : ClientHeap}
    {left : List Address} (swept : sweep TcpClient.abort client cursor heap = .ok (left, after))
    (within
      : sections.Within .purge base (.purging client cursor) ⟨cursor.toList, heap⟩)
    : sections.Completes .purge base ⟨left, after⟩ .done := by
  fun_induction sweep TcpClient.abort client cursor heap with
  | case1 client cursor heap ended =>
      cases swept
      refine ⟨_, within, ?_⟩
      change turn .purge (.purging client cursor) _ = _
      rw [turn, ended]
  | case2 client cursor heap next rest nonempty dangling => cases swept
  | case3 client cursor heap next rest nonempty kept removed shorter ih =>
      obtain ⟨next, aborted, swept⟩ := bind_eq_ok.mp swept
      refine ih _ swept (within.goes ?_)
      change turn .purge (.purging client cursor) _ = _
      rw [turn, nonempty]
      simp only [removed, aborted]
      rfl

/-- A call that runs alone comes to its end, unless what it is for is undefined. -/
theorem completes_of_atomically {result : Result}
    (does : atomically op base = .ok (state, result))
    : sections.Completes op base state result := by
  cases op with
  | update client =>
      cases does
      exact ⟨.pushed, .goes .enter rfl, rfl⟩
  | copy =>
      cases does
      have within := within_copying (Nat.le_refl base.clients.length)
      rw [List.take_length] at within
      refine ⟨_, within, ?_⟩
      change turn .copy (.copying base.clients.length base.clients) base = _
      rw [turn, List.getElem?_eq_none (Nat.le_refl _)]
  | display =>
      rw [atomically] at does
      split at does <;> cases does
      rename_i live
      have within := within_displaying (Nat.le_refl base.clients.length)
        (List.all_eq_true.mp live)
      rw [List.take_length] at within
      refine ⟨_, within, ?_⟩
      change turn .display (.displaying base.clients.length base.clients) base = _
      rw [turn, List.getElem?_eq_none (Nat.le_refl _)]
  | purge =>
      obtain ⟨⟨left, heap⟩, purged, returned⟩ := bind_eq_ok.mp does
      cases returned
      obtain ⟨clients, before⟩ := base
      cases clients with
      | nil =>
          cases purged
          exact ⟨.beginning, .enter, rfl⟩
      | cons client rest => exact completes_purging purged (.goes .enter rfl)

end Alone

-----------------------------------------------------------------------------------------
-- The database of the server
-----------------------------------------------------------------------------------------

/-- The database that the server points to. -/
def dbOf (system : System) : Option Db :=
  system.server.clientDb.map (fun clients => { clients, heap := system.heap })

section Server

variable {address client : Address} {system : System} {base state : Db}

/-- A call that runs alone does what it is for, and nothing else. -/
theorem completes_iff {op : Op} {base state : Db} {result : Result}
    : sections.Completes op base state result ↔ atomically op base = .ok (state, result) :=
  ⟨atomically_of_completes, completes_of_atomically⟩

theorem follow_clientDb (found : dbOf system = some base)
    : follow system.server.clientDb = .ok base.clients ∧ base.heap = system.heap := by
  obtain ⟨clients, present, rfl⟩ := Option.map_eq_some_iff.mp found
  rw [present]
  exact ⟨rfl, rfl⟩

theorem update_iff (found : dbOf system = some base)
    : (∃ after, ClientDB.update client system = .ok after ∧ dbOf after = some state)
      ↔ sections.Completes (.update client) base state .done := by
  obtain ⟨followed, heap⟩ := follow_clientDb found
  rw [completes_iff, atomically, heap]
  constructor
  · rintro ⟨after, updated, left⟩
    obtain ⟨clients, present, returned⟩ := bind_eq_ok.mp updated
    cases followed.symm.trans present
    cases returned
    cases left
    rfl
  · intro does
    cases does
    exact ⟨_, bind_eq_ok.mpr ⟨_, followed, rfl⟩, rfl⟩

/-- The copied clients are those that the client service gets. -/
theorem copy_iff (found : dbOf system = some base) {service : ClientService}
    (here : system.service address = .ok service) {clients : List Address}
    : (∃ after,
        ClientDB.copy address system = .ok after
        ∧ dbOf after = some state
        ∧ after.service address = .ok { service with clients := service.clients ++ clients })
      ↔ sections.Completes .copy base state (.clients clients) := by
  obtain ⟨followed, heap⟩ := follow_clientDb found
  rw [completes_iff, atomically]
  have copied : ClientDB.copy address system
      = .ok (system.store address { service with clients := service.clients ++ base.clients }) :=
    bind_eq_ok.mpr ⟨service, here, bind_eq_ok.mpr ⟨_, followed, rfl⟩⟩
  have served
      : (system.store address
          { service with clients := service.clients ++ base.clients }).service address
        = .ok { service with clients := service.clients ++ base.clients } := by
    simp only [System.service, System.store, if_true]
  constructor
  · rintro ⟨after, returned, left, gets⟩
    cases copied.symm.trans returned
    obtain rfl : base = state := Option.some.inj (found.symm.trans left)
    have same := congrArg ClientService.clients (Except.ok.inj (served.symm.trans gets))
    rw [List.append_cancel_left same]
  · intro does
    cases does
    exact ⟨_, copied, found, served⟩

theorem purge_iff (found : dbOf system = some base)
    : (∃ after, ClientDB.purgeAll system = .ok after ∧ dbOf after = some state)
      ↔ sections.Completes .purge base state .done := by
  obtain ⟨followed, heap⟩ := follow_clientDb found
  rw [completes_iff, atomically, heap]
  cases swept : ClientDB.purge base.clients system.heap with
  | error fault =>
      have failed : ClientDB.purgeAll system = .error (.fault fault) := by
        simp only [ClientDB.purgeAll, followed, swept, bind, Except.bind]
      refine iff_of_false (fun purges => ?_) (fun does => by cases does)
      obtain ⟨after, purged, -⟩ := purges
      cases failed.symm.trans purged
  | ok left =>
      have emptied : ClientDB.purgeAll system
          = .ok {
              system with
              server := { system.server with clientDb := some left.1 }
              heap := left.2
            } := by
        simp only [ClientDB.purgeAll, followed, swept, bind, Except.bind, pure, Except.pure]
      constructor
      · rintro ⟨after, purged, same⟩
        cases emptied.symm.trans purged
        cases same
        rfl
      · intro does
        cases does
        exact ⟨_, emptied, rfl⟩

/-- What the server's threads do with the database in one step is what the calls do under the
lock, statement by statement, when nobody else is inside.
-/
theorem db_steps_are_calls (found : dbOf system = some base)
    : (∀ client state,
        (∃ after, ClientDB.update client system = .ok after ∧ dbOf after = some state)
        ↔ sections.Completes (.update client) base state .done)
      ∧ (∀ address service, system.service address = .ok service →
          ∀ clients state,
            (∃ after,
              ClientDB.copy address system = .ok after
              ∧ dbOf after = some state
              ∧ after.service address
                = .ok { service with clients := service.clients ++ clients })
            ↔ sections.Completes .copy base state (.clients clients))
      ∧ ∀ state,
        (∃ after, ClientDB.purgeAll system = .ok after ∧ dbOf after = some state)
        ↔ sections.Completes .purge base state .done :=
  ⟨fun _ _ => update_iff found, fun _ _ here _ _ => copy_iff found here, fun _ => purge_iff found⟩

/-- A server with two clients in its database, and with its first client service. -/
def twoClients : System :=
  let system := TcpServer.construct { state := 0, masterSockUdp := fun _ => 0 }
  { system with server := { system.server with clientDb := some [5, 7] }, heap := plainHeap }

/-- The client service gets both clients. -/
theorem db_steps_are_calls_copy
    : sections.Completes .copy ⟨[5, 7], plainHeap⟩ ⟨[5, 7], plainHeap⟩ (.clients [5, 7]) := by
  have found : dbOf twoClients = some ⟨[5, 7], plainHeap⟩ := rfl
  have copied : ∃ after,
      ClientDB.copy 1 twoClients = .ok after
      ∧ dbOf after = some ⟨[5, 7], plainHeap⟩
      ∧ after.service 1 = .ok { clients := [5, 7], thread := .zeroed } :=
    ⟨_, rfl, rfl, rfl⟩
  exact ((db_steps_are_calls found).2.1 1 { clients := [], thread := .zeroed } rfl [5, 7] _).mp
    copied

end Server

-----------------------------------------------------------------------------------------
-- Calls of many threads
-----------------------------------------------------------------------------------------

section Threads

variable {Thread : Type} {initial : Db}

/-- The clients that were added by completed calls, in their order. -/
def added (log : List (Completion Thread Op Result)) : List Address :=
  log.filterMap (fun completion =>
    match completion.op with
    | .update client => some client
    | _ => none)

/-- Only `Purge` writes under a lock for reading. -/
theorem misplaced_iff {op : Op} : sections.Misplaced op ↔ op = .purge := by
  cases op <;> simp [Sections.Misplaced, sections]

/-- Without a `Purge` the clients are those that were there and those that were added; by
induction on the completed calls.
-/
theorem added_of_replays {log : List (Completion Thread Op Result)} {base : Db}
    (replays : Replays sections.Completes initial log base)
    (unpurged : ∀ completion ∈ log, completion.op ≠ .purge)
    : base = { initial with clients := initial.clients ++ added log } := by
  induction replays with
  | nil =>
      rw [added, List.filterMap_nil, List.append_nil]
  | @snoc log base state thread op result earlier completed ih =>
      obtain ⟨before, last⟩ := List.forall_mem_append.mp unpurged
      have does := atomically_of_completes completed
      rw [ih before] at does
      cases op with
      | update client =>
          cases does
          simp [added, List.filterMap_append]
      | copy =>
          cases does
          simp [added, List.filterMap_append]
      | display =>
          rw [atomically] at does
          split at does <;> cases does
          simp [added, List.filterMap_append]
      | purge => exact absurd rfl (last _ List.mem_cons_self)

variable [DecidableEq Thread]
  {history : List (Config Thread Op Db Place Result × Move Thread Op)}
  {final : Config Thread Op Db Place Result}

/-- In a run in which nobody else is inside while a `Purge` is, the calls have the results and
the effect that they have one after the other, in the order in which they gave the lock back.
As long as a call has not returned, some call goes on, unless the next statement of a `Purge` is
undefined, or a `Display` is about to use a client of the list that was deleted.
-/
theorem calls_linear (run : Run sections.step (Config.start initial) history final)
    (apart : Guarded sections.Apart history)
    : (∃ base,
        Replays (fun op base state result => atomically op base = .ok (state, result)) initial
          final.log base
        ∧ ((∀ thread op, final.held thread = some op → sections.writes op = false) →
            final.state = base))
      ∧ ((∃ thread, final.phases thread ≠ .idle) →
          ∃ thread,
            GoesOn sections final thread
            ∨ Faults sections final thread .purge
            ∨ Faults sections final thread .display
              ∧ ∃ client ∈ final.state.clients, final.state.heap.objects client = none) := by
  have linear := linear_of_run run apart
  obtain ⟨base, replays, reached, settled⟩ := linear.replayed
  refine ⟨⟨base, replays.imp (fun _ _ _ _ => atomically_of_completes), settled⟩, ?_⟩
  rintro ⟨thread, busy⟩
  obtain ⟨other, goes | ⟨op, -, faults⟩⟩ := (locked_of_run run).goesOn busy
  · exact ⟨other, .inl goes⟩
  · obtain ⟨place, fault, inside, failed⟩ := id faults
    have within := reached other
    rw [inside] at within
    rcases (reached_of_within within).turn_error failed with rfl | ⟨rfl, gone⟩
    · exact ⟨other, .inr (.inl faults)⟩
    · exact ⟨other, .inr (.inr ⟨faults, gone⟩)⟩

/-- Two threads copy the list at the same time, while a third one waits to add a client. Then it is
copied again, while the next `Update` waits for the lock.
-/
def overlapping : List (Move (Fin 3) Op) :=
  [
    .call 1 .copy, .lock 1, .turn 1, .call 0 (.update 6), .call 2 .copy, .lock 2, .turn 2, .turn 1,
    .unlock 1, .turn 2, .unlock 2, .lock 0, .call 1 .copy, .turn 0, .turn 0, .unlock 0, .lock 1,
    .turn 1, .call 2 (.update 7), .turn 1, .turn 1, .unlock 1
  ]

/-- The calls in the order in which they gave the lock back. -/
def overlapped : List (Completion (Fin 3) Op Result) :=
  [
    ⟨1, .copy, .clients [5]⟩, ⟨2, .copy, .clients [5]⟩, ⟨0, .update 6, .done⟩,
    ⟨1, .copy, .clients [5, 6]⟩
  ]

theorem run_overlapping
    : ∃ history, ∃ final : Config (Fin 3) Op Db Place Result,
        Run sections.step (Config.start ⟨[5], plainHeap⟩) history final
        ∧ (∀ visit ∈ history, ∀ thread : Fin 3, visit.2 ≠ .call thread .purge)
        ∧ final.log = overlapped
        ∧ (final.phases 2).asked = some (.update 7)
        ∧ ∀ thread, final.held thread = none := by
  have passed : executesTo sections.step
      (Config.start ⟨[5], plainHeap⟩ : Config (Fin 3) Op Db Place Result) overlapping
      (fun history final =>
        decide ((∀ visit ∈ history, ∀ thread : Fin 3, visit.2 ≠ .call thread .purge)
          ∧ final.log = overlapped
          ∧ (final.phases 2).asked = some (.update 7)
          ∧ ∀ thread, final.held thread = none))
      = true := by decide
  obtain ⟨history, final, run, test⟩ := exists_run_of_executesTo passed
  exact ⟨history, final, run, of_decide_eq_true test⟩

/-- The copies and the addition count one after the other, and the second addition goes on. -/
theorem calls_linear_overlapping
    : ∃ history, ∃ final : Config (Fin 3) Op Db Place Result,
        Run sections.step (Config.start ⟨[5], plainHeap⟩) history final
        ∧ (∃ base,
            Replays (fun op base state result => atomically op base = .ok (state, result))
              ⟨[5], plainHeap⟩ overlapped base
            ∧ ((∀ thread op, final.held thread = some op → sections.writes op = false) →
                final.state = base))
        ∧ ∃ thread,
            GoesOn sections final thread
            ∨ Faults sections final thread .purge
            ∨ Faults sections final thread .display
              ∧ ∃ client ∈ final.state.clients, final.state.heap.objects client = none := by
  obtain ⟨history, final, run, unpurged, log, asked, -⟩ := run_overlapping
  have asks : Guarded sections.Asks history :=
    fun visit member thread op called misplaced =>
      unpurged visit member thread (misplaced_iff.mp misplaced ▸ called)
  obtain ⟨replays, goes⟩ := calls_linear run (placed_of_run run asks).2
  refine ⟨history, final, run, log ▸ replays, goes ⟨2, fun idle => ?_⟩⟩
  rw [idle] at asked
  cases asked

/-- Under its lock for reading, `Purge` deletes a client that a `Display` is about to show. -/
example
    : execute sections.step (Config.start ⟨[5], plainHeap⟩ : Config Nat Op Db Place Result)
        [
          .call 0 .purge, .call 1 .display, .lock 0, .lock 1, .turn 0, .turn 1, .turn 0, .turn 1
        ]
      = .error (some .useAfterFree) :=
  rfl

/-- In a run without a `Purge` no client that is added is lost, doubled or put before an
earlier one, and every `Copy` returns the clients of one moment: those that were there, and
those of the calls of `Update` that were completed before it.
-/
theorem copies_are_snapshots (run : Run sections.step (Config.start initial) history final)
    (unpurged
      : ∀ visit ∈ history, ∀ thread : Thread, visit.2 ≠ .call thread .purge)
    : (∀ earlier thread result later,
        final.log = earlier ++ ⟨thread, .copy, result⟩ :: later →
          result = .clients (initial.clients ++ added earlier))
      ∧ ((∀ thread client, final.held thread ≠ some (.update client)) →
          final.state = { initial with clients := initial.clients ++ added final.log }) := by
  have asks : Guarded sections.Asks history := by
    intro visit member thread op called misplaced
    rw [misplaced_iff.mp misplaced] at called
    exact unpurged visit member thread called
  have serial := serial_of_run run asks
  obtain ⟨base, replays, -, settled⟩ := serial.replayed
  have kept : ∀ completion ∈ final.log, completion.op ≠ .purge :=
    fun completion member purge => serial.log completion member (misplaced_iff.mpr purge)
  refine ⟨fun earlier thread result later split => ?_, fun unheld => ?_⟩
  · obtain ⟨before, after, first, completed⟩ := replays.split split
    rw [split] at kept
    have does := atomically_of_completes completed
    rw [added_of_replays first (List.forall_mem_append.mp kept).1] at does
    cases does
    rfl
  · refine (settled (fun thread op holds => ?_)).trans (added_of_replays replays kept)
    cases op with
    | update client => exact absurd holds (unheld thread client)
    | copy => rfl
    | display => rfl
    | purge =>
        have asked := Phase.asked_of_held holds
        exact absurd (misplaced_iff.mpr rfl) (serial.phases thread .purge asked)

/-- Two copies are taken before a client is added, and one after it. -/
theorem copies_are_snapshots_overlapping
    : ∃ history, ∃ final : Config (Fin 3) Op Db Place Result,
        Run sections.step (Config.start ⟨[5], plainHeap⟩) history final
        ∧ final.log = overlapped
        ∧ (∀ earlier thread result later,
            final.log = earlier ++ ⟨thread, .copy, result⟩ :: later →
              result = .clients ([5] ++ added earlier))
        ∧ final.state = ⟨[5] ++ added overlapped, plainHeap⟩ := by
  obtain ⟨history, final, run, unpurged, log, -, unheld⟩ := run_overlapping
  obtain ⟨snapshots, state⟩ := copies_are_snapshots run unpurged
  refine ⟨history, final, run, log, snapshots, log ▸ state (fun thread client held => ?_)⟩
  rw [unheld thread] at held
  cases held

end Threads

end Ethnm.LockedDb
