import Ethnm.Server.Deliveries
import Ethnm.Server.Listening
import Ethnm.Server.OneThread

/-! From the sockets to the handlers of the clients. All client services' threads receive into
one buffer. As there is only ever one of them, what it has received for a client is what it hands
over, in every interleaving with the rest of the server.
-/

namespace Ethnm
open Runs

/-- The client services' threads. -/
def System.ids (system : System) : List Nat :=
  system.serviceThreads.map (·.id)

/-- Whether a step cancels a client service's thread. -/
def System.cancels (system : System) : Action → Bool
  | .main =>
      match system.main with
      | .stopServiceStopThread _ => true
      | _ => false
  | .accept index =>
      match system.acceptThreads[index]? with
      | some (.stopThread _ _) => true
      | _ => false
  | _ => false

/-- Whether a thread is about to hand over what it has received for a client. -/
def Loop.handsTo (client : Address) : Loop → Bool
  | .handOver _ _ served => served = client
  | _ => false

namespace Session

/-- What an event receives for a client. -/
def reception (client : Address) (session : Session) : Event → Option (List UInt8)
  | .serve index => do
      let thread ← session.system.serviceThreads[index]?
      match session.loops thread.id with
      | .receive round turn =>
          let service ← session.system.services thread.service
          let object ← session.system.heap.objects client
          if service.clients[turn]? = some client then
            some (round.chunk turn object.fd [])
          else
            none
      | _ => none
  | _ => none

/-- What was received for a client, in its order. -/
def receptions (client : Address) (history : List (Session × Event)) : List (List UInt8) :=
  history.filterMap (fun visit => visit.1.reception client visit.2)

/-- What a thread is about to hand over for a client. -/
def held (client : Address) (session : Session) (id : Nat) : Option (List UInt8) :=
  if (session.loops id).handsTo client then
    some (session.data.take (session.dataLen id).toNat)
  else
    none

/-- What the threads are about to hand over for a client. -/
def pending (client : Address) (session : Session) : List (List UInt8) :=
  session.system.ids.filterMap (session.held client)

/-- Whether an event cancels a client service's thread. -/
def cancels (session : Session) : Event → Bool
  | .server action => session.system.cancels action
  | .add index => { session.system with acceptThreads := session.adders }.cancels (.accept index)
  | _ => false

/-- No thread is cancelled between the `recvfrom` that gives it a client's bytes and their
hand-over: there is no cancellation point in between.
-/
def Deferred (client : Address) (session : Session) (event : Event) : Prop :=
  session.cancels event → ∀ id ∈ session.system.ids, ¬ (session.loops id).handsTo client

instance (client : Address) (session : Session) (event : Event)
    : Decidable (session.Deferred client event) :=
  inferInstanceAs (Decidable (_ → _))

/-- When a client has its turn, its socket has bytes for it. -/
def Supplied (client : Address) (session : Session) (event : Event) : Prop :=
  session.reception client event ≠ some []

instance (client : Address) (session : Session) (event : Event)
    : Decidable (session.Supplied client event) :=
  inferInstanceAs (Decidable (_ ≠ _))

/-- What is about to be handed over for a client is at the start of the buffer, and counted. -/
structure Conveys (client : Address) (session : Session) : Prop where
  lone : session.Lone
  unused : ∀ id, session.system.fresh ≤ id → session.loops id = .select
  room : session.data.length = kBufferSize
  counted
    : ∀ id ∈ session.system.ids, (session.loops id).handsTo client →
        ∃ length : Nat, 0 < length ∧ length ≤ kBufferSize ∧ session.dataLen id = length

end Session

-----------------------------------------------------------------------------------------
-- Steps
-----------------------------------------------------------------------------------------

/-- A step leaves the threads as they are, begins one, or ends some. -/
theorem ids_of_stepped {system after : System} {action : Action}
    (stepped : Stepped system action after)
    : after.ids = system.ids
      ∨ after.ids = system.ids ++ [system.fresh]
      ∨ system.cancels action = true ∧ after.ids ⊆ system.ids := by
  have set {index : Nat} {thread : ServiceThread} (prologue : Prologue)
      (there : system.serviceThreads[index]? = some thread)
      : (system.serviceThreads.set index { thread with prologue }).map (·.id) = system.ids := by
    refine List.ext_getElem? (fun position => ?_)
    rw [System.ids, List.getElem?_map, List.getElem?_map]
    by_cases here : index = position
    · subst here
      obtain ⟨bound, -⟩ := List.getElem?_eq_some_iff.mp there
      rw [List.getElem?_set_self bound, there]
      rfl
    · rw [List.getElem?_set_ne here]
  have filtered (id : Nat)
      : (system.serviceThreads.filter (·.id ≠ id)).map (·.id) ⊆ system.ids :=
    List.map_subset _ List.filter_sublist.subset
  cases stepped with
  | aside isMain aside => exact .inl (congrArg (List.map _) aside.serviceThreads)
  | mainStopThread main current found created =>
      refine .inr (.inr ⟨?_, filtered _⟩)
      rw [System.cancels, main]
  | stopThread stopping found created =>
      refine .inr (.inr ⟨?_, filtered _⟩)
      rw [System.cancels, stopping]
  | mainStartThread main current found done => exact .inr (.inl List.map_append)
  | startThread starting found => exact .inr (.inl List.map_append)
  | test testing prologue => exact .inl (set _ testing)
  | copy copying prologue found stored => exact .inl (set _ copying)
  | _ => exact .inl rfl

namespace Session

section Steps

variable {client : Address} {session after : Session} {event : Event}

/-- The threads that there are now have nothing for the client in hand that they had not before,
and nothing of that is lost.
-/
theorem Conveys.pending_of_ids (conveys : session.Conveys client)
    (deferred : session.Deferred client event) {ids : List Nat}
    (ends
      : ids = session.system.ids
        ∨ ids = session.system.ids ++ [session.system.fresh]
        ∨ session.cancels event = true ∧ ids ⊆ session.system.ids)
    : ids.filterMap (session.held client) = session.pending client
      ∧ ∀ id ∈ ids, (session.loops id).handsTo client → id ∈ session.system.ids := by
  rcases ends with rfl | rfl | ⟨cancels, fewer⟩
  · exact ⟨rfl, fun id member _ => member⟩
  · have idle : session.loops session.system.fresh = .select :=
      conveys.unused _ (Nat.le_refl _)
    refine ⟨?_, fun id member hands => ?_⟩
    · rw [List.filterMap_append, pending]
      simp [held, idle, Loop.handsTo]
    · rcases List.mem_append.mp member with before | new
      · exact before
      · rw [List.mem_singleton.mp new, idle] at hands
        cases hands
  · have nothing := deferred cancels
    refine ⟨?_, fun id member _ => fewer member⟩
    have none (id : Nat) (member : id ∈ session.system.ids) : session.held client id = none :=
      if_neg (nothing id member)
    rw [pending, List.filterMap_eq_nil_iff.mpr none,
      List.filterMap_eq_nil_iff.mpr (fun id member => none id (fewer member))]

/-- The threads change, and nothing that they receive into. -/
theorem Conveys.threads (conveys : session.Conveys client)
    (deferred : session.Deferred client event) (lone : after.Lone)
    (fresh : session.system.fresh ≤ after.system.fresh) (loops : after.loops = session.loops)
    (data : after.data = session.data) (dataLen : ∀ id, after.dataLen id = session.dataLen id)
    (ends
      : after.system.ids = session.system.ids
        ∨ after.system.ids = session.system.ids ++ [session.system.fresh]
        ∨ session.cancels event = true ∧ after.system.ids ⊆ session.system.ids)
    : after.Conveys client ∧ after.pending client = session.pending client := by
  obtain ⟨same, stays⟩ := conveys.pending_of_ids deferred ends
  have held : after.held client = session.held client := by
    funext id
    rw [Session.held, loops, data, dataLen id]
    rfl
  refine ⟨⟨lone, fun id unused => ?_, data ▸ conveys.room, fun id member hands => ?_⟩, ?_⟩
  · rw [loops]
    exact conveys.unused id (Nat.le_trans fresh unused)
  · rw [loops] at hands
    rw [dataLen id]
    exact conveys.counted id (stays id member hands) hands
  · rw [pending, held]
    exact same

/-- What was pending for a client, or is received for it, is handed over or pending. -/
def Passes (client : Address) (session : Session) (event : Event) (after : Session) : Prop :=
  session.pending client ++ (session.reception client event).toList
    = (session.arrival client event).toList.map Arrival.chunk ++ after.pending client

/-- An event for which nothing is received and nothing handed over. -/
theorem passes_of_pending (received : session.reception client event = none)
    (arrived : session.arrival client event = none)
    (same : after.pending client = session.pending client)
    : session.Passes client event after := by
  rw [Passes, received, arrived, same]
  exact List.append_nil _

/-- The only thread goes on in its loop. -/
theorem Conveys.turn (conveys : session.Conveys client) {index : Nat} {thread : ServiceThread}
    (present : session.system.serviceThreads[index]? = some thread) (lone : after.Lone)
    (fresh : after.system.fresh = session.system.fresh)
    (threads : after.system.serviceThreads = session.system.serviceThreads) {loop : Loop}
    (loops : after.loops = fun id => if id = thread.id then loop else session.loops id)
    (room : after.data.length = kBufferSize)
    (counted
      : loop.handsTo client = true →
          ∃ length : Nat,
            0 < length ∧ length ≤ kBufferSize ∧ after.dataLen thread.id = length)
    : after.Conveys client
      ∧ session.pending client = (session.held client thread.id).toList
      ∧ after.pending client = (after.held client thread.id).toList := by
  have only := conveys.lone.eq_singleton present
  have ids : session.system.ids = [thread.id] := by rw [System.ids, only]; rfl
  have now : after.system.ids = [thread.id] := by rw [System.ids, threads, only]; rfl
  refine ⟨⟨lone, fun id unused => ?_, room, fun id member hands => ?_⟩, ?_, ?_⟩
  · rw [fresh] at unused
    rw [loops]
    have created : thread.id < session.system.fresh := by
      obtain ⟨-, stops, live, crewed, balanced⟩ := conveys.lone
      exact crewed.fresh.threads thread (List.mem_of_getElem? present)
    exact (if_neg (by omega)).trans (conveys.unused id unused)
  · rw [now] at member
    obtain rfl := List.mem_singleton.mp member
    rw [loops] at hands
    exact counted ((congrArg _ (if_pos rfl)).symm.trans hands)
  · rw [pending, ids, List.filterMap_cons]
    cases session.held client thread.id <;> rfl
  · rw [pending, now, List.filterMap_cons]
    cases after.held client thread.id <;> rfl

theorem held_of_loop {id : Nat} {loop : Loop} (loops : session.loops id = loop)
    (idle : loop.handsTo client = false)
    : session.held client id = none := by
  rw [held, loops, idle]
  rfl

/-- A turn receives for its own client. -/
theorem reception_serve {index : Nat} {thread : ServiceThread} {round : Round} {turn : Nat}
    {service : ClientService} {served : Address} {object : TcpClient}
    (present : session.system.serviceThreads[index]? = some thread)
    (receiving : session.loops thread.id = .receive round turn)
    (found : session.system.services thread.service = some service)
    (here : service.clients[turn]? = some served)
    (there : session.system.heap.objects served = some object)
    : session.reception client (.serve index)
      = if served = client then some (round.chunk turn object.fd []) else none := by
  unfold reception
  simp only [present, receiving, found, here, Option.bind_eq_bind, Option.bind_some,
    Option.some.injEq]
  split
  · rename_i same
    subst same
    rw [there]
    rfl
  · cases session.system.heap.objects client <;> rfl

/-- A turn receives what it is then about to hand over. -/
theorem Conveys.receive (conveys : session.Conveys client) {index : Nat} {thread : ServiceThread}
    {round : Round} {turn : Nat} {service : ClientService} {served : Address} {object : TcpClient}
    (present : session.system.serviceThreads[index]? = some thread)
    (receiving : session.loops thread.id = .receive round turn)
    (found : session.system.services thread.service = some service)
    (here : service.clients[turn]? = some served)
    (there : session.system.heap.objects served = some object)
    (supplied : session.Supplied client (.serve index)) {filled : Session}
    (fills
      : filled
        = if round.activeFdSet object.fd then session.fill thread.id (round.recvfrom turn)
          else session)
    (lone : (filled.setLoop thread.id (.handOver round turn served)).Lone)
    (room : filled.data.length = kBufferSize)
    : (filled.setLoop thread.id (.handOver round turn served)).Conveys client
      ∧ session.Passes client (.serve index)
          (filled.setLoop thread.id (.handOver round turn served)) := by
  have receives := @reception_serve client session index thread round turn service served object
    present receiving found here there
  have arrived : session.arrival client (.serve index) = none := by
    simp only [arrival, present, receiving]
  obtain ⟨system, loops⟩ : filled.system = session.system ∧ filled.loops = session.loops := by
    rw [fills]
    split <;> exact ⟨rfl, rfl⟩
  -- The client's own turn finds its socket ready.
  have bytes (same : served = client)
      : round.chunk turn object.fd [] ≠ []
        ∧ (round.chunk turn object.fd []).length ≤ kBufferSize
        ∧ filled.dataLen thread.id = (round.chunk turn object.fd []).length
        ∧ filled.data.take (round.chunk turn object.fd []).length
          = round.chunk turn object.fd [] := by
    rw [Supplied, receives, if_pos same] at supplied
    have nonempty : round.chunk turn object.fd [] ≠ [] := fun none => supplied (congrArg _ none)
    obtain ⟨ready, sized, result⟩ := Round.bytes_of_chunk nonempty
    rw [if_pos ready, result] at fills
    refine ⟨nonempty, sized, ?_, ?_⟩
    · rw [fills]
      exact congrArg (Option.getD · _) (if_pos rfl)
    · rw [fills]
      exact List.take_left
  obtain ⟨kept, before, now⟩ := conveys.turn present lone (by rw [← system]; rfl)
    (by rw [← system]; rfl) (by rw [← loops]; rfl) room (fun hands => by
      obtain ⟨nonempty, sized, counted, -⟩ := bytes (of_decide_eq_true hands)
      exact ⟨_, List.length_pos_of_ne_nil nonempty, sized, counted⟩)
  refine ⟨kept, ?_⟩
  have idle : session.held client thread.id = none := held_of_loop receiving rfl
  have goes : (filled.setLoop thread.id (.handOver round turn served)).loops thread.id
      = .handOver round turn served :=
    if_pos rfl
  rw [Passes, before, idle, now, arrived, receives]
  by_cases same : served = client
  · obtain ⟨-, -, counted, shown⟩ := bytes same
    have hands : (Loop.handOver round turn served).handsTo client = true := decide_eq_true same
    change _ = [] ++ Option.toList (if _ then some (filled.data.take _) else none)
    rw [goes, if_pos hands, if_pos same]
    change _ = Option.toList (some (filled.data.take (filled.dataLen thread.id).toNat))
    rw [counted, Int.toNat_natCast, shown]
    rfl
  · rw [if_neg same, held_of_loop goes (decide_eq_false same)]
    rfl

/-- A turn hands over what it has received. -/
theorem Conveys.handOver (conveys : session.Conveys client) {index : Nat}
    {thread : ServiceThread} {round : Round} {turn : Nat} {served : Address}
    (present : session.system.serviceThreads[index]? = some thread)
    (handing : session.loops thread.id = .handOver round turn served) {heap : ClientHeap}
    {data : List UInt8} {seen : List Observation}
    (next
      : after
        = { session.observe seen with system := { session.system with heap }, data }.setLoop
            thread.id (.receive round (turn + 1)))
    (lone : after.Lone) (room : after.data.length = kBufferSize)
    : after.Conveys client ∧ session.Passes client (.serve index) after := by
  obtain ⟨kept, before, now⟩ := conveys.turn present lone (by rw [next]; rfl)
    (by rw [next]; rfl) (by rw [next]; rfl) room (fun hands => by cases hands)
  refine ⟨kept, ?_⟩
  have goes : after.loops thread.id = .receive round (turn + 1) := by
    rw [next]
    exact if_pos rfl
  have received : session.reception client (.serve index) = none := by
    simp only [reception, present, handing, Option.bind_eq_bind, Option.bind_some]
  rw [Passes, before, now, received, held_of_loop goes rfl]
  by_cases same : served = client
  · have hands : (session.loops thread.id).handsTo client = true := by
      rw [handing]
      exact decide_eq_true same
    have member : thread.id ∈ session.system.ids :=
      List.mem_map.mpr ⟨thread, List.mem_of_getElem? present, rfl⟩
    obtain ⟨length, positive, fits, counted⟩ := conveys.counted thread.id member hands
    have size : (UInt16.ofInt (session.dataLen thread.id)).toNat = length := by
      rw [counted, toNat_ofInt_length fits]
    have sizes : 0 < (session.data.take length).length
        ∧ (session.data.take length).length ≤ kBufferSize := by
      rw [List.length_take, conveys.room, Nat.min_eq_left fits]
      exact ⟨positive, fits⟩
    have arrived : session.arrival client (.serve index)
        = some ⟨session.data.take length, round.around turn, sizes.1, sizes.2⟩ := by
      simp only [arrival, present, handing, if_pos same, size]
      exact dif_pos sizes
    rw [arrived, held, if_pos hands, counted]
    rfl
  · have arrived : session.arrival client (.serve index) = none := by
      simp only [arrival, present, handing, if_neg same]
    rw [arrived, held_of_loop handing (decide_eq_false same)]
    rfl

/-- Whatever happens, what was received is handed over or still pending. -/
theorem Conveys.step {fuel : Nat} (conveys : session.Conveys client)
    (behaves : session.Behaves event) (deferred : session.Deferred client event)
    (supplied : session.Supplied client event) (stepped : session.step fuel event = .ok after)
    : after.Conveys client ∧ session.Passes client event after := by
  have did := did_of_step stepped
  have lone := (conveys.lone.step behaves did).1
  have room := (kept_of_did did).1 conveys.room
  -- Nothing but the loop itself receives, or hands anything over.
  have beside (received : session.reception client event = none)
      (arrived : session.arrival client event = none)
      (threads : after.Conveys client ∧ after.pending client = session.pending client)
      : after.Conveys client ∧ session.Passes client event after :=
    ⟨threads.1, passes_of_pending received arrived threads.2⟩
  cases did with
  | @server action system seen written moved silent =>
      have did := stepped_of_step behaves moved
      exact beside rfl rfl (conveys.threads deferred lone (fresh_le_of_stepped did) rfl rfl
        (fun _ => rfl) (ids_of_stepped did))
  | looks looks silent =>
      refine beside ?_ ?_ (conveys.threads deferred lone (Nat.le_refl _) rfl rfl (fun _ => rfl)
        (.inl rfl))
      all_goals cases event <;> first | rfl | cases looks
  | setBit bit =>
      exact beside rfl rfl (conveys.threads deferred lone (Nat.le_refl _) rfl rfl (fun _ => rfl)
        (.inl rfl))
  | unSetBit bit =>
      exact beside rfl rfl (conveys.threads deferred lone (Nat.le_refl _) rfl rfl (fun _ => rfl)
        (.inl rfl))
  | addClient added =>
      exact beside rfl rfl (conveys.threads deferred lone (Nat.le_succ _) rfl rfl (fun _ => rfl)
        (.inl rfl))
  | @add index added moved =>
      have did := stepped_of_acceptStep moved
      have fresh := fresh_le_of_stepped did
      exact beside rfl rfl (conveys.threads deferred lone fresh rfl rfl (fun _ => rfl)
        (ids_of_stepped did))
  | destroy => exact behaves.elim
  | @select index thread round present selecting =>
      obtain ⟨kept, before, now⟩ := conveys.turn present lone rfl rfl rfl room
        (fun hands => by cases hands)
      refine ⟨kept, passes_of_pending rfl rfl ?_⟩
      rw [before, now, held_of_loop selecting rfl, held_of_loop (if_pos rfl) rfl]
  | @clear index thread round turn service data present receiving found ended sized =>
      obtain ⟨kept, before, now⟩ := conveys.turn present lone rfl rfl rfl room
        (fun hands => by cases hands)
      refine ⟨kept, passes_of_pending ?_ ?_ ?_⟩
      · simp [reception, present, receiving, found, ended]
      · simp only [arrival, present, receiving]
      · rw [before, now, held_of_loop receiving rfl, held_of_loop (if_pos rfl) rfl]
  | receive present receiving found here there =>
      exact conveys.receive present receiving found here there supplied rfl lone room
  | handOver present handing others silent sized =>
      exact conveys.handOver present handing rfl lone room

end Steps

/-- What a run has received for a client, and one more event. -/
theorem receptions_snoc (client : Address) (history : List (Session × Event)) (session : Session)
    (event : Event)
    : receptions client (history ++ [(session, event)])
      = receptions client history ++ (session.reception client event).toList := by
  rw [receptions, List.filterMap_append, List.filterMap_cons, List.filterMap_nil]
  cases session.reception client event <;> rfl

/-- What was received for a client was handed over, or is pending. -/
structure Conveyed (client : Address) (history : List (Session × Event)) (session : Session)
    : Prop
    extends session.Conveys client where
  received
    : receptions client history
      = (arrivals client history).map Arrival.chunk ++ session.pending client

theorem conveyed_construct {prior : PriorContents}
    (listening : prior.state &&& tcpServerNotListeningClients = 0#32) (client : Address)
    : Conveyed client [] (construct prior) :=
  ⟨⟨lone_construct listening, fun _ _ => rfl, List.length_replicate,
    fun _ none => absurd none List.not_mem_nil⟩, rfl⟩

theorem Conveyed.step {fuel : Nat} {client : Address} {history : List (Session × Event)}
    {session after : Session} {event : Event} (conveyed : Conveyed client history session)
    (behaves : session.Behaves event) (deferred : session.Deferred client event)
    (supplied : session.Supplied client event) (stepped : session.step fuel event = .ok after)
    : Conveyed client (history ++ [(session, event)]) after := by
  obtain ⟨conveys, passes⟩ := conveyed.toConveys.step behaves deferred supplied stepped
  refine ⟨conveys, ?_⟩
  rw [receptions_snoc, arrivals_snoc, conveyed.received, List.append_assoc, passes,
    List.map_append, List.append_assoc]

/-- In every run there is at most one client service's thread, and what the threads have received
for a client is what they have handed over for it, and what the one at its turn is about to hand
over: nothing is lost, torn or mixed with what is received for other clients, though all threads
receive into one buffer and are cancelled and started again; by induction on the run.
-/
theorem receptions_of_run {fuel : Nat} {prior : PriorContents}
    {history : List (Session × Event)} {session : Session}
    (run : Run (Session.step fuel) (construct prior) history session)
    (listening : prior.state &&& tcpServerNotListeningClients = 0#32)
    (behaves : Guarded Behaves history) {client : Address}
    (deferred : Guarded (Deferred client) history) (supplied : Guarded (Supplied client) history)
    : session.system.serviceThreads.length ≤ 1
      ∧ receptions client history
        = (arrivals client history).map Arrival.chunk ++ session.pending client := by
  have allowed
      : Guarded (fun session event => session.Behaves event ∧ session.Deferred client event
          ∧ session.Supplied client event) history :=
    fun visit member => ⟨behaves visit member, deferred visit member, supplied visit member⟩
  have conveyed : Conveyed client history session :=
    run.induction allowed (conveyed_construct listening client)
      (fun _ _ _ _ conveyed allowed stepped =>
        conveyed.step allowed.1 allowed.2.1 allowed.2.2 stepped)
  exact ⟨conveyed.lone.single, conveyed.received⟩

/-- A client that the application has added is served; then another one connects, for which the
thread is started again, and the first one is at its next turn.
-/
def restartedEvents : List Event :=
  startedEvents ++ [.addClient ⟨4, some (.fixed 1, .create kBcbSize)⟩] ++ servedEvents
  ++ [.server (.connect 0 7)] ++ List.replicate 6 (.server (.accept 0))
  ++ [.server (.service 0), .select 0 hiRound, .serve 0]

/-- Of two chunks that the first client was sent, one is still to be handed over. -/
theorem receptions_of_run_restarted
    : ∃ (history : List (Session × Event)) (session : Session),
        session.pending 3 = [[104, 105]]
        ∧ session.system.serviceThreads.length ≤ 1
        ∧ receptions 3 history
          = (arrivals 3 history).map Arrival.chunk ++ session.pending 3 := by
  have passed : executesTo (Session.step 10241) (construct zeroContents) restartedEvents
      (fun history session =>
        decide (Guarded Behaves history
          ∧ Guarded (Deferred 3) history
          ∧ Guarded (Supplied 3) history
          ∧ session.pending 3 = [[104, 105]]))
      = true := by decide +kernel
  obtain ⟨history, session, run, test⟩ := exists_run_of_executesTo passed
  obtain ⟨behaves, deferred, supplied, pending⟩ := of_decide_eq_true test
  exact ⟨history, session, pending, receptions_of_run run (by decide) behaves deferred supplied⟩

end Session

end Ethnm
