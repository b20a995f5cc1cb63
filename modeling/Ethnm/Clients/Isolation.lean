import Ethnm.Clients.ServiceLoop
import Ethnm.Library.ListCursor
import Ethnm.Library.Runs

/-! Which bytes a client's handler is given. A turn gives its client genuine bytes when the
client was ready and `recvfrom` did not fail; in every other turn a handler is given what an
earlier turn has left in the shared buffer.
-/

namespace Ethnm
open ListCursor

/-- A client's calls go to its delimiter, or to the application if it has registered. -/
def TcpClient.Handled (registered : Bool) (client : TcpClient) : Prop :=
  client.msgDelimiter.isSome ∨ registered = true

/-- The client of the call was ready in that round, and the call was given the bytes that
`recvfrom` returned for the client's own descriptor in that turn.
-/
def Invocation.Genuine (objects : Address → Option TcpClient) (clients : List Address)
    (invocation : Invocation)
    : Prop :=
  clients[invocation.turn]? = some invocation.client
  ∧ ∃ object, objects invocation.client = some object
    ∧ invocation.round.activeFdSet object.fd = true
    ∧ ∃ stored sized, invocation.round.recvfrom invocation.turn = .bytes stored sized
      ∧ invocation.size.toNat = stored.length
      ∧ invocation.data.take stored.length = stored

/-- The turn's client has no handler, or is ready and has not failed to receive. -/
def Round.TurnReady (round : Round) (registered : Bool) (turn : Nat) (object : TcpClient)
    : Prop :=
  object.Handled registered →
    round.activeFdSet object.fd = true ∧ round.recvfrom turn ≠ .error

/-- All turns of the round are ready. -/
def Round.AllReady (round : Round) (registered : Bool) (objects : Address → Option TcpClient)
    (clients : List Address)
    : Prop :=
  ∀ turn client object, clients[turn]? = some client → objects client = some object →
    round.TurnReady registered turn object

/-- The objects have the descriptors and handlers that they had at first, and the receive
buffer has its size.
-/
structure Service.Sound (objects : Address → Option TcpClient) (service : Service) : Prop where
  same : ∀ client, (service.objects client).map (fun object =>
      (object.fd, object.msgDelimiter.isSome))
    = (objects client).map (fun object => (object.fd, object.msgDelimiter.isSome))
  room : service.data.length = kBufferSize

/-- No call has been given other bytes than its client's. -/
def Service.Isolates (objects : Address → Option TcpClient) (clients : List Address)
    (service : Service)
    : Prop :=
  ∀ invocation ∈ service.invocations, invocation.Genuine objects clients

/-- A length that fits is not changed by the conversion of `data_len`. -/
theorem toNat_ofInt_length {length : Nat} (fits : length ≤ kBufferSize)
    : (UInt16.ofInt length).toNat = length := by
  unfold kBufferSize at fits
  rw [UInt16.ofInt, UInt16.toNat_ofNat']
  omega

/-- A received buffer keeps its size. -/
theorem Recvfrom.length_fill (result : Recvfrom) {data : List UInt8}
    (room : data.length = kBufferSize)
    : (result.fill data).length = kBufferSize := by
  cases result with
  | error => exact room
  | bytes stored sized =>
      rw [Recvfrom.fill, List.length_append, List.length_drop, room]
      omega

section Turns

variable {objects : Address → Option TcpClient} {clients : List Address} {service : Service}
  {registered : Bool} {fuel : Nat} {round : Round} {turn : Nat} {client : Address}

namespace Service.Sound

/-- An object now is what it was at first, up to what its delimiter holds. -/
theorem object (sound : service.Sound objects) {object : TcpClient}
    (present : service.objects client = some object)
    : ∃ first, objects client = some first
      ∧ first.fd = object.fd
      ∧ first.msgDelimiter.isSome = object.msgDelimiter.isSome := by
  have same := sound.same client
  rw [present, Option.map_some] at same
  obtain ⟨first, first_eq, pair⟩ := Option.map_eq_some_iff.mp same.symm
  rw [Prod.mk.injEq] at pair
  exact ⟨first, first_eq, pair⟩

/-- A client without a delimiter stays without one. -/
theorem plain (sound : service.Sound objects) {fd : Nat}
    (present : objects client = some ⟨fd, none⟩)
    : service.objects client = some ⟨fd, none⟩ := by
  have same := sound.same client
  rw [present] at same
  obtain ⟨⟨now, handler⟩, current, pair⟩ := Option.map_eq_some_iff.mp same
  obtain ⟨rfl, handler_eq⟩ := Prod.mk.inj pair
  cases handler with
  | none => exact current
  | some handler => cases handler_eq

theorem receive (sound : service.Sound objects) (round : Round) (turn fd : Nat)
    : (service.receive round turn fd).Sound objects := by
  unfold Service.receive
  split
  · exact ⟨sound.same, Recvfrom.length_fill _ sound.room⟩
  · exact sound

/-- The calls of the listener do not matter. -/
theorem hear (sound : service.Sound objects) (heard : List Heard)
    : (service.hear heard).Sound objects :=
  ⟨sound.same, sound.room⟩

/-- Changing what a delimiter holds is allowed. -/
theorem store (sound : service.Sound objects) {object next : TcpClient}
    (present : service.objects client = some object) (fd_eq : next.fd = object.fd)
    (handler_eq : next.msgDelimiter.isSome = object.msgDelimiter.isSome)
    : (service.store client next).Sound objects := by
  refine ⟨fun other => ?_, sound.room⟩
  have same := sound.same client
  rw [Service.store]
  by_cases here : other = client
  · rw [present, Option.map_some] at same
    simp only [here, if_true, Option.map_some, fd_eq, handler_eq, same]
  · simp only [here, if_false]
    exact sound.same other

/-- Clearing the receive buffer is allowed, also when it overruns it. -/
theorem clear (sound : service.Sound objects)
    : (ServiceOutcome.service service.clear).Sound objects := by
  unfold Service.clear
  simp only
  split
  · refine ⟨sound.same, ?_⟩
    change (List.replicate _ 0 ++ service.data.drop _).length = _
    rw [List.length_append, List.length_replicate, List.length_drop, ← sound.room]
    omega
  · exact sound

end Service.Sound

/-- In a ready turn the call is given what was received in it. -/
theorem Service.Isolates.invoke (isolates : service.Isolates objects clients)
    (sound : service.Sound objects) {object : TcpClient}
    (present : service.objects client = some object)
    (position : clients[turn]? = some client)
    (active : round.activeFdSet object.fd = true) (received : round.recvfrom turn ≠ .error)
    : ((service.receive round turn object.fd).invoke round turn client).Isolates objects
        clients := by
  obtain ⟨first, first_eq, fd_eq, -⟩ := sound.object present
  intro invocation member
  rcases List.mem_append.mp member with old | new
  · rw [Service.invocations_receive] at old
    exact isolates invocation old
  · rw [List.mem_singleton.mp new]
    refine ⟨position, first, first_eq, fd_eq ▸ active, ?_⟩
    cases result : round.recvfrom turn with
    | error => exact absurd result received
    | bytes stored sized =>
        refine ⟨stored, sized, rfl, ?_, ?_⟩
        · simp only [Service.receive, active, if_true, result, Recvfrom.dataLen]
          exact toNat_ofInt_length sized
        · simp only [Service.receive, active, if_true, result, Recvfrom.fill]
          exact List.take_left

/-- What a turn has done when it ends, whether or not it returns: without a handler it makes
no call; with one it makes exactly one.
-/
theorem serveClient_cases (registered : Bool) (fuel : Nat) (round : Round) (turn : Nat)
    {object : TcpClient} (present : service.objects client = some object)
    (sound : service.Sound objects)
    : let served := ServiceOutcome.service
        (serveClient registered fuel round turn client service)
      let received := service.receive round turn object.fd
      served.Sound objects
      ∧ (object.Handled registered
          → served.invocations = (received.invoke round turn client).invocations)
      ∧ (¬ object.Handled registered → served.invocations = service.invocations) := by
  have kept := sound.receive round turn object.fd
  have unchanged : ((service.receive round turn object.fd).invoke round turn
      client).objects client = some object :=
    (congrFun (service.objects_receive round turn object.fd) client).trans present
  rw [serveClient, present]
  cases handler : object.msgDelimiter with
  | some delimiter =>
      have handled : object.Handled registered := .inl (by rw [handler]; rfl)
      simp only [handler]
      have invoked : ((service.receive round turn object.fd).invoke round turn client).Sound
          objects := ⟨kept.same, kept.room⟩
      generalize process delimiter.1 fuel (round.around turn) _ _ _ = outcome
      split
      · exact ⟨invoked, fun _ => rfl, fun none => absurd handled none⟩
      · cases outcome with
        | error stop => exact ⟨invoked.hear _, fun _ => rfl, fun none => absurd handled none⟩
        | ok progress =>
            exact ⟨(invoked.hear _).store unchanged rfl (by rw [handler]; rfl), fun _ => rfl,
              fun none => absurd handled none⟩
  | none =>
      simp only [handler]
      by_cases listens : registered = true
      · rw [if_pos listens]
        refine ⟨⟨kept.same, ?_⟩, fun _ => rfl, fun none => absurd (.inr listens) none⟩
        exact ((round.around turn).length_received 0 _).trans kept.room
      · rw [if_neg listens]
        refine ⟨kept, fun handled => ?_, fun _ => Service.invocations_receive _ _ _ _⟩
        rcases handled with delimiter | registers
        · rw [handler] at delimiter
          cases delimiter
        · exact absurd registers listens

/-- A turn keeps what is sound, and a ready turn also keeps the isolation. -/
theorem Service.Sound.after_serveClient (sound : service.Sound objects)
    : (ServiceOutcome.service (serveClient registered fuel round turn client service)).Sound
        objects := by
  cases present : service.objects client with
  | none =>
      rw [serveClient, present]
      exact sound
  | some object => exact (serveClient_cases registered fuel round turn present sound).1

theorem Service.Isolates.after_serveClient (isolates : service.Isolates objects clients)
    (sound : service.Sound objects) (position : clients[turn]? = some client)
    (ready : ∀ object, objects client = some object →
      round.TurnReady registered turn object)
    : (ServiceOutcome.service
        (serveClient registered fuel round turn client service)).Isolates objects clients := by
  cases present : service.objects client with
  | none =>
      rw [serveClient, present]
      exact isolates
  | some object =>
      obtain ⟨first, first_eq, fd_eq, handler_eq⟩ := sound.object present
      obtain ⟨-, handled, unhandled⟩ :=
        serveClient_cases registered fuel round turn present sound
      have ready := ready first first_eq
      rw [Round.TurnReady, TcpClient.Handled, fd_eq, handler_eq] at ready
      by_cases handles : object.Handled registered
      · obtain ⟨active, received⟩ := ready handles
        rw [Service.Isolates, handled handles]
        exact isolates.invoke sound present position active received
      · rw [Service.Isolates, unhandled handles]
        exact isolates

/-- Soundness and isolation together, as a run keeps them. -/
def Service.Kept (objects : Address → Option TcpClient) (clients : List Address)
    (service : Service)
    : Prop :=
  service.Sound objects ∧ service.Isolates objects clients

theorem Service.Kept.after_serveClient (kept : service.Kept objects clients)
    (ready : round.AllReady registered objects clients)
    (position : clients[turn]? = some client)
    : (ServiceOutcome.service (serveClient registered fuel round turn client service)).Kept
        objects clients := by
  refine ⟨kept.1.after_serveClient, ?_⟩
  exact kept.2.after_serveClient kept.1 position
    (fun object => ready turn client object position)

/-- Clearing the buffer makes no calls. -/
theorem Service.Kept.clear (kept : service.Kept objects clients)
    : (ServiceOutcome.service service.clear).Kept objects clients := by
  refine ⟨kept.1.clear, ?_⟩
  rw [Service.Isolates, Service.invocations_clear]
  exact kept.2

/-- What the turns of a round keep, the round keeps; by induction on the clients that are
still to be served.
-/
theorem kept_serveClients {kept : Service → Prop} {rest : List Address}
    (turns
      : ∀ {service turn client}, kept service → clients[turn]? = some client
        → kept (ServiceOutcome.service (serveClient registered fuel round turn client service)))
    (start : kept service) (position : clients.drop turn = rest)
    : kept (ServiceOutcome.service (serveClients registered fuel round turn rest service)) := by
  induction rest generalizing turn service with
  | nil => exact start
  | cons client rest ih =>
      have here := turns start (getElem?_of_drop_eq_cons position)
      refine ServiceOutcome.bind_kept kept here (fun served next => ?_)
      exact ih next (drop_succ_of_drop_eq_cons position)

/-- What turns keep, and the clearing of the buffer, the rounds keep; by induction on the
rounds.
-/
theorem kept_serveRounds {kept : Service → Prop} {rounds : List Round}
    (turns
      : ∀ round ∈ rounds, ∀ {service turn client}, kept service → clients[turn]? = some client
        → kept (ServiceOutcome.service (serveClient registered fuel round turn client service)))
    (clear : ∀ {service}, kept service → kept (ServiceOutcome.service service.clear))
    (start : kept service)
    : kept (ServiceOutcome.service
        (serveRounds registered fuel clients rounds service)) := by
  induction rounds generalizing service with
  | nil => exact start
  | cons round rest ih =>
      refine ServiceOutcome.bind_kept kept
        (kept_serveClients (turns round List.mem_cons_self) start rfl) (fun last served => ?_)
      refine ServiceOutcome.bind_kept kept (clear served) (fun next cleared => ?_)
      exact ih (fun other member => turns other (.tail _ member)) cleared

/-- Rounds that are all ready keep the isolation. -/
theorem Service.Kept.after_serveRounds (kept : service.Kept objects clients)
    {rounds : List Round}
    (ready : ∀ round ∈ rounds, round.AllReady registered objects clients)
    : (ServiceOutcome.service (serveRounds registered fuel clients rounds service)).Kept
        objects clients :=
  kept_serveRounds
    (fun round member _ _ _ kept position =>
      Service.Kept.after_serveClient kept (ready round member) position)
    Service.Kept.clear kept

/-- The calls made in a round for the clients from some turn on. -/
def Service.HasCalls (objects : Address → Option TcpClient) (clients : List Address)
    (registered : Bool) (round : Round) (turn : Nat) (service : Service)
    : Prop :=
  ∀ later client object, turn ≤ later → clients[later]? = some client →
    objects client = some object → object.Handled registered →
      ∃ invocation ∈ service.invocations,
        invocation.round = round ∧ invocation.turn = later ∧ invocation.client = client

/-- Calls that were made stay made. -/
theorem Service.HasCalls.mono {later : Service}
    (calls : service.HasCalls objects clients registered round turn)
    (more : service.invocations ⊆ later.invocations)
    : later.HasCalls objects clients registered round turn := by
  intro position client object le present live handled
  obtain ⟨invocation, member, which⟩ := calls position client object le present live handled
  exact ⟨invocation, more member, which⟩

/-- A turn that returns has made the call that its client's handler is due. -/
theorem serveClient_ok {served : Service} (sound : service.Sound objects)
    (returned : serveClient registered fuel round turn client service = .ok served)
    : served.Sound objects
      ∧ service.invocations ⊆ served.invocations
      ∧ ∀ object, objects client = some object → object.Handled registered →
          ∃ invocation ∈ served.invocations,
            invocation.round = round
            ∧ invocation.turn = turn
            ∧ invocation.client = client := by
  cases present : service.objects client with
  | none =>
      rw [serveClient, present] at returned
      cases returned
  | some object =>
      obtain ⟨kept, handled, unhandled⟩ :=
        serveClient_cases registered fuel round turn present sound
      obtain ⟨first, first_eq, -, handler_eq⟩ := sound.object present
      rw [returned] at kept handled unhandled
      change served.Sound objects at kept
      change _ → served.invocations = (service.receive round turn object.fd).invocations
        ++ [_] at handled
      change _ → served.invocations = _ at unhandled
      rw [Service.invocations_receive] at handled
      refine ⟨kept, ?_, ?_⟩
      · by_cases handles : object.Handled registered
        · rw [handled handles]
          exact List.subset_append_left _ _
        · rw [unhandled handles]
          exact List.Subset.refl _
      · intro other other_eq handles
        rw [first_eq, Option.some.injEq] at other_eq
        subst other_eq
        rw [TcpClient.Handled, handler_eq] at handles
        rw [handled handles]
        exact ⟨_, List.mem_append_right _ List.mem_cons_self, rfl, rfl, rfl⟩

/-- A round that returns has made all calls that are due, by induction on the clients. -/
theorem serveClients_ok {served : Service} {rest : List Address}
    (sound : service.Sound objects) (position : clients.drop turn = rest)
    (returned : serveClients registered fuel round turn rest service = .ok served)
    : served.Sound objects
      ∧ service.invocations ⊆ served.invocations
      ∧ served.HasCalls objects clients registered round turn := by
  induction rest generalizing turn service with
  | nil =>
      cases returned
      refine ⟨sound, List.Subset.refl _, fun later client object le present => ?_⟩
      have beyond := List.drop_eq_nil_iff.mp position
      rw [List.getElem?_eq_none (Nat.le_trans beyond le)] at present
      cases present
  | cons client rest ih =>
      rw [serveClients] at returned
      obtain ⟨next, result, returned⟩ := Runs.bind_eq_ok.mp returned
      obtain ⟨soundNext, more, here⟩ := serveClient_ok sound result
      obtain ⟨soundLast, evenMore, later⟩ :=
        ih soundNext (drop_succ_of_drop_eq_cons position) returned
      refine ⟨soundLast, List.Subset.trans more evenMore, ?_⟩
      intro index other object le present live handled
      rcases Nat.eq_or_lt_of_le le with rfl | lt
      · rw [getElem?_of_drop_eq_cons position, Option.some.injEq] at present
        subst present
        obtain ⟨invocation, member, which⟩ := here object live handled
        exact ⟨invocation, evenMore member, which⟩
      · exact later index other object lt present live handled

/-- Rounds that return have made all calls that are due, by induction on the rounds. -/
theorem serveRounds_ok {last : Service} {rounds : List Round} (sound : service.Sound objects)
    (returned : serveRounds registered fuel clients rounds service = .ok last)
    : service.invocations ⊆ last.invocations
      ∧ ∀ round ∈ rounds, last.HasCalls objects clients registered round 0 := by
  induction rounds generalizing service with
  | nil =>
      cases returned
      exact ⟨List.Subset.refl _, fun _ member => by cases member⟩
  | cons round rest ih =>
      rw [serveRounds] at returned
      obtain ⟨served, result, returned⟩ := Runs.bind_eq_ok.mp returned
      obtain ⟨next, again, returned⟩ := Runs.bind_eq_ok.mp returned
      obtain ⟨soundServed, more, calls⟩ := serveClients_ok sound rfl result
      have cleared := soundServed.clear
      have silent := served.invocations_clear
      rw [again] at cleared silent
      change next.Sound objects at cleared
      change next.invocations = _ at silent
      obtain ⟨evenMore, others⟩ := ih cleared returned
      rw [silent] at evenMore
      refine ⟨List.Subset.trans more evenMore, fun other member => ?_⟩
      cases member with
      | head => exact calls.mono evenMore
      | tail _ later => exact others other later

end Turns

/-- Clients without delimiters, with descriptors that follow their addresses. -/
def plainObjects : Address → Option TcpClient :=
  fun address => some { fd := address + 4, msgDelimiter := none }

/-- A round in which only descriptor 5 is ready, and one byte is received from it. -/
def readyFive : Round where
  activeFdSet := fun fd => fd == 5
  recvfrom := fun _ => .bytes [65] (by decide)
  around := fun _ => .holding 0 0

end Ethnm
