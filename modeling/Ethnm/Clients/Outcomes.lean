import Ethnm.Clients.Isolation

/-! What the service loop does with each outcome of `recvfrom`, when every client is ready in
every round: whom it calls with which size, which assertions fail, and what it clears.
-/

namespace Ethnm
open ListCursor

/-- The turn's `recvfrom` returned some bytes. -/
def Round.Receives (round : Round) (turn : Nat) : Prop :=
  ∃ stored sized, round.recvfrom turn = .bytes stored sized ∧ 0 < stored.length

/-- The call was made in a turn that received some bytes, and was given their number. -/
def Invocation.Received (invocation : Invocation) : Prop :=
  invocation.round.Receives invocation.turn
  ∧ (invocation.size.toNat : Int) = (invocation.round.recvfrom invocation.turn).dataLen

/-- `data_len` is a length of received bytes. -/
def Service.Bounded (service : Service) : Prop :=
  0 ≤ service.dataLen ∧ service.dataLen ≤ kBufferSize

instance (service : Service) : Decidable service.Bounded :=
  inferInstanceAs (Decidable (_ ∧ _))

/-- All clients are ready. -/
def Round.EveryReady (round : Round) (objects : Address → Option TcpClient)
    (clients : List Address)
    : Prop :=
  ∀ client ∈ clients, ∀ object, objects client = some object →
    round.activeFdSet object.fd = true

/-- Every call has received what it is given; an assertion that fails does so in such a call;
and `data_len` is within the buffer whenever a round comes to clearing it.
-/
structure HandlesOutcomes (registered : Bool) (fuel : Nat) (clients : List Address)
    (rounds : List Round) (service : Service) : Prop where
  received
    : ∀ invocation ∈ (ServiceOutcome.service
          (serveRounds registered fuel clients rounds service)).invocations,
        invocation.Received
  asserted
    : ∀ stopped,
        serveRounds registered fuel clients rounds service
          = .error (.aborted .assertionFailed, stopped)
        → ∃ invocation, stopped.invocations.getLast? = some invocation ∧ invocation.Received
  cleared
    : ∀ earlier round later before served,
        rounds = earlier ++ round :: later
        → serveRounds registered fuel clients earlier service = .ok before
        → serveClients registered fuel round 0 clients before = .ok served
        → served.Bounded

/-- Every client of the round that has a handler receives some bytes, and the last client has
no error.
-/
structure Round.Harmless (round : Round) (registered : Bool)
    (objects : Address → Option TcpClient) (clients : List Address) : Prop where
  receives
    : ∀ turn client object, clients[turn]? = some client → objects client = some object →
        object.Handled registered → round.Receives turn
  last : ∀ turn, turn + 1 = clients.length → round.recvfrom turn ≠ .error

section Outcomes

variable {objects : Address → Option TcpClient} {clients : List Address} {service : Service}
  {registered : Bool} {fuel : Nat} {round : Round} {turn : Nat} {client : Address}

theorem Recvfrom.dataLen_le (result : Recvfrom) : result.dataLen ≤ kBufferSize := by
  cases result with
  | error => exact (by decide : (-1 : Int) ≤ kBufferSize)
  | bytes stored sized => exact Int.ofNat_le.mpr sized

theorem Recvfrom.dataLen_nonneg {result : Recvfrom} (returned : result ≠ .error)
    : 0 ≤ result.dataLen := by
  cases result with
  | error => exact absurd rfl returned
  | bytes stored sized => exact Int.natCast_nonneg _

-----------------------------------------------------------------------------------------
-- What a turn leaves in `data_len`
-----------------------------------------------------------------------------------------

theorem Service.dataLen_receive {fd : Nat} (active : round.activeFdSet fd = true)
    : (service.receive round turn fd).dataLen = (round.recvfrom turn).dataLen := by
  rw [Service.receive, if_pos active]

/-- Neither the calls nor what they do change `data_len`. -/
theorem serveClient_dataLen {object : TcpClient} (present : service.objects client = some object)
    : (ServiceOutcome.service
        (serveClient registered fuel round turn client service)).dataLen
      = (service.receive round turn object.fd).dataLen := by
  rw [serveClient, present]
  cases handler : object.msgDelimiter with
  | none =>
      simp only [handler]
      split <;> rfl
  | some delimiter =>
      simp only [handler]
      generalize process delimiter.1 fuel (round.around turn) _ _ _ = outcome
      split
      · rfl
      · cases outcome <;> rfl

/-- A call in a ready turn that receives some bytes is given their number. -/
theorem Invocation.received_of_receives {object : TcpClient}
    (active : round.activeFdSet object.fd = true) (receives : round.Receives turn)
    : Invocation.Received
        {
          round, turn, client
          data := (service.receive round turn object.fd).data
          size := UInt16.ofInt (service.receive round turn object.fd).dataLen
        } := by
  refine ⟨receives, ?_⟩
  obtain ⟨stored, sized, result, -⟩ := receives
  change ((UInt16.ofInt (service.receive round turn object.fd).dataLen).toNat : Int)
    = (round.recvfrom turn).dataLen
  rw [Service.dataLen_receive active, result, Recvfrom.dataLen, toNat_ofInt_length sized]

-----------------------------------------------------------------------------------------
-- Calls
-----------------------------------------------------------------------------------------

/-- The loop has made only calls that received what they were given. Without clients nothing
is received, and `data_len` is what it was.
-/
structure Service.Handles (objects : Address → Option TcpClient) (clients : List Address)
    (service : Service) : Prop
    extends service.Sound objects where
  received : ∀ invocation ∈ service.invocations, invocation.Received
  empty : clients = [] → service.Bounded

theorem Service.Handles.after_serveClient (handles : service.Handles objects clients)
    (ready : round.EveryReady objects clients)
    (harmless : round.Harmless registered objects clients)
    (position : clients[turn]? = some client)
    : (ServiceOutcome.service
        (serveClient registered fuel round turn client service)).Handles objects clients := by
  have some : clients ≠ [] := by
    rintro rfl
    cases position
  have sound := handles.toSound
  cases present : service.objects client with
  | none =>
      rw [serveClient, present]
      exact handles
  | some object =>
      obtain ⟨first, first_eq, fd_eq, handler_eq⟩ := sound.object present
      obtain ⟨kept, handled, unhandled⟩ :=
        serveClient_cases registered fuel round turn present sound
      refine ⟨kept, ?_, fun none => absurd none some⟩
      by_cases handler : object.Handled registered
      · have receives := harmless.receives turn client first position first_eq
          (by rwa [TcpClient.Handled, handler_eq])
        have active := ready client (List.mem_of_getElem? position) first first_eq
        rw [fd_eq] at active
        rw [handled handler]
        intro invocation member
        rcases List.mem_append.mp member with old | new
        · rw [Service.invocations_receive] at old
          exact handles.received invocation old
        · rw [List.mem_singleton.mp new]
          exact Invocation.received_of_receives active receives
      · rw [unhandled handler]
        exact handles.received

/-- Clearing the buffer leaves `data_len` as it is. -/
theorem Service.dataLen_clear (service : Service)
    : (ServiceOutcome.service service.clear).dataLen = service.dataLen := by
  unfold Service.clear
  simp only
  split <;> rfl

theorem Service.Handles.clear (handles : service.Handles objects clients)
    : (ServiceOutcome.service service.clear).Handles objects clients := by
  refine ⟨handles.toSound.clear, ?_, fun none => ?_⟩
  · rw [Service.invocations_clear]
    exact handles.received
  · rw [Service.Bounded, Service.dataLen_clear]
    exact handles.empty none

/-- Harmless rounds are handled, call by call. -/
theorem Service.Handles.after_serveRounds (handles : service.Handles objects clients)
    {rounds : List Round} (ready : ∀ round ∈ rounds, round.EveryReady objects clients)
    (harmless : ∀ round ∈ rounds, round.Harmless registered objects clients)
    : (ServiceOutcome.service (serveRounds registered fuel clients rounds service)).Handles
        objects clients :=
  kept_serveRounds
    (fun round member _ _ _ handles position =>
      Service.Handles.after_serveClient handles (ready round member) (harmless round member)
        position)
    Service.Handles.clear handles

-----------------------------------------------------------------------------------------
-- Assertions
-----------------------------------------------------------------------------------------

/-- A run that stopped at an assertion stopped in a call. -/
def ServiceOutcome.AssertsInCall (outcome : ServiceOutcome) : Prop :=
  ∀ stopped, outcome = .error (.aborted .assertionFailed, stopped) → stopped.invocations ≠ []

theorem ServiceOutcome.AssertsInCall.bind {outcome : ServiceOutcome}
    {next : Service → ServiceOutcome} (first : ServiceOutcome.AssertsInCall outcome)
    (second : ∀ service, ServiceOutcome.AssertsInCall (next service))
    : ServiceOutcome.AssertsInCall (outcome >>= next) := by
  cases outcome with
  | error stop => exact first
  | ok service => exact second service

theorem assertsInCall_ok (service : Service) : ServiceOutcome.AssertsInCall (.ok service) :=
  fun _ stopped => by cases stopped

theorem assertsInCall_serveClient (registered : Bool) (fuel : Nat) (round : Round) (turn : Nat)
    (client : Address) (service : Service)
    : ServiceOutcome.AssertsInCall (serveClient registered fuel round turn client service) := by
  intro stopped result
  rw [serveClient] at result
  split at result
  · cases result
  · dsimp only at result
    split at result
    · split at result
      · cases result
      · split at result
        · cases result
          exact List.append_ne_nil_of_right_ne_nil _ (List.cons_ne_nil _ _)
        · cases result
    · split at result <;> cases result

theorem assertsInCall_serveClients (registered : Bool) (fuel : Nat) (round : Round) (turn : Nat)
    (rest : List Address) (service : Service)
    : ServiceOutcome.AssertsInCall (serveClients registered fuel round turn rest service) := by
  induction rest generalizing turn service with
  | nil => exact assertsInCall_ok service
  | cons client rest ih =>
      exact .bind (assertsInCall_serveClient registered fuel round turn client service)
        (fun served => ih (turn + 1) served)

theorem assertsInCall_clear (service : Service) : ServiceOutcome.AssertsInCall service.clear := by
  intro stopped result
  unfold Service.clear at result
  dsimp only at result
  split at result <;> cases result

theorem assertsInCall_serveRounds (registered : Bool) (fuel : Nat) (clients : List Address)
    (rounds : List Round) (service : Service)
    : ServiceOutcome.AssertsInCall (serveRounds registered fuel clients rounds service) := by
  induction rounds generalizing service with
  | nil => exact assertsInCall_ok service
  | cons round rest ih =>
      refine .bind (assertsInCall_serveClients registered fuel round 0 clients service) ?_
      exact fun served => .bind (assertsInCall_clear served) ih

-----------------------------------------------------------------------------------------
-- What a round clears
-----------------------------------------------------------------------------------------

/-- A round ends with what its last client received in `data_len`; by induction on the clients
that are still to be served.
-/
theorem serveClients_dataLen {served : Service} {rest : List Address}
    (sound : service.Sound objects) (ready : round.EveryReady objects clients)
    (position : clients.drop turn = rest)
    (returned : serveClients registered fuel round turn rest service = .ok served)
    : served.dataLen
      = if rest = [] then service.dataLen
        else (round.recvfrom (clients.length - 1)).dataLen := by
  induction rest generalizing turn service with
  | nil =>
      cases returned
      rfl
  | cons client rest ih =>
      rw [if_neg (List.cons_ne_nil client rest)]
      rw [serveClients] at returned
      have here := getElem?_of_drop_eq_cons position
      have behind := drop_succ_of_drop_eq_cons position
      obtain ⟨next, result, returned⟩ := Runs.bind_eq_ok.mp returned
      rw [ih (serveClient_ok sound result).1 behind returned]
      split
      · rename_i last
        cases present : service.objects client with
        | none =>
            rw [serveClient, present] at result
            cases result
        | some object =>
            obtain ⟨first, first_eq, fd_eq, -⟩ := sound.object present
            have active := ready client (List.mem_of_getElem? here) first first_eq
            rw [fd_eq] at active
            have kept : (ServiceOutcome.service
                (serveClient registered fuel round turn client service)).dataLen
                = (service.receive round turn object.fd).dataLen :=
              serveClient_dataLen present
            rw [result, Service.dataLen_receive active] at kept
            rw [last] at behind
            have beyond := List.drop_eq_nil_iff.mp behind
            have within := (List.getElem?_eq_some_iff.mp here).1
            rw [show clients.length - 1 = turn by omega]
            exact kept
      · rfl

/-- A harmless round ends with a length of received bytes in `data_len`. -/
theorem Service.Handles.bounded {served : Service} (handles : service.Handles objects clients)
    (ready : round.EveryReady objects clients)
    (harmless : round.Harmless registered objects clients)
    (returned : serveClients registered fuel round 0 clients service = .ok served)
    : served.Bounded := by
  have all : clients.drop 0 = clients := List.drop_zero
  have length := serveClients_dataLen handles.toSound ready all returned
  rw [Service.Bounded, length]
  split
  · rename_i none
    exact handles.empty none
  · rename_i some
    have positive := List.length_pos_iff.mpr some
    exact ⟨Recvfrom.dataLen_nonneg (harmless.last _ (by omega)), Recvfrom.dataLen_le _⟩

/-- Rounds can be served in two parts, by induction on the first. -/
theorem serveRounds_append (registered : Bool) (fuel : Nat) (clients : List Address)
    (first second : List Round) (service : Service)
    : serveRounds registered fuel clients (first ++ second) service
      = (do
          let service ← serveRounds registered fuel clients first service
          serveRounds registered fuel clients second service) := by
  induction first generalizing service with
  | nil => rfl
  | cons round rest ih =>
      rw [List.cons_append, serveRounds, serveRounds, bind_assoc]
      congr 1
      funext served
      rw [bind_assoc]
      congr 1
      funext cleared
      exact ih cleared

-----------------------------------------------------------------------------------------
-- Whole runs
-----------------------------------------------------------------------------------------

theorem Service.Sound.after_serveRounds {rounds : List Round} (sound : service.Sound objects)
    : (ServiceOutcome.service
        (serveRounds registered fuel clients rounds service)).Sound objects :=
  kept_serveRounds (fun _ _ _ _ _ sound _ => Service.Sound.after_serveClient sound)
    Service.Sound.clear sound

/-- Harmless rounds are handled. -/
theorem Service.Handles.handlesOutcomes (handles : service.Handles objects clients)
    {rounds : List Round} (ready : ∀ round ∈ rounds, round.EveryReady objects clients)
    (harmless : ∀ round ∈ rounds, round.Harmless registered objects clients)
    : HandlesOutcomes registered fuel clients rounds service where
  received := (handles.after_serveRounds ready harmless).received
  asserted := by
    intro stopped result
    have whole : (ServiceOutcome.service
        (serveRounds registered fuel clients rounds service)).Handles objects clients :=
      handles.after_serveRounds ready harmless
    rw [result] at whole
    have called := assertsInCall_serveRounds _ _ _ _ _ stopped result
    have last := List.getLast?_eq_some_getLast called
    exact ⟨_, last, whole.received _ (List.getLast_mem called)⟩
  cleared := by
    rintro earlier round later before served rfl returned ended
    have reached : (ServiceOutcome.service
        (serveRounds registered fuel clients earlier service)).Handles objects clients :=
      handles.after_serveRounds
        (fun other member => ready other (List.mem_append_left _ member))
        (fun other member => harmless other (List.mem_append_left _ member))
    rw [returned] at reached
    have here : round ∈ earlier ++ round :: later :=
      List.mem_append_right _ List.mem_cons_self
    exact Service.Handles.bounded reached (ready round here) (harmless round here) ended

/-- A run that gets through its rounds came to each of them, and to its end. -/
theorem serveRounds_reached {earlier later : List Round} {last : Service}
    (sound : service.Sound objects)
    (returned : serveRounds registered fuel clients (earlier ++ round :: later) service = .ok last)
    : ∃ before served, before.Sound objects
      ∧ serveRounds registered fuel clients earlier service = .ok before
      ∧ serveClients registered fuel round 0 clients before = .ok served := by
  have kept : (ServiceOutcome.service
      (serveRounds registered fuel clients earlier service)).Sound objects :=
    sound.after_serveRounds
  rw [serveRounds_append] at returned
  obtain ⟨before, first, returned⟩ := Runs.bind_eq_ok.mp returned
  rw [serveRounds] at returned
  obtain ⟨served, ended, -⟩ := Runs.bind_eq_ok.mp returned
  rw [first] at kept
  exact ⟨before, served, kept, first, ended⟩

/-- Rounds that were got through, and handled, were harmless. -/
theorem HandlesOutcomes.harmless {rounds : List Round} {last : Service}
    (handles : HandlesOutcomes registered fuel clients rounds service)
    (sound : service.Sound objects)
    (ready : ∀ round ∈ rounds, round.EveryReady objects clients)
    (returned : serveRounds registered fuel clients rounds service = .ok last)
    (member : round ∈ rounds)
    : round.Harmless registered objects clients := by
  constructor
  · intro turn client object present live handled
    have received := handles.received
    rw [returned] at received
    obtain ⟨invocation, made, rfl, rfl, -⟩ :=
      (serveRounds_ok sound returned).2 round member turn client object (Nat.zero_le turn)
        present live handled
    exact (received invocation made).1
  · intro turn length failed
    obtain ⟨earlier, later, rfl⟩ := List.append_of_mem member
    obtain ⟨before, served, kept, first, ended⟩ := serveRounds_reached sound returned
    have bounded := handles.cleared earlier round later before served rfl first ended
    have all : clients.drop 0 = clients := List.drop_zero
    have dataLen := serveClients_dataLen kept (ready round member) all ended
    have some : clients ≠ [] := List.ne_nil_of_length_eq_add_one length.symm
    rw [if_neg some, show clients.length - 1 = turn by omega, failed] at dataLen
    have nonneg := bounded.1
    rw [dataLen] at nonneg
    exact absurd nonneg (by decide)

end Outcomes

/-- With every client ready, a run whose rounds are all harmless handles each outcome of
`recvfrom`; so does one without clients whose `data_len` held a length at first. Conversely,
when a run gets through its rounds and has handled each outcome, the rounds were harmless.
-/
theorem handlesOutcomes_serveRounds (objects : Address → Option TcpClient)
    (clients : List Address) (registered : Bool) (fuel : Nat) (rounds : List Round)
    {data : List UInt8} (room : data.length = kBufferSize) (dataLen : Int)
    (ready : ∀ round ∈ rounds, round.EveryReady objects clients)
    : let service := Service.start objects data dataLen
      ((∀ round ∈ rounds, round.Harmless registered objects clients)
          ∧ (clients = [] → rounds ≠ [] → service.Bounded)
        → HandlesOutcomes registered fuel clients rounds service)
      ∧ ∀ last, serveRounds registered fuel clients rounds service = .ok last
          → HandlesOutcomes registered fuel clients rounds service
          → (∀ round ∈ rounds, round.Harmless registered objects clients)
            ∧ (clients = [] → rounds ≠ [] → service.Bounded) := by
  intro service
  have sound : service.Sound objects := ⟨fun _ => rfl, room⟩
  constructor
  · rintro ⟨harmless, empty⟩
    cases rounds with
    | nil =>
        refine ⟨(fun _ member => by cases member), (fun _ stopped => by cases stopped), ?_⟩
        intro earlier round later before served split
        cases earlier <;> cases split
    | cons first rest =>
        have handles : service.Handles objects clients :=
          {
            toSound := sound
            received := fun _ member => by cases member
            empty := fun none => empty none (List.cons_ne_nil first rest)
          }
        exact handles.handlesOutcomes ready harmless
  · intro last returned handles
    refine ⟨fun round member => handles.harmless sound ready returned member, ?_⟩
    rintro rfl some
    obtain ⟨first, rest, rfl⟩ := List.exists_cons_of_ne_nil some
    exact handles.cleared [] first rest service service rfl rfl rfl

/-- A client without a delimiter, and one with a delimiter for messages of four bytes. -/
def halfFramedObjects : Address → Option TcpClient :=
  fun address =>
    if address = 1 then
      some { fd := 5, msgDelimiter := none }
    else
      some { fd := address + 4, msgDelimiter := some (.fixed 4, .create kBcbSize) }

/-- A round in which receiving from the first client fails, and the others send a byte. -/
def failingFirst : Round where
  activeFdSet := fun _ => true
  recvfrom := fun turn => if turn = 0 then .error else .bytes [66] (by decide)
  around := fun _ => .holding 0 0

/-- An error that no handler is told of does no harm before the last client. -/
theorem handlesOutcomes_failingFirst
    : HandlesOutcomes false 10241 [1, 2] [failingFirst, failingFirst]
        (.start halfFramedObjects (List.replicate kBufferSize 0) (-1)) := by
  have ready
      : ∀ round ∈ [failingFirst, failingFirst], round.EveryReady halfFramedObjects [1, 2] := by
    intro round member client _ object _
    obtain rfl : round = failingFirst := by simpa using member
    rfl
  refine (handlesOutcomes_serveRounds halfFramedObjects [1, 2] false 10241
    [failingFirst, failingFirst] List.length_replicate (-1) ready).1
      ⟨?_, fun none => by cases none⟩
  intro round member
  obtain rfl : round = failingFirst := by simpa using member
  constructor
  · intro turn client object position live handled
    cases turn with
    | zero =>
        cases position
        cases live
        rcases handled with delimiter | registered
        · cases delimiter
        · cases registered
    | succ turn => exact ⟨[66], by decide, rfl, by decide⟩
  · intro turn last
    cases turn with
    | zero => cases last
    | succ turn => exact Recvfrom.noConfusion

/-- A client with a delimiter for messages of four bytes. -/
def framedObjects : Address → Option TcpClient :=
  fun address => some { fd := address + 4, msgDelimiter := some (.fixed 4, .create kBcbSize) }

/-- A round in which the peer of descriptor 5 has closed the connection. -/
def closedFive : Round where
  activeFdSet := fun fd => fd == 5
  recvfrom := fun _ => .bytes [] (by decide)
  around := fun _ => .holding 0 0

/-- A call was made in the round in which the peer had closed. -/
def Service.CallsClosed (service : Service) : Prop :=
  ∃ invocation ∈ service.invocations, invocation.round = closedFive

/-- The delimiter of a client whose peer has closed is called with no bytes. -/
theorem not_handlesOutcomes_closed
    : ¬ HandlesOutcomes true 0 [1] [closedFive]
        (.start framedObjects (List.replicate kBufferSize 0) 0) := by
  intro handles
  have sound : (Service.start framedObjects (List.replicate kBufferSize 0) 0).Sound
      framedObjects := ⟨fun _ => rfl, List.length_replicate⟩
  have called : (ServiceOutcome.service (serveRounds true 0 [1] [closedFive]
      (.start framedObjects (List.replicate kBufferSize 0) 0))).CallsClosed := by
    refine ServiceOutcome.bind_kept Service.CallsClosed ?_ (fun served called => ?_)
    · refine ServiceOutcome.bind_kept Service.CallsClosed ?_ (fun _ called => called)
      have present : framedObjects 1
          = some { fd := 5, msgDelimiter := some (.fixed 4, .create kBcbSize) } := rfl
      have served := (serveClient_cases true 0 closedFive 0 present sound).2.1 (.inl rfl)
      rw [Service.CallsClosed, served]
      exact ⟨_, List.mem_append_right _ List.mem_cons_self, rfl⟩
    · refine ServiceOutcome.bind_kept Service.CallsClosed ?_ (fun _ called => called)
      rw [Service.CallsClosed, Service.invocations_clear]
      exact called
  obtain ⟨invocation, member, round⟩ := called
  obtain ⟨⟨stored, sized, result, positive⟩, -⟩ := handles.received invocation member
  rw [round] at result
  cases result
  exact absurd positive (by decide)

end Ethnm
