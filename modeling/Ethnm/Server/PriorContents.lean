import Ethnm.Server.OtherStorage

/-! What is seen of a server against what the storage held before it was constructed. Every
value that no constructor sets is listed with the steps that read it; as long as each was set
before it is read, or is the same in two contents, nothing that is seen tells the two apart.
-/

namespace Ethnm
open Runs

/-- The values that a step reads of those that no constructor sets. -/
structure Reads where
  flags : List (BitVec 32)
  masterSockUdp : Option Address
  connected : Bool
  received : Bool
  dataLen : Option Nat

def Reads.nothing : Reads :=
  { flags := [], masterSockUdp := none, connected := false, received := false, dataLen := none }

namespace Session

/-- A turn reads `received` if the client has no delimiter, or one that cuts off a message. -/
def readsReceived (fuel : Nat) (round : Round) (turn : Nat) (client : Address) (size : UInt16)
    (session : Session)
    : Bool :=
  match session.system.heap.objects client with
  | none => false
  | some object =>
      match object.msgDelimiter with
      | none => true
      | some delimiter =>
          let outcome := session.process fuel round turn delimiter size
          !(Outcome.progress outcome).iterations.isEmpty

/-- What a thread reads in its loop. The end of a round reads `data_len` to clear the buffer. -/
def serveReads (fuel index : Nat) (session : Session) : Reads :=
  match session.system.serviceThreads[index]? with
  | none => .nothing
  | some thread =>
      match session.loops thread.id with
      | .select => .nothing
      | .receive _ turn =>
          match session.system.services thread.service with
          | none => .nothing
          | some service =>
              if service.clients[turn]?.isNone then
                { Reads.nothing with dataLen := some thread.id }
              else
                .nothing
      | .handOver round turn client =>
          let size := UInt16.ofInt (session.dataLen thread.id)
          {
            Reads.nothing with
            received := session.readsReceived fuel round turn client size
            dataLen := some thread.id
          }

def reads (fuel : Nat) (session : Session) : Event → Reads
  | .server action =>
      {
        Reads.nothing with
        flags := (session.system.tests action).toList
        masterSockUdp := session.system.closes action
        connected := match action with | .connect _ _ => true | _ => false
      }
  | .isBitSet bit => { Reads.nothing with flags := [bit] }
  | .display => { Reads.nothing with flags := session.system.displays }
  | .serve index => session.serveReads fuel index
  | _ => .nothing

/-- What a step reads was set before, or is the same in other contents of the storage. -/
structure AgreesOn (fuel : Nat) (other : PriorContents) (session : Session) (event : Event)
    : Prop where
  flags
    : ∀ bit ∈ (session.reads fuel event).flags,
        AgreesOnFlag session.prior.toStorage other.toStorage session.written bit
  masterSockUdp
    : ∀ address ∈ (session.reads fuel event).masterSockUdp,
        session.prior.masterSockUdp address = other.masterSockUdp address
  connected
    : (session.reads fuel event).connected
      → session.listeners = none
      → session.prior.listeners.connected = other.listeners.connected
  received
    : (session.reads fuel event).received
      → session.listeners = none
      → session.prior.listeners.received = other.listeners.received
  dataLen
    : ∀ thread ∈ (session.reads fuel event).dataLen,
        session.dataLens thread = none → session.prior.dataLen thread = other.dataLen thread

theorem agreesOn_iff {fuel : Nat} {other : PriorContents} {session : Session} {event : Event}
    : AgreesOn fuel other session event
      ↔ (∀ bit ∈ (session.reads fuel event).flags,
          AgreesOnFlag session.prior.toStorage other.toStorage session.written bit)
        ∧ (∀ address ∈ (session.reads fuel event).masterSockUdp,
          session.prior.masterSockUdp address = other.masterSockUdp address)
        ∧ ((session.reads fuel event).connected → session.listeners = none
          → session.prior.listeners.connected = other.listeners.connected)
        ∧ ((session.reads fuel event).received → session.listeners = none
          → session.prior.listeners.received = other.listeners.received)
        ∧ (∀ thread ∈ (session.reads fuel event).dataLen, session.dataLens thread = none
          → session.prior.dataLen thread = other.dataLen thread) :=
  ⟨
    fun ⟨flags, closes, connected, received, dataLen⟩ =>
      ⟨flags, closes, connected, received, dataLen⟩,
    fun ⟨flags, closes, connected, received, dataLen⟩ =>
      ⟨flags, closes, connected, received, dataLen⟩
  ⟩

instance (fuel : Nat) (other : PriorContents) (session : Session) (event : Event)
    : Decidable (AgreesOn fuel other session event) :=
  -- Not by trying all words.
  have : Decidable (∀ bit ∈ (session.reads fuel event).flags,
      AgreesOnFlag session.prior.toStorage other.toStorage session.written bit) :=
    List.decidableBAll _ _
  decidable_of_iff _ agreesOn_iff.symm

/-- The same session over storage with other contents. -/
def upon (other : PriorContents) (session : Session) : Session :=
  {
    session with
    system := session.system.upon other.toStorage session.written
    prior := other
  }

section Upon

variable (other : PriorContents) (session : Session)

@[simp]
theorem system_upon
    : (session.upon other).system = session.system.upon other.toStorage session.written :=
  rfl

@[simp]
theorem adders_upon : (session.upon other).adders = session.adders := rfl

@[simp]
theorem data_upon : (session.upon other).data = session.data := rfl

@[simp]
theorem loops_upon : (session.upon other).loops = session.loops := rfl

@[simp]
theorem process_upon (fuel : Nat) (round : Round) (turn : Nat)
    (delimiter : Framing × MsgDelimiter) (size : UInt16)
    : (session.upon other).process fuel round turn delimiter size
      = session.process fuel round turn delimiter size :=
  rfl

end Upon

-----------------------------------------------------------------------------------------
-- What is read
-----------------------------------------------------------------------------------------

section Reading

variable {fuel : Nat} {other : PriorContents} {session : Session} {thread : Nat}

theorem own_system (own : session.upon session.prior = session)
    : session.system.upon session.prior.toStorage session.written = session.system :=
  congrArg Session.system own

theorem dataLen_upon
    (agrees
      : session.dataLens thread = none
        → session.prior.dataLen thread = other.dataLen thread)
    : (session.upon other).dataLen thread = session.dataLen thread := by
  change (session.dataLens thread).getD _ = (session.dataLens thread).getD _
  cases set : session.dataLens thread with
  | none => exact (agrees set).symm
  | some dataLen => rfl

theorem listener_upon {part : Listeners → Nat}
    (agrees
      : session.listeners = none → part session.prior.listeners = part other.listeners)
    : part (session.upon other).listener = part session.listener := by
  change part (session.listeners.getD _) = part (session.listeners.getD _)
  cases set : session.listeners with
  | none => exact (agrees set).symm
  | some listeners => rfl

theorem observeFlags_upon {bits : List (BitVec 32)} (own : session.upon session.prior = session)
    (agrees
      : ∀ bit ∈ bits,
          AgreesOnFlag session.prior.toStorage other.toStorage session.written bit)
    : (session.upon other).observeFlags bits = (session.observeFlags bits).upon other := by
  have flags
      : bits.map (fun bit =>
            Observation.isBitSet bit ((session.upon other).system.server.isBitSet bit))
        = bits.map (fun bit =>
            Observation.isBitSet bit (session.system.server.isBitSet bit)) := by
    refine List.map_congr_left (fun bit member => ?_)
    exact congrArg (Observation.isBitSet bit)
      (System.isBitSet_upon (own_system own) (agrees bit member))
  unfold observeFlags
  rw [flags]
  rfl

/-- `Display` tests whether the server runs, whatever it displays then. -/
theorem running_mem_displays (system : System) : tcpServerRunning ∈ system.displays := by
  unfold System.displays
  split <;> exact List.mem_cons_self

end Reading

-----------------------------------------------------------------------------------------
-- Steps
-----------------------------------------------------------------------------------------

section Steps

variable {fuel : Nat} {other : PriorContents} {session : Session} {index : Nat}

/-- A part that gives the same in both sessions. -/
theorem attempt_upon {α : Type} {result : Except Halt α} {next second : α → SessionOutcome}
    (commutes : ∀ value, result = .ok value → second value = carry (upon other) (next value))
    : ((session.upon other).attempt result >>= second)
      = carry (upon other) (session.attempt result >>= next) := by
  cases result with
  | error halt => rfl
  | ok value => exact commutes value rfl

/-- A part that gives in both sessions what differs only in the storage. -/
theorem attempt_map_upon {α : Type} {result : Except Halt α} {change : α → α}
    {next second : α → SessionOutcome}
    (commutes
      : ∀ value, result = .ok value → second (change value) = carry (upon other) (next value))
    : ((session.upon other).attempt (result.map change) >>= second)
      = carry (upon other) (session.attempt result >>= next) := by
  cases result with
  | error halt => rfl
  | ok value => exact commutes value rfl

theorem call_upon {change : Session → Session}
    (commutes : change (session.upon other) = (change session).upon other)
    : (session.upon other).call change = carry (upon other) (session.call change) := by
  unfold call
  change ((session.upon other).attempt (session.system.upon _ _).tcpServer >>= _) = _
  rw [System.tcpServer_upon]
  cases session.system.tcpServer with
  | error halt => rfl
  | ok server => exact congrArg Except.ok commutes

theorem setBit_upon (bit : BitVec 32)
    : (session.upon other).setBit bit = (session.setBit bit).upon other :=
  congrArg
    (fun system => { session.upon other with system, written := session.written ||| bit })
    System.setBit_upon

theorem unSetBit_upon (bit : BitVec 32)
    : (session.upon other).unSetBit bit = (session.unSetBit bit).upon other :=
  congrArg
    (fun system => { session.upon other with system, written := session.written ||| bit })
    System.unSetBit_upon

theorem callConnected_upon (session : Session) (client : Address)
    (agrees
      : session.listeners = none
        → session.prior.listeners.connected = other.listeners.connected)
    : (session.upon other).callConnected client = (session.callConnected client).upon other := by
  unfold callConnected
  rw [listener_upon agrees, apply_ite (upon other)]
  rfl

theorem callReceived_upon (session : Session) (client : Address) (around : Surroundings)
    (size : UInt16)
    (agrees
      : session.listeners = none → session.prior.listeners.received = other.listeners.received)
    : (session.upon other).callReceived client around size
      = (session.callReceived client around size).upon other := by
  unfold callReceived
  rw [listener_upon agrees, apply_ite (upon other)]
  rfl

theorem serverStep_upon {action : Action} (own : session.upon session.prior = session)
    (agrees : AgreesOn fuel other session (.server action))
    : (session.upon other).serverStep action
      = carry (upon other) (session.serverStep action) := by
  have onSystem
      : System.AgreesOn session.prior.toStorage other.toStorage session.written session.system
          action :=
    ⟨
      fun bit tested => agrees.flags bit (Option.mem_toList.mpr tested),
      fun address closed => agrees.masterSockUdp address closed
    ⟩
  have stepped := System.step_upon (own_system own) onSystem
  have tests : (session.upon other).system.tests action = session.system.tests action := by
    cases action <;> rfl
  have tested
      : (session.upon other).observeFlags (session.system.tests action).toList
        = (session.observeFlags (session.system.tests action).toList).upon other :=
    observeFlags_upon own agrees.flags
  unfold serverStep
  change ((session.upon other).attempt (Ethnm.step (session.system.upon _ _) action) >>= _) = _
  rw [stepped, tests]
  refine attempt_map_upon (fun after _ => ?_)
  rw [tested]
  cases action with
  | connect place fd =>
      let made :=
        {
          session.observeFlags [] with
          system := after
          written := session.written ||| 0
        }
      exact congrArg Except.ok
        (callConnected_upon made session.system.fresh (agrees.connected rfl))
  | call | main | accept | service => rfl

theorem displays_upon (own : session.upon session.prior = session)
    (agrees
      : ∀ bit ∈ session.system.displays,
          AgreesOnFlag session.prior.toStorage other.toStorage session.written bit)
    : (session.upon other).system.displays = session.system.displays := by
  have running := agrees tcpServerRunning (running_mem_displays session.system)
  unfold System.displays
  change (if (session.system.upon _ _).server.isBitSet tcpServerRunning = true then _ else _) = _
  rw [System.isBitSet_upon (own_system own) running]

theorem display_upon (own : session.upon session.prior = session)
    (agrees : AgreesOn fuel other session .display)
    : (session.upon other).display = carry (upon other) session.display := by
  have running := agrees.flags tcpServerRunning (running_mem_displays session.system)
  have tested
      : (session.upon other).observeFlags session.system.displays
        = (session.observeFlags session.system.displays).upon other :=
    observeFlags_upon own agrees.flags
  unfold display
  rw [displays_upon own agrees.flags, tested]
  change ((session.upon other).attempt (session.system.upon _ _).tcpServer >>= _) = _
  rw [System.tcpServer_upon]
  cases found : session.system.tcpServer with
  | error halt => rfl
  | ok server =>
      cases System.tcpServer_eq_ok found
      change (if (session.system.upon _ _).server.isBitSet tcpServerRunning = true then _ else _)
        = carry _ (if session.system.server.isBitSet tcpServerRunning = true then _ else _)
      rw [System.isBitSet_upon (own_system own) running]
      split
      · refine attempt_upon (fun clients _ => ?_)
        rw [apply_ite (carry (upon other))]
        rfl
      · rfl

theorem copyClients_upon
    : (session.upon other).copyClients = carry (upon other) session.copyClients := by
  unfold copyClients
  rw [system_upon, System.tcpServer_upon]
  refine attempt_map_upon (fun server found => ?_)
  cases System.tcpServer_eq_ok found
  exact attempt_upon (fun clients _ => rfl)

theorem addStep_upon
    : (session.upon other).addStep index = carry (upon other) (session.addStep index) := by
  have stepped
      : acceptStep index
          { session.system.upon other.toStorage session.written with
            acceptThreads := session.adders }
        = (acceptStep index { session.system with acceptThreads := session.adders }).map
            (System.upon other.toStorage session.written) := by
    rw [← System.acceptStep_upon]
    rfl
  unfold addStep
  rw [system_upon, adders_upon, stepped]
  exact attempt_map_upon (fun added _ => rfl)

theorem destroy_upon
    : (session.upon other).destroy = carry (upon other) session.destroy := by
  unfold destroy
  rw [system_upon, System.upon_main]
  cases session.system.main <;> rfl

theorem select_upon {round : Round}
    : (session.upon other).select index round
      = carry (upon other) (session.select index round) := by
  unfold select
  rw [system_upon, System.upon_serviceThreads, loops_upon]
  cases session.system.serviceThreads[index]? with
  | none => rfl
  | some thread =>
      simp only
      cases thread.prologue <;> cases session.loops thread.id
      case passed.select => exact attempt_upon (fun service _ => rfl)
      all_goals rfl

theorem clear_upon {thread : Nat}
    (agrees
      : session.dataLens thread = none
        → session.prior.dataLen thread = other.dataLen thread)
    : (session.upon other).clear thread = carry (upon other) (session.clear thread) := by
  unfold clear
  rw [dataLen_upon agrees, system_upon, System.upon_heap, data_upon]
  dsimp only
  cases (Service.start session.system.heap.objects session.data
    (session.dataLen thread)).clear <;> rfl

theorem receive_upon {thread : ServiceThread} {round : Round} {turn : Nat}
    (agrees
      : ∀ service,
          session.system.services thread.service = some service
          → service.clients[turn]? = none
          → session.dataLens thread.id = none
          → session.prior.dataLen thread.id = other.dataLen thread.id)
    : (session.upon other).receive thread round turn
      = carry (upon other) (session.receive thread round turn) := by
  unfold receive
  refine attempt_upon (fun service found => ?_)
  cases position : service.clients[turn]? with
  | none => exact clear_upon (agrees service (System.service_eq_ok found) position)
  | some client =>
      simp only
      rw [system_upon, System.upon_heap]
      cases session.system.heap.objects client with
      | none => rfl
      | some object =>
          change Except.ok _ = Except.ok _
          split <;> rfl

theorem deliver_upon {client : Address} {iterations : List Iteration}
    (agrees
      : iterations ≠ [] → session.listeners = none
        → session.prior.listeners.received = other.listeners.received)
    : (session.upon other).deliver client iterations
      = carry (upon other) (session.deliver client iterations) := by
  unfold deliver
  by_cases nothing : iterations = []
  · rw [if_pos nothing, if_pos nothing]
    rfl
  · rw [if_neg nothing, if_neg nothing, system_upon, System.tcpServer_upon,
      listener_upon (agrees nothing)]
    refine attempt_map_upon (fun server _ => ?_)
    rw [apply_ite (carry (upon other))]
    rfl

theorem notice_upon {thread : Nat} {client : Address}
    (agrees
      : session.dataLens thread = none
        → session.prior.dataLen thread = other.dataLen thread)
    : (session.upon other).notice thread client = (session.notice thread client).upon other := by
  unfold notice
  rw [dataLen_upon agrees, apply_ite (upon other)]
  rfl

theorem handOver_upon {thread : Nat} {round : Round} {turn : Nat} {client : Address}
    {size : UInt16}
    (agrees
      : session.readsReceived fuel round turn client size
        → session.listeners = none
        → session.prior.listeners.received = other.listeners.received)
    : (session.upon other).handOver fuel thread round turn client size
      = carry (upon other) (session.handOver fuel thread round turn client size) := by
  unfold handOver
  rw [system_upon, System.upon_heap]
  unfold readsReceived at agrees
  cases found : session.system.heap.objects client with
  | none => rfl
  | some object =>
      rw [found] at agrees
      cases handler : object.msgDelimiter with
      | some delimiter =>
          simp only [handler] at agrees ⊢
          rw [process_upon]
          have delivers
              (some
                : (Outcome.progress
                    (session.process fuel round turn delimiter size)).iterations ≠ [])
              : session.listeners = none
                → session.prior.listeners.received = other.listeners.received := by
            refine agrees ?_
            rw [Bool.not_eq_true', List.isEmpty_eq_false_iff]
            exact some
          rw [deliver_upon delivers]
          refine carry_bind (fun delivered => ?_)
          cases session.process fuel round turn delimiter size <;> rfl
      | none =>
          simp only [handler] at agrees ⊢
          rw [System.tcpServer_upon]
          refine attempt_map_upon (fun server _ => ?_)
          rw [callReceived_upon session client _ size (agrees trivial)]
          rfl

theorem serve_upon (agrees : AgreesOn fuel other session (.serve index))
    : (session.upon other).serve fuel index = carry (upon other) (session.serve fuel index) := by
  obtain ⟨-, -, -, received, dataLen⟩ := agrees
  simp only [reads, serveReads] at received dataLen
  unfold serve
  rw [system_upon, System.upon_serviceThreads, loops_upon]
  cases there : session.system.serviceThreads[index]? with
  | none => rfl
  | some thread =>
      simp only [there] at received dataLen ⊢
      cases loop : session.loops thread.id with
      | select => rfl
      | receive round turn =>
          simp only [loop] at dataLen ⊢
          refine receive_upon (fun service found atEnd => dataLen thread.id ?_)
          simp [found, atEnd]
      | handOver round turn client =>
          simp only [loop] at received dataLen ⊢
          have unset := dataLen thread.id rfl
          rw [dataLen_upon unset, notice_upon unset]
          refine handOver_upon ?_
          unfold notice
          split <;> exact received

/-- A session takes the same step over other storage. -/
theorem step_upon {event : Event} (own : session.upon session.prior = session)
    (agrees : AgreesOn fuel other session event)
    : (session.upon other).step fuel event = carry (upon other) (session.step fuel event) := by
  cases event with
  | server action => exact serverStep_upon own agrees
  | registerListener listeners => exact call_upon rfl
  | setBit bit => exact call_upon (setBit_upon bit)
  | unSetBit bit => exact call_upon (unSetBit_upon bit)
  | isBitSet bit => exact call_upon (observeFlags_upon own agrees.flags)
  | display => exact display_upon own agrees
  | copyClients => exact copyClients_upon
  | addClient client => exact call_upon rfl
  | add index => exact addStep_upon
  | destroy => exact destroy_upon
  | select index round => exact select_upon
  | serve index => exact serve_upon agrees

/-- Contents agree with themselves. -/
theorem agreesOn_self (fuel : Nat) (session : Session) (event : Event)
    : AgreesOn fuel session.prior session event :=
  ⟨fun _ _ => rfl, fun _ _ => rfl, fun _ _ => rfl, fun _ _ => rfl, fun _ _ _ => rfl⟩

/-- What was never set stays as the storage held it. -/
theorem own_step {event : Event} {after : Session} (own : session.upon session.prior = session)
    (stepped : session.step fuel event = .ok after)
    : after.upon after.prior = after := by
  have again := step_upon own (agreesOn_self fuel session event)
  rw [own, stepped] at again
  have same : after = after.upon session.prior := Except.ok.inj again
  have prior : after.prior = session.prior := by
    rw [same]
    rfl
  rw [prior]
  exact same.symm

/-- The constructor leaves the storage as it was, but for one flag. -/
theorem construct_upon (prior other : PriorContents)
    : (construct prior).upon other = construct other :=
  congrArg (fun system => { construct other with system })
    (System.constructServer_upon prior.toStorage other.toStorage)

end Steps

end Session

-----------------------------------------------------------------------------------------
-- Runs
-----------------------------------------------------------------------------------------

/-- What has been seen of a session, the descriptors that were closed, the statements that its
threads have come to, and whether it could not go on.
-/
structure View where
  observed : List Observation
  closed : List Int
  closedClients : List Nat
  main : Statement
  acceptThreads : List AcceptThread
  adders : List AcceptThread
  serviceThreads : List ServiceThread
  loops : Nat → Loop
  refusal : Option Refusal

def Session.view (refusal : Option Refusal) (session : Session) : View :=
  {
    observed := session.observed
    closed := session.system.closed
    closedClients := session.system.heap.closed
    main := session.system.main
    acceptThreads := session.system.acceptThreads
    adders := session.adders
    serviceThreads := session.system.serviceThreads
    loops := session.loops
    refusal
  }

def SessionOutcome.view : SessionOutcome → View
  | .ok session => session.view none
  | .error (refusal, session) => session.view (some refusal)

/-- The session of a server that is constructed in the given storage, up to the first event
that does not go through.
-/
def runFrom (fuel : Nat) (events : List Event) (prior : PriorContents) : SessionOutcome :=
  events.foldlM (Session.step fuel) (Session.construct prior)

/-- Two contents of the storage cannot be told apart by what the server does. -/
def Indistinguishable (fuel : Nat) (events : List Event) (prior other : PriorContents) : Prop :=
  SessionOutcome.view (runFrom fuel events prior)
    = SessionOutcome.view (runFrom fuel events other)

theorem SessionOutcome.view_carry (other : PriorContents) (outcome : SessionOutcome)
    : SessionOutcome.view (carry (Session.upon other) outcome) = SessionOutcome.view outcome := by
  cases outcome <;> rfl

/-- Over storage with other contents, the same events do the same. -/
theorem runFrom_upon {fuel : Nat} {events : List Event} {prior other : PriorContents}
    (agrees
      : GuardedAlong (Session.step fuel) (Session.AgreesOn fuel other)
          (Session.construct prior) events)
    : runFrom fuel events other = carry (Session.upon other) (runFrom fuel events prior) := by
  have own : (Session.construct prior).upon (Session.construct prior).prior
      = Session.construct prior :=
    Session.construct_upon prior prior
  unfold runFrom
  rw [← Session.construct_upon prior other]
  exact foldlM_carry (fun session => session.upon session.prior = session) agrees own
    (fun session event own agrees => Session.step_upon own agrees)
    (fun session event after own stepped => Session.own_step own stepped)

/-- As long as every value that a step reads was set before, or is the same in both contents,
the contents cannot be told apart.
-/
theorem indistinguishable_of_agreesOn {fuel : Nat} {events : List Event}
    {prior other : PriorContents}
    (agrees
      : GuardedAlong (Session.step fuel) (Session.AgreesOn fuel other)
          (Session.construct prior) events)
    : Indistinguishable fuel events prior other := by
  rw [Indistinguishable, runFrom_upon agrees]
  exact (SessionOutcome.view_carry other _).symm

/-- Storage that was never used. -/
def zeroContents : PriorContents where
  state := 0
  masterSockUdp := fun _ => 0
  listeners := { connected := 0, disconnected := 0, received := 0 }
  dataLen := fun _ => 0

/-- Storage in which nothing is zero. -/
def usedContents : PriorContents where
  state := 0xfffffffe
  masterSockUdp := fun address => address + 7
  listeners := { connected := 11, disconnected := 12, received := 13 }
  dataLen := fun thread => thread + 1024

/-- Every client is sent two bytes. -/
def hiRound : Round where
  activeFdSet := fun _ => true
  recvfrom := fun _ => .bytes [104, 105] (by decide)
  around := fun _ => .holding 0 0

/-- The application registers its listeners and clears the flags before it starts the server. A
client connects and is served, and the server is displayed.
-/
def registeredEvents : List Event :=
  [
    .registerListener { connected := 1, disconnected := 2, received := 3 }, .unSetBit 30,
    .server (.call .start), .server .main, .server .main, .server .main, .server .main,
    .server (.service 0), .server (.connect 0 5)
  ]
  ++ List.replicate 6 (.server (.accept 0))
  ++ [.server (.service 0), .select 0 hiRound, .serve 0, .serve 0, .serve 0, .display]

/-- What the storage held is not seen then. -/
theorem indistinguishable_registered
    : Indistinguishable 0 registeredEvents zeroContents usedContents
      ∧ (SessionOutcome.view (runFrom 0 registeredEvents zeroContents)).refusal = none
      ∧ (SessionOutcome.view (runFrom 0 registeredEvents zeroContents)).observed.length = 11 :=
  ⟨indistinguishable_of_agreesOn (by decide +kernel), by decide +kernel, by decide +kernel⟩

/-- `StopConnectionAcceptance` returns at once when the storage of `state` held its flag. -/
theorem not_indistinguishable_stop
    : ¬ ∀ fuel events prior other, Indistinguishable fuel events prior other := by
  intro all
  have same := congrArg View.observed
    (all 0 [.server (.call .stopConnectionAcceptance), .server .main] zeroContents usedContents)
  revert same
  decide

end Ethnm
