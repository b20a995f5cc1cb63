import Ethnm.Programs.Tcpsrv
import Ethnm.Programs.TcpsrvServer
import Ethnm.Server.Events
import Ethnm.Server.PriorContents

/-! The program `tcpsrv` as a whole. Its `main` registers the listeners, starts the server and
displays it once; meanwhile clients connect and are served. Whatever the interleaving, no thread
follows a null or a dangling pointer or leaves the receive buffer or the set of `select`, as long
as no client gets ahead of `Start`, `accept` returns descriptors that have a bit in the set,
`select` returns when a client is ready, and every `recvfrom` succeeds and leaves room for a zero
behind what it has stored. The calls that set the server up (`socket`, `setsockopt`, `bind`,
`listen`, `pthread_create`) are taken to succeed: the program exits when one of them fails.
-/

namespace Ethnm
open Runs

namespace Tcpsrv

-----------------------------------------------------------------------------------------
-- The program
-----------------------------------------------------------------------------------------

/-- `ConnectedListener`, `DisconnectedListener` and `ReceivedListener`. -/
def listeners : Listeners :=
  { connected := 1, disconnected := 2, received := 3 }

/-- The statement of `main` that comes next, `Start` being one while it is inside. -/
inductive Main
  | registerListener
  | start
  | display
  | returned
  deriving DecidableEq, Repr

structure Program where
  main : Main
  session : Session

/-- What can happen next: the main thread goes on, a client connects, or another thread goes on.
-/
inductive Move
  | main
  | connect (index fd : Nat)
  | accept (index : Nat)
  | service (index : Nat)
  | select (index : Nat) (round : Round)
  | serve (index : Nat)

/-- `ReceivedListener` leaves the buffer alone. -/
def quiet (round : Round) : Round :=
  { round with around := fun _ => .holding 0 0 }

/-- What a move does with the server, and where `main` is then. -/
def Program.next (program : Program) : Move → Option (Event × Main)
  | .main =>
      match program.main with
      | .registerListener => some (.registerListener listeners, .start)
      | .start => some (.server (.call .start), .display)
      | .display =>
          -- `Start` first returns.
          if program.session.system.main = .idle then
            some (.display, .returned)
          else
            some (.server .main, .display)
      | .returned => none
  | .connect index fd => some (.server (.connect index fd), program.main)
  | .accept index => some (.server (.accept index), program.main)
  | .service index => some (.server (.service index), program.main)
  | .select index round => some (.select index (quiet round), program.main)
  | .serve index => some (.serve index, program.main)

/-- The end of `main` is the end of all threads. -/
def Program.step (fuel : Nat) (program : Program) (move : Move)
    : Except (Refusal × Program) Program :=
  match program.next move with
  | none => .error (.disabled, program)
  | some (event, main) =>
      if program.main = .returned then
        .error (.disabled, program)
      else
        match program.session.step fuel event with
        | .error (refusal, session) => .error (refusal, { program with session })
        | .ok session => .ok { main, session }

/-- The server is constructed in storage with the given contents. -/
def Program.begin (prior : PriorContents) : Program :=
  { main := .registerListener, session := .construct prior }

-----------------------------------------------------------------------------------------
-- What is given from outside
-----------------------------------------------------------------------------------------

/-- `recvfrom` succeeds, and does not fill the buffer. -/
def leavesRoom : Recvfrom → Bool
  | .error => false
  | .bytes stored _ => stored.length < kBufferSize

/-- Whether a client's descriptor is left in the set. -/
def ready (objects : Address → Option TcpClient) (round : Round) (client : Address) : Bool :=
  (objects client).any (fun object => round.activeFdSet object.fd)

/-- `select` returns when some client is ready, and every client that is ready is given bytes, or
the end of its connection.
-/
def Supplies (objects : Address → Option TcpClient) (clients : List Address) (round : Round)
    : Prop :=
  (∃ client ∈ clients, ready objects round client)
  ∧ ∀ turn < clients.length, ∀ client ∈ clients[turn]?,
      ready objects round client → leavesRoom (round.recvfrom turn)

instance (objects : Address → Option TcpClient) (clients : List Address) (round : Round)
    : Decidable (Supplies objects clients round) :=
  inferInstanceAs (Decidable (_ ∧ _))

/-- What the clients and their sockets do. -/
def Allowed (program : Program) : Move → Prop
  | .connect _ fd => fd < fdSetSize
  | .accept index => Waits program.session.system index
  | .select index round =>
      let system := program.session.system
      ∀ thread ∈ system.serviceThreads[index]?, ∀ service ∈ system.services thread.service,
        Supplies system.heap.objects service.clients round
  | _ => True

instance (program : Program) (move : Move) : Decidable (Allowed program move) := by
  unfold Allowed
  split <;> infer_instance

-----------------------------------------------------------------------------------------
-- The loop of the service's thread
-----------------------------------------------------------------------------------------

/-- What is seen is a call of a registered listener that comes to its end, or no call. -/
def Shows : Observation → Prop
  | .connected listener _ => listener = listeners.connected
  | .received listener _ msg len =>
      listener = listeners.received ∧ (receivedListener msg len).isSome
  | _ => True

/-- A thread is in a round that has been given what it needs: at its end `data_len` is a number
of bytes, as a client that is ready has had its turn or will have it.
-/
structure InRound (session : Session) (thread : ServiceThread) (service : ClientService)
    (round : Round) (turn : Nat)
    : Prop where
  found : session.system.services 1 = some service
  passed : thread.prologue = .passed
  quiet : ∀ place buf, (round.around place).received 0 buf = buf
  room
    : ∀ place < service.clients.length, ∀ client ∈ service.clients[place]?,
        ready session.system.heap.objects round client → leavesRoom (round.recvfrom place)
  counted
    : 0 ≤ session.dataLen thread.id ∧ session.dataLen thread.id ≤ kBufferSize
      ∨ ∃ client ∈ service.clients.drop turn, ready session.system.heap.objects round client

/-- A thread can be at a place of its loop. -/
def Fits (session : Session) (thread : ServiceThread) : Loop → Prop
  | .select => True
  | .receive round turn => ∃ service, InRound session thread service round turn
  | .handOver round turn client =>
      Plain session.system client ∧ ∃ service, InRound session thread service round (turn + 1)

/-- The receive buffer holds a string whatever it begins with. -/
structure Ended (data : List UInt8) : Prop where
  room : data.length = kBufferSize
  last : data[kBufferSize - 1]? = some 0

structure Healthy (session : Session) : Prop where
  whole : Whole session.system
  registered : session.system.main ≠ .constructed → session.listeners = some listeners
  unused : ∀ id, session.system.fresh ≤ id → session.loops id = .select
  ended : Ended session.data
  fits
    : ∀ thread ∈ session.system.serviceThreads, Fits session thread (session.loops thread.id)
  shows : ∀ observation ∈ session.observed, Shows observation

/-- An event leaves the session healthy, if it goes through at all. -/
abbrev Stays (outcome : SessionOutcome) : Prop :=
  Leads (fun failed => failed.1 = .disabled) Healthy outcome

section Buffer

variable {data : List UInt8}

theorem ended_replicate : Ended (List.replicate kBufferSize 0) :=
  ⟨List.length_replicate, List.getElem?_replicate_of_lt (by decide)⟩

theorem Ended.isSome_receivedListener (ended : Ended data) (len : UInt16)
    : (receivedListener data len).isSome := by
  rw [receivedListener, cString, if_pos (List.mem_of_getElem? ended.last)]
  rfl

/-- What leaves room for a zero leaves the zero there. -/
theorem Ended.fill (ended : Ended data) {result : Recvfrom} (leaves : leavesRoom result)
    : Ended (result.fill data) ∧ 0 ≤ result.dataLen ∧ result.dataLen ≤ kBufferSize := by
  obtain ⟨room, last⟩ := ended
  cases result with
  | error => cases leaves
  | bytes stored sized =>
      have within : stored.length < kBufferSize := of_decide_eq_true leaves
      refine ⟨⟨?_, ?_⟩, Int.natCast_nonneg _, Int.ofNat_le.mpr sized⟩
      · rw [Recvfrom.fill, List.length_append, List.length_drop]
        omega
      · rw [Recvfrom.fill, List.getElem?_append_right (by omega), List.getElem?_drop, ← last]
        congr 1
        omega

/-- `memset` leaves the zero there. -/
theorem Ended.clear (ended : Ended data) {count : Nat} (fits : count ≤ kBufferSize)
    : Ended (List.replicate count 0 ++ data.drop count) := by
  obtain ⟨room, last⟩ := ended
  constructor
  · rw [List.length_append, List.length_replicate, List.length_drop]
    omega
  · by_cases inside : kBufferSize - 1 < count
    · rw [List.getElem?_append_left (by rwa [List.length_replicate]),
        List.getElem?_replicate_of_lt inside]
    · rw [List.getElem?_append_right (by rw [List.length_replicate]; omega),
        List.length_replicate, List.getElem?_drop, ← last]
      congr 1
      omega

end Buffer

section Events

variable {session : Session} {thread : ServiceThread} {round : Round} {turn : Nat}

theorem ready_congr {objects others : Address → Option TcpClient} {client : Address}
    (same : others client = objects client)
    : ready others round client = ready objects round client := by
  rw [ready, same]
  rfl

/-- A thread fits as long as its service and the clients stay as they are. -/
theorem Fits.steady {after : Session} {now : ServiceThread} {loop : Loop}
    (fits : Fits session thread loop) (whole : Whole session.system)
    (steady : Steady session.system after.system)
    (dataLen : ∀ id, after.dataLen id = session.dataLen id) (same : thread.id = now.id)
    (stays
      : thread.prologue = .passed →
          now.prologue = .passed ∧ after.system.services 1 = session.system.services 1)
    : Fits after now loop := by
  obtain ⟨db, current, components⟩ := whole
  have moves {round : Round} {turn : Nat}
      (inRound : ∃ service, InRound session thread service round turn)
      : ∃ service, InRound after now service round turn := by
    obtain ⟨service, found, passed, quiet, room, counted⟩ := inRound
    obtain ⟨still, kept⟩ := stays passed
    obtain rfl : service = current := Option.some.inj (found.symm.trans components.found)
    have there (client : Address) (listed : client ∈ service.clients)
        : ready after.system.heap.objects round client
          = ready session.system.heap.objects round client :=
      ready_congr (steady.objects client
        (components.plain client (mem_held.mpr (.inr (.inl listed)))).1)
    refine ⟨service, kept.trans found, still, quiet, fun place bound client here isReady => ?_,
      ?_⟩
    · rw [there client (List.mem_of_getElem? here)] at isReady
      exact room place bound client here isReady
    · rw [dataLen, ← same]
      refine counted.imp_right ?_
      rintro ⟨client, later, isReady⟩
      refine ⟨client, later, ?_⟩
      rw [there client (List.mem_of_mem_drop later)]
      exact isReady
  cases loop with
  | select => trivial
  | receive round turn => exact moves fits
  | handOver round turn client =>
      exact ⟨fits.1.mono steady.fresh steady.objects, moves fits.2⟩

/-- A step of the server keeps the session healthy. -/
theorem Healthy.steady {system : System} (healthy : Healthy session) (whole : Whole system)
    (steady : Steady session.system system) {seen : List Observation}
    (shows : ∀ observation ∈ seen, Shows observation) (written : BitVec 32)
    : Healthy { session.observe seen with system, written } := by
  refine ⟨whole, fun begun => healthy.registered (mt steady.main.mpr begun),
    fun id unused => healthy.unused id (Nat.le_trans steady.fresh unused), healthy.ended,
    fun now member => ?_, List.forall_mem_append.mpr ⟨healthy.shows, shows⟩⟩
  change Fits _ now (session.loops now.id)
  rcases steady.threads now member with new | ⟨thread, present, same, stays⟩
  · rw [healthy.unused now.id (Nat.le_of_eq new.symm)]
    trivial
  · rw [← same]
    exact (healthy.fits thread present).steady healthy.whole steady (fun _ => rfl) same stays

/-- Flags are no calls. -/
theorem shows_flags (bits : List (BitVec 32)) (session : Session)
    : ∀ observation
        ∈ bits.map (fun bit => Observation.isBitSet bit (session.system.server.isBitSet bit)),
        Shows observation := by
  intro observation member
  obtain ⟨bit, -, rfl⟩ := List.mem_map.mp member
  trivial

/-- A step of the server leaves the session healthy if it leaves the server whole. -/
theorem Healthy.serverStep (healthy : Healthy session) {action : Action}
    (keeps : Keeps session.system (Ethnm.step session.system action))
    : Stays (session.serverStep action) := by
  unfold Session.serverStep
  cases stepped : Ethnm.step session.system action with
  | error halt =>
      rw [stepped] at keeps
      obtain rfl : halt = .disabled := keeps
      rfl
  | ok system =>
      rw [stepped] at keeps
      obtain ⟨whole, steady⟩ := keeps
      have flags := shows_flags (session.system.tests action).toList session
      have kept := healthy.steady whole steady flags
        (session.written ||| session.system.writes action)
      cases action with
      | connect index fd =>
          obtain ⟨db, service, components⟩ := healthy.whole
          have listener : session.listener = listeners := by
            cases stepped_of_connectStep stepped with
            | aside isMain => cases isMain
            | connect accepting =>
                have begun := components.phase.begun_of_accepting accepting
                rw [Session.listener, healthy.registered begun]
                rfl
          have connected
              : Shows (.connected session.listener.connected session.system.fresh) :=
            congrArg Listeners.connected listener
          have shown := healthy.steady whole steady
            (List.forall_mem_append.mpr ⟨flags, List.forall_mem_singleton.mpr connected⟩)
            (session.written ||| session.system.writes (.connect index fd))
          change Healthy (Session.callConnected _ _)
          unfold Session.callConnected
          dsimp only
          split
          · exact kept
          · simp only [Session.observe, Session.observeFlags, ← List.append_assoc] at shown ⊢
            exact shown
      | call | main | accept | service => exact kept

/-- `main` calls `Start` when it has registered. -/
theorem Healthy.start (healthy : Healthy session) (constructed : session.system.main = .constructed)
    (registered : session.listeners = some listeners)
    : ∃ after,
        session.serverStep (.call .start) = .ok after
        ∧ Healthy after
        ∧ after.listeners = some listeners
        ∧ after.system.main ≠ .constructed := by
  obtain ⟨db, service, components⟩ := healthy.whole
  have stepped : callStep .start session.system
      = .ok (session.system.goto .startStartManager) := by
    rw [callStep, constructed]
    rfl
  have place : At .startStartManager [] .zeroed [] service
      (session.system.goto .startStartManager) := by
    cases components.phase with
    | constructed place => exact ⟨rfl, place.accepting, place.handle, place.serving⟩
    | called place | starting _ place => cases place.main.symm.trans constructed
    | serving begun _ _ place | pushing begun place | allocating begun place
    | restarting begun place =>
        exact absurd (place.main.symm.trans constructed) (ne_constructed begun)
  let after := {
    session.observe [] with
    system := session.system.goto .startStartManager
    written := session.written ||| 0
  }
  refine ⟨after, ?_, ⟨⟨db, service, components.manager, components.current, components.stored,
    components.found, components.plain, components.ids, .called place⟩, fun _ => registered,
    healthy.unused, healthy.ended, fun thread member => ?_, ?_⟩, registered,
    fun goes => by cases goes⟩
  · unfold Session.serverStep
    change (session.attempt (callStep .start session.system) >>= _) = _
    rw [stepped]
    rfl
  · rw [place.serving] at member
    cases member
  · exact List.forall_mem_append.mpr
      ⟨healthy.shows, fun observation none => absurd none List.not_mem_nil⟩

/-- `main` goes on with `Start`. -/
theorem Healthy.mainStep (healthy : Healthy session)
    (begun : session.system.main ≠ .constructed) (busy : session.system.main ≠ .idle)
    : ∃ after,
        session.serverStep .main = .ok after
        ∧ Healthy after
        ∧ after.system.main ≠ .constructed := by
  obtain ⟨db, service, components⟩ := healthy.whole
  obtain ⟨system, stepped, whole, steady⟩ := components.mainStep begun busy
  have flags := shows_flags (session.system.tests .main).toList session
  refine ⟨_, ?_, healthy.steady whole steady flags
    (session.written ||| session.system.writes .main), mt steady.main.mp begun⟩
  unfold Session.serverStep
  change (session.attempt (Ethnm.mainStep session.system) >>= _) = _
  rw [stepped]
  rfl

/-- `main` registers its listeners, or looks at the server. -/
theorem Healthy.looks (healthy : Healthy session) {seen : List Observation}
    (shows : ∀ observation ∈ seen, Shows observation) {registered : Option Listeners}
    (same : registered = session.listeners ∨ registered = some listeners)
    : Healthy { session.observe seen with listeners := registered } := by
  refine ⟨healthy.whole, fun begun => ?_, healthy.unused, healthy.ended,
    fun thread member => ?_, List.forall_mem_append.mpr ⟨healthy.shows, shows⟩⟩
  · rcases same with same | same
    · exact same.trans (healthy.registered begun)
    · exact same
  · exact (healthy.fits thread member).steady healthy.whole (Steady.refl _) (fun _ => rfl) rfl
      (fun passed => ⟨passed, rfl⟩)

/-- `main` registers the listeners before it starts the server. -/
theorem Healthy.registerListener (healthy : Healthy session) (fuel : Nat)
    : ∃ after,
        session.step fuel (.registerListener listeners) = .ok after
        ∧ Healthy after
        ∧ after.listeners = some listeners
        ∧ after.system = session.system := by
  obtain ⟨db, service, components⟩ := healthy.whole
  have looks := healthy.looks (fun observation none => absurd none List.not_mem_nil)
    (.inr (rfl : some listeners = some listeners))
  rw [Session.observe_nil] at looks
  refine ⟨session.registerListener listeners, ?_, looks, rfl, rfl⟩
  change (session.attempt session.system.tcpServer >>= _) = _
  rw [components.tcpServer]
  rfl

/-- `main` displays the server, all of whose clients exist. -/
theorem Healthy.display (healthy : Healthy session)
    : ∃ after,
        session.display = .ok after
        ∧ Healthy after
        ∧ after.listeners = session.listeners
        ∧ after.system = session.system := by
  obtain ⟨db, service, components⟩ := healthy.whole
  have live : db.all (fun client => (session.system.heap.objects client).isSome) = true := by
    refine List.all_eq_true.mpr (fun client stored => ?_)
    obtain ⟨-, fd, -, object⟩ := components.plain client (mem_held.mpr (.inl stored))
    rw [object]
    rfl
  have flags := shows_flags session.system.displays session
  unfold Session.display
  rw [components.tcpServer]
  by_cases running : session.system.server.isBitSet tcpServerRunning
  · let shown := db.takeWhile (fun client => (session.system.heap.objects client).isSome)
    have displayed : Shows (.displayed shown) := trivial
    have shows := healthy.looks
      (List.forall_mem_append.mpr ⟨flags, List.forall_mem_singleton.mpr displayed⟩) (.inl rfl)
    rw [← Session.observe_observe] at shows
    refine ⟨(session.observeFlags session.system.displays).observe [.displayed shown],
      (if_pos running).trans ?_, shows, rfl, rfl⟩
    rw [components.stored]
    exact if_pos live
  · refine ⟨session.observeFlags session.system.displays, if_neg running,
      healthy.looks flags (.inl rfl), rfl, rfl⟩

/-- The only thread goes on in its loop. -/
theorem Healthy.goesOn {after : Session} {loop : Loop} (healthy : Healthy session)
    (seen : List Observation) (member : thread ∈ session.system.serviceThreads)
    (system : after.system = session.system) (listening : after.listeners = session.listeners)
    (loops : after.loops = fun id => if id = thread.id then loop else session.loops id)
    (ended : Ended after.data) (fits : Fits after thread loop)
    (observed : after.observed = session.observed ++ seen)
    (shows : ∀ observation ∈ seen, Shows observation)
    : Healthy after := by
  obtain ⟨db, service, components⟩ := healthy.whole
  obtain ⟨only, -, -⟩ := components.phase.sole member
  refine ⟨system ▸ healthy.whole, fun begun => ?_, fun id unused => ?_, ended,
    fun other present => ?_, ?_⟩
  · rw [system] at begun
    rw [listening]
    exact healthy.registered begun
  · rw [system] at unused
    have created := components.ids thread member
    rw [loops]
    exact (if_neg (by omega)).trans (healthy.unused id unused)
  · rw [system, only] at present
    obtain rfl := List.mem_singleton.mp present
    have here : after.loops other.id = loop := by
      rw [loops]
      exact if_pos rfl
    rw [here]
    exact fits
  · rw [observed]
    exact List.forall_mem_append.mpr ⟨healthy.shows, shows⟩

/-- The thread begins a round. -/
theorem Healthy.select (healthy : Healthy session) {index : Nat} {round : Round}
    (supplies
      : ∀ thread ∈ session.system.serviceThreads[index]?,
          ∀ service ∈ session.system.services thread.service,
            Supplies session.system.heap.objects service.clients round)
    : Stays (session.select index (quiet round)) := by
  obtain ⟨db, service, components⟩ := healthy.whole
  unfold Session.select
  split
  · rfl
  · rename_i thread present
    have member := List.mem_of_getElem? present
    obtain ⟨-, serves, -⟩ := components.phase.sole member
    have found : session.system.services thread.service = some service :=
      serves ▸ components.found
    obtain ⟨someone, room⟩ := supplies thread present service found
    split
    · rename_i passed selecting
      rw [service_of_some found]
      exact healthy.goesOn [] member rfl rfl rfl healthy.ended
        ⟨service, components.found, passed, fun _ _ => rfl, room, .inr someone⟩
        (List.append_nil _).symm (fun observation none => absurd none List.not_mem_nil)
    · rfl

/-- At the end of a round `data_len` is a number of bytes. -/
theorem Healthy.clear (healthy : Healthy session)
    (member : thread ∈ session.system.serviceThreads)
    (counted : 0 ≤ session.dataLen thread.id ∧ session.dataLen thread.id ≤ kBufferSize)
    : Stays (session.clear thread.id) := by
  have fits : (session.dataLen thread.id).toNat ≤ kBufferSize := by omega
  have within : 0 ≤ session.dataLen thread.id
      ∧ (session.dataLen thread.id).toNat ≤ session.data.length :=
    ⟨counted.1, healthy.ended.room ▸ fits⟩
  unfold Session.clear
  dsimp only [Service.clear, Service.start]
  rw [if_pos within]
  exact healthy.goesOn [] member rfl rfl rfl (healthy.ended.clear fits) trivial
    (List.append_nil _).symm (fun observation none => absurd none List.not_mem_nil)

/-- A turn receives for its client, if the client is ready. -/
theorem Healthy.receive (healthy : Healthy session)
    (member : thread ∈ session.system.serviceThreads)
    (receiving : session.loops thread.id = .receive round turn)
    : Stays (session.receive thread round turn) := by
  have fits := healthy.fits thread member
  rw [receiving] at fits
  obtain ⟨service, inRound⟩ := fits
  obtain ⟨found, passed, quiet, room, counted⟩ := inRound
  obtain ⟨db, current, components⟩ := healthy.whole
  obtain ⟨-, serves, -⟩ := components.phase.sole member
  obtain rfl : service = current := Option.some.inj (found.symm.trans components.found)
  have served : session.system.services thread.service = some service := serves ▸ found
  unfold Session.receive
  rw [service_of_some served]
  dsimp only [Session.attempt, bind, Except.bind]
  cases here : service.clients[turn]? with
  | none =>
      have ended : service.clients.drop turn = [] :=
        List.drop_eq_nil_of_le (List.getElem?_eq_none_iff.mp here)
      rcases counted with counts | ⟨client, later, -⟩
      · exact healthy.clear member counts
      · rw [ended] at later
        cases later
  | some client =>
      have listed := List.mem_of_getElem? here
      have plain := components.plain client (mem_held.mpr (.inr (.inl listed)))
      obtain ⟨-, fd, -, object⟩ := id plain
      obtain ⟨bound, position⟩ := List.getElem?_eq_some_iff.mp here
      have isReady : ready session.system.heap.objects round client = round.activeFdSet fd := by
        rw [ready, object]
        rfl
      dsimp only
      rw [object]
      dsimp only
      by_cases active : round.activeFdSet fd = true
      · obtain ⟨ended, counts⟩ := healthy.ended.fill
          (room turn bound client here (isReady.trans active))
        have filled : (session.fill thread.id (round.recvfrom turn)).dataLen thread.id
            = (round.recvfrom turn).dataLen :=
          congrArg (Option.getD · _) (if_pos rfl)
        have goes : Healthy ((session.fill thread.id (round.recvfrom turn)).setLoop thread.id
            (.handOver round turn client)) :=
          healthy.goesOn [] member rfl rfl rfl ended
            ⟨plain, service, found, passed, quiet, room, .inl (filled ▸ counts)⟩
            (List.append_nil _).symm (fun observation none => absurd none List.not_mem_nil)
        rw [if_pos active]
        exact goes
      · -- A client that is not ready is not the one that is still to come.
        have later
            : 0 ≤ session.dataLen thread.id ∧ session.dataLen thread.id ≤ kBufferSize
              ∨ ∃ other ∈ service.clients.drop (turn + 1),
                ready session.system.heap.objects round other := by
          refine counted.imp_right ?_
          rintro ⟨other, next, otherReady⟩
          refine ⟨other, ?_, otherReady⟩
          rw [List.drop_eq_getElem_cons bound, position] at next
          rcases List.mem_cons.mp next with rfl | next
          · exact absurd (isReady.symm.trans otherReady) active
          · exact next
        rw [if_neg active]
        exact healthy.goesOn [] member rfl rfl rfl healthy.ended
          ⟨plain, service, found, passed, quiet, room, later⟩ (List.append_nil _).symm
          (fun observation none => absurd none List.not_mem_nil)

/-- A turn hands the buffer to `ReceivedListener`, which finds the end of the string in it. -/
theorem Healthy.handOver {fuel : Nat} {client : Address} {size : UInt16}
    (healthy : Healthy session) (member : thread ∈ session.system.serviceThreads)
    (handing : session.loops thread.id = .handOver round turn client)
    : Stays ((session.notice thread.id client).handOver fuel thread.id round turn client size) := by
  have fits := healthy.fits thread member
  rw [handing] at fits
  obtain ⟨⟨-, fd, -, object⟩, service, inRound⟩ := fits
  obtain ⟨db, current, components⟩ := healthy.whole
  obtain ⟨-, -, begun⟩ := components.phase.sole member
  obtain ⟨found, passed, quiet, room, counted⟩ := inRound
  have listener : session.listener = listeners := by
    rw [Session.listener, healthy.registered begun]
    rfl
  obtain ⟨seen, noticed, shown⟩
      : ∃ seen,
          session.notice thread.id client = session.observe seen
          ∧ ∀ observation ∈ seen, Shows observation := by
    unfold Session.notice
    split
    · exact ⟨_, rfl, List.forall_mem_singleton.mpr trivial⟩
    · exact ⟨[], (Session.observe_nil session).symm,
        fun observation none => absurd none List.not_mem_nil⟩
  rw [noticed]
  have there : (session.observe seen).system.heap.objects client = some ⟨fd, none⟩ := object
  unfold Session.handOver
  rw [there]
  change Stays ((session.observe seen).attempt session.system.tcpServer >>= _)
  rw [components.tcpServer]
  change Healthy (Session.setLoop _ _ (Session.callReceived _ _ _ _))
  unfold Session.callReceived
  dsimp only
  split
  · exact healthy.goesOn _ member rfl rfl rfl healthy.ended
      ⟨service, found, passed, quiet, room, counted⟩ rfl shown
  · have received
        : Shows (.received session.listener.received client session.data size) :=
      ⟨congrArg Listeners.received listener, healthy.ended.isSome_receivedListener size⟩
    have left : Ended ((round.around turn).received 0 session.data) := by
      rw [quiet turn]
      exact healthy.ended
    exact healthy.goesOn _ member rfl rfl rfl left
      ⟨service, found, passed, quiet, room, counted⟩ (List.append_assoc _ _ _)
      (List.forall_mem_append.mpr ⟨shown, List.forall_mem_singleton.mpr received⟩)

/-- The thread goes on in its loop. -/
theorem Healthy.serve (healthy : Healthy session) (fuel index : Nat)
    : Stays (session.serve fuel index) := by
  unfold Session.serve
  split
  · rfl
  · rename_i thread present
    have member := List.mem_of_getElem? present
    cases loop : session.loops thread.id with
    | select => rfl
    | receive round turn => exact healthy.receive member loop
    | handOver round turn client => exact healthy.handOver member loop

end Events

-----------------------------------------------------------------------------------------
-- Runs
-----------------------------------------------------------------------------------------

/-- Where `main` is, and what it has done by then. -/
structure Safe (program : Program) : Prop where
  healthy : Healthy program.session
  constructed
    : program.main = .registerListener ∨ program.main = .start →
        program.session.system.main = .constructed
  begun
    : program.main = .display → program.session.system.main ≠ .constructed
  registered : program.main = .start → program.session.listeners = some listeners

section Runs

variable {fuel : Nat} {prior : PriorContents} {program : Program}

theorem healthy_construct (prior : PriorContents) : Healthy (.construct prior) := by
  have place : At .constructed [] .zeroed [] { clients := [], thread := .zeroed }
      (TcpServer.construct prior.toStorage) :=
    ⟨rfl, rfl, rfl, rfl⟩
  have components : Components [] { clients := [], thread := .zeroed }
      (TcpServer.construct prior.toStorage) :=
    ⟨rfl, rfl, rfl, rfl, fun client nobody => absurd nobody List.not_mem_nil,
      fun thread nothing => absurd nothing List.not_mem_nil, .constructed place⟩
  exact ⟨⟨_, _, components⟩, fun begun => absurd rfl begun, fun _ _ => rfl, ended_replicate,
    fun thread nothing => absurd nothing List.not_mem_nil,
    fun observation nothing => absurd nothing List.not_mem_nil⟩

/-- `main` goes on until it returns. -/
theorem Safe.mainStep (safe : Safe program) (fuel : Nat) (running : program.main ≠ .returned)
    : ∃ after, program.step fuel .main = .ok after ∧ Safe after := by
  obtain ⟨healthy, constructed, begun, registered⟩ := safe
  unfold Program.step Program.next
  cases main : program.main with
  | registerListener =>
      obtain ⟨after, goes, stays, listening, same⟩ := healthy.registerListener fuel
      refine ⟨{ main := .start, session := after }, ?_, stays, fun _ => ?_,
        (fun other => by cases other), fun _ => listening⟩
      · simp [goes]
      · exact same ▸ constructed (.inl main)
  | start =>
      obtain ⟨after, goes, stays, listening, later⟩ :=
        healthy.start (constructed (.inr main)) (registered main)
      refine ⟨{ main := .display, session := after }, ?_, stays, fun other => ?_,
        fun _ => later, fun other => by cases other⟩
      · simp [Session.step, goes]
      · rcases other with other | other <;> cases other
  | display =>
      by_cases idle : program.session.system.main = .idle
      · obtain ⟨after, goes, stays, -, -⟩ := healthy.display
        refine ⟨{ main := .returned, session := after }, ?_, stays, fun other => ?_,
          (fun other => by cases other), fun other => by cases other⟩
        · simp [Session.step, idle, goes]
        · rcases other with other | other <;> cases other
      · obtain ⟨after, goes, stays, later⟩ := healthy.mainStep (begun main) idle
        refine ⟨{ main := .display, session := after }, ?_, stays, fun other => ?_,
          fun _ => later, fun other => by cases other⟩
        · simp [Session.step, idle, goes]
        · rcases other with other | other <;> cases other
  | returned => exact absurd main running

/-- Only the main thread changes where it is. -/
theorem main_of_stepped {system after : System} {action : Action}
    (stepped : Stepped system action after) (other : action.isMain = false)
    : after.main = system.main := by
  cases stepped with
  | aside isMain => cases isMain.symm.trans other
  | mainStopThread | mainDropClients | mainDelete | mainClear | mainNew | mainStartThread =>
      cases other
  | connect | update | listen | stopThread | pushBack | calloc | startThread | test | copy => rfl

/-- Whether an event is one of the other threads. -/
def others : Event → Bool
  | .server action => !action.isMain
  | .select _ _ | .serve _ => true
  | _ => false

/-- The other threads leave the main thread and the listeners as they are. -/
theorem frame_of_step {session after : Session} {event : Event} (other : others event)
    (stepped : session.step fuel event = .ok after)
    : after.system.main = session.system.main ∧ after.listeners = session.listeners := by
  cases Session.did_of_step stepped with
  | @server action system seen written moved silent =>
      cases action with
      | call | main => cases other
      | connect index fd => exact ⟨main_of_stepped (stepped_of_connectStep moved) rfl, rfl⟩
      | accept index => exact ⟨main_of_stepped (stepped_of_acceptStep moved) rfl, rfl⟩
      | service index => exact ⟨main_of_stepped (stepped_of_serviceStep moved) rfl, rfl⟩
  | looks looks =>
      cases event with
      | registerListener | isBitSet | display | copyClients => cases other
      | _ => cases looks
  | setBit | unSetBit | addClient | add | destroy => cases other
  | receive =>
      split
      · exact ⟨rfl, rfl⟩
      · exact ⟨rfl, rfl⟩
  | select | clear | handOver => exact ⟨rfl, rfl⟩

/-- The other threads go on as their events do. -/
theorem Safe.thread (safe : Safe program) {move : Move} {event : Event}
    (next : program.next move = some (event, program.main)) (other : others event)
    (stays : Stays (program.session.step fuel event))
    : Leads (fun failed => failed.1 = .disabled) Safe (program.step fuel move) := by
  unfold Program.step
  rw [next]
  dsimp only
  split
  · rfl
  · cases stepped : program.session.step fuel event with
    | error failed =>
        rw [stepped] at stays
        exact stays
    | ok after =>
        rw [stepped] at stays
        obtain ⟨main, listening⟩ := frame_of_step other stepped
        exact ⟨stays, fun early => main.trans (safe.constructed early),
          fun late => main ▸ safe.begun late,
          fun starting => listening.trans (safe.registered starting)⟩

/-- Every allowed move leads on, unless its thread is not at a statement. -/
theorem Safe.step (safe : Safe program) {move : Move} (allowed : Allowed program move)
    : Leads (fun failed => failed.1 = .disabled) Safe (program.step fuel move) := by
  obtain ⟨db, service, components⟩ := safe.healthy.whole
  cases move with
  | main =>
      by_cases running : program.main = .returned
      · unfold Program.step Program.next
        rw [running]
        rfl
      · obtain ⟨after, goes, kept⟩ := safe.mainStep fuel running
        rw [goes]
        exact kept
  | connect index fd =>
      exact safe.thread rfl rfl (safe.healthy.serverStep (components.connectStep index allowed))
  | accept index =>
      exact safe.thread rfl rfl (safe.healthy.serverStep (components.acceptStep allowed))
  | service index =>
      exact safe.thread rfl rfl (safe.healthy.serverStep (components.serviceStep index))
  | select index round => exact safe.thread rfl rfl (safe.healthy.select allowed)
  | serve index => exact safe.thread rfl rfl (safe.healthy.serve fuel index)

/-- Whatever the interleaving, no thread of `tcpsrv` follows a null or a dangling pointer or leaves
the receive buffer, the main thread never waits for another one, every listener that is called was
registered and comes to its end, and the prologue and the loop of a service's thread stay inside
the set of descriptors and find every client there; by induction on the run.
-/
theorem safe_of_run {history : List (Program × Move)}
    (run : Run (Program.step fuel) (Program.begin prior) history program)
    (allowed : Guarded Allowed history)
    : (∀ move,
        Allowed program move →
          ∀ stop broken, program.step fuel move ≠ .error (.stopped stop, broken))
      ∧ (program.main ≠ .returned → ∃ after, program.step fuel .main = .ok after)
      ∧ (∀ observation ∈ program.session.observed, Shows observation)
      ∧ ∀ thread ∈ program.session.system.serviceThreads,
          ∃ service clients,
            program.session.system.services thread.service = some service
            ∧ clients.map some = service.clients.map program.session.system.heap.objects
            ∧ SelectCovers clients := by
  have start : Safe (Program.begin prior) :=
    ⟨healthy_construct prior, fun _ => rfl, (fun other => by cases other),
      fun other => by cases other⟩
  obtain ⟨safe, leads⟩ := run.safe allowed start (fun _ _ safe allowed => safe.step allowed)
  refine ⟨fun move now stop broken failed => ?_, fun running => ?_, safe.healthy.shows,
    fun thread member => ?_⟩
  · have goes := leads move now
    rw [failed] at goes
    cases goes
  · obtain ⟨after, goes, -⟩ := safe.mainStep fuel running
    exact ⟨after, goes⟩
  · obtain ⟨db, service, components⟩ := safe.healthy.whole
    obtain ⟨-, serves, -⟩ := components.phase.sole member
    obtain ⟨clients, exist, covered⟩ := components.selectCovers
    exact ⟨service, clients, serves ▸ components.found, exist, covered⟩

/-- A client connects before `Start` has started the service's thread, and is sent two bytes. -/
def earlyMoves : List Move :=
  [.main, .main, .main, .connect 0 5, .accept 0, .main] ++ List.replicate 5 (.accept 0)
  ++ [.main, .main, .service 0, .select 0 hiRound, .serve 0, .serve 0]

/-- The program has printed what it received, and is about to display the server. -/
theorem safe_of_run_early
    : ∃ history program,
        Run (Program.step 0) (Program.begin zeroContents) history program
        ∧ program.main = .display
        ∧ (program.session.observed.filterMap (Observation.message 2)).map Prod.snd = [2]
        ∧ program.session.system.serviceThreads.map ServiceThread.service = [1]
        ∧ (∃ after, program.step 0 .main = .ok after)
        ∧ (∀ observation ∈ program.session.observed, Shows observation)
        ∧ ∀ thread ∈ program.session.system.serviceThreads,
            ∃ service clients,
              program.session.system.services thread.service = some service
              ∧ clients.map some = service.clients.map program.session.system.heap.objects
              ∧ SelectCovers clients := by
  have passed : executesTo (Program.step 0) (Program.begin zeroContents) earlyMoves
      (fun history program =>
        decide (Guarded Allowed history
          ∧ program.main = .display
          ∧ (program.session.observed.filterMap (Observation.message 2)).map Prod.snd = [2]
          ∧ program.session.system.serviceThreads.map ServiceThread.service = [1]))
      = true := by decide +kernel
  obtain ⟨history, program, run, test⟩ := exists_run_of_executesTo passed
  obtain ⟨allowed, main, printed, serving⟩ := of_decide_eq_true test
  obtain ⟨-, goes, shows, covered⟩ := safe_of_run run allowed
  refine ⟨history, program, run, main, printed, serving, goes ?_, shows, covered⟩
  rw [main]
  decide

end Runs

end Tcpsrv

end Ethnm
