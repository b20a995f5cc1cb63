import Ethnm.Server.Turns

/-! What an event can do to a session: one inversion for every kind of event. The invariants over
whole sessions are derived from these.
-/

namespace Ethnm
open Runs

/-- A message that the application gets for a client. -/
def Observation.message (client : Address) : Observation → Option (List UInt8 × Nat)
  | .received _ other msg len => if other = client then some (msg, len.toNat) else none
  | _ => none

/-- Nothing of what is seen is a message for the client. -/
def Silent (client : Address) (seen : List Observation) : Prop :=
  ∀ observation ∈ seen, observation.message client = none

/-- Whether an event only sets the listeners, or looks at the server. -/
def Event.looks : Event → Bool
  | .registerListener _ | .isBitSet _ | .display | .copyClients => true
  | _ => false

namespace Session

/-- What a turn receives for a client is in the buffer, and counted. -/
def fill (thread : Nat) (result : Recvfrom) (session : Session) : Session :=
  {
    session with
    data := result.fill session.data
    dataLens :=
      fun other => if other = thread then some result.dataLen else session.dataLens other
  }

/-- The session after an event that goes through. -/
inductive Did (session : Session) : Event → Session → Prop
  | server {action system seen written}
    (stepped : Ethnm.step session.system action = .ok system)
    (silent : ∀ client, Silent client seen)
    : Did session (.server action) { session.observe seen with system, written }
  | looks {event listeners seen} (looks : event.looks) (silent : ∀ client, Silent client seen)
    : Did session event { session.observe seen with listeners }
  | setBit (bit : BitVec 32) : Did session (.setBit bit) (session.setBit bit)
  | unSetBit (bit : BitVec 32) : Did session (.unSetBit bit) (session.unSetBit bit)
  | addClient (client : TcpClient) : Did session (.addClient client) (session.addClient client)
  | add {index added}
    (stepped
      : acceptStep index { session.system with acceptThreads := session.adders } = .ok added)
    : Did session (.add index) {
        session with
        system := { added with acceptThreads := session.system.acceptThreads }
        adders := added.acceptThreads
      }
  | destroy : Did session .destroy { session with system := session.system.goto .stopDelete }
  | select {index thread} {round : Round}
    (present : session.system.serviceThreads[index]? = some thread)
    (selecting : session.loops thread.id = .select)
    : Did session (.select index round) (session.setLoop thread.id (.receive round 0))
  | clear {index thread round turn service data}
    (present : session.system.serviceThreads[index]? = some thread)
    (receiving : session.loops thread.id = .receive round turn)
    (found : session.system.services thread.service = some service)
    (ended : service.clients[turn]? = none)
    (room : data.length = session.data.length)
    : Did session (.serve index) ({ session with data }.setLoop thread.id .select)
  | receive {index thread round turn service client object}
    (present : session.system.serviceThreads[index]? = some thread)
    (receiving : session.loops thread.id = .receive round turn)
    (found : session.system.services thread.service = some service)
    (here : service.clients[turn]? = some client)
    (there : session.system.heap.objects client = some object)
    : Did session (.serve index)
        ((if round.activeFdSet object.fd then session.fill thread.id (round.recvfrom turn)
          else session).setLoop
          thread.id (.handOver round turn client))
  | handOver {index thread round turn client heap data seen}
    (present : session.system.serviceThreads[index]? = some thread)
    (handing : session.loops thread.id = .handOver round turn client)
    (others
      : ∀ other, other ≠ client → heap.objects other = session.system.heap.objects other)
    (silent : ∀ other, other ≠ client → Silent other seen)
    (room : data.length = session.data.length)
    : Did session (.serve index)
        ({ session.observe seen with system := { session.system with heap }, data }.setLoop
          thread.id (.receive round (turn + 1)))

section Inversion

variable {fuel : Nat} {session after : Session} {event : Event}

-----------------------------------------------------------------------------------------
-- What is seen
-----------------------------------------------------------------------------------------

theorem observe_observe (first second : List Observation) (session : Session)
    : (session.observe first).observe second = session.observe (first ++ second) := by
  simp only [observe, List.append_assoc]

theorem silent_append {client : Address} {first second : List Observation}
    : Silent client (first ++ second) ↔ Silent client first ∧ Silent client second :=
  List.forall_mem_append

theorem silent_singleton {client : Address} {observation : Observation}
    : Silent client [observation] ↔ observation.message client = none :=
  List.forall_mem_singleton

/-- Flags are no messages. -/
theorem silent_flags (client : Address) (bits : List (BitVec 32)) (session : Session)
    : Silent client
        (bits.map (fun bit => .isBitSet bit (session.system.server.isBitSet bit))) := by
  intro observation member
  obtain ⟨bit, -, rfl⟩ := List.mem_map.mp member
  rfl

/-- What a turn notices is no message. -/
theorem notice_eq_observe (thread : Nat) (client : Address) (session : Session)
    : ∃ seen,
        session.notice thread client = session.observe seen ∧ ∀ other, Silent other seen := by
  unfold notice
  split
  · exact ⟨_, rfl, fun other => silent_singleton.mpr rfl⟩
  · exact ⟨[], (observe_nil session).symm, fun other _ none => absurd none List.not_mem_nil⟩

/-- What is delivered for a client. -/
theorem deliver_eq_ok_observe {client : Address} {iterations : List Iteration}
    (delivered : session.deliver client iterations = .ok after)
    : after = session.observe (iterations.map (fun iteration =>
        .received session.listener.received client iteration.msg iteration.len)) := by
  unfold deliver at delivered
  split at delivered
  · rename_i none
    cases delivered
    rw [none, List.map_nil, observe_nil]
  · obtain ⟨server, -, delivered⟩ := bind_eq_ok.mp delivered
    dsimp only at delivered
    split at delivered
    · cases delivered
    · cases delivered
      rfl

-----------------------------------------------------------------------------------------
-- The kinds of events
-----------------------------------------------------------------------------------------

/-- A call that needs only the server does what it does. -/
theorem call_eq_ok {change : Session → Session} (called : session.call change = .ok after)
    : after = change session := by
  obtain ⟨server, -, called⟩ := bind_eq_ok.mp called
  cases called
  rfl

/-- A step of the system shows flags, and a client that was connected. -/
theorem did_of_serverStep {action : Action} (stepped : session.serverStep action = .ok after)
    : session.Did (.server action) after := by
  obtain ⟨system, attempted, stepped⟩ := bind_eq_ok.mp stepped
  have moved := attempt_eq_ok attempted
  have flags := fun client => silent_flags client (session.system.tests action).toList session
  cases action with
  | connect index fd =>
      cases stepped
      unfold callConnected
      dsimp only
      split
      · exact .server moved flags
      · have both := fun client =>
          silent_append.mpr ⟨flags client, silent_singleton.mpr
            (rfl : (Observation.connected session.listener.connected
              session.system.fresh).message client = none)⟩
        have did := @Did.server session _ system _
          (session.written ||| session.system.writes (.connect index fd)) moved both
        simp only [observe, observeFlags, ← List.append_assoc] at did ⊢
        exact did
  | call | main | accept | service =>
      cases stepped
      exact .server moved flags

theorem did_of_display (shown : session.display = .ok after) : session.Did .display after := by
  obtain ⟨server, -, shown⟩ := bind_eq_ok.mp shown
  have flags := fun client => silent_flags client session.system.displays session
  dsimp only at shown
  split at shown
  · obtain ⟨clients, -, shown⟩ := bind_eq_ok.mp shown
    split at shown
    · cases shown
      rw [observeFlags, observe_observe]
      exact .looks rfl (fun client =>
        silent_append.mpr ⟨flags client, silent_singleton.mpr rfl⟩)
    · cases shown
  · cases shown
    exact .looks rfl flags

theorem did_of_copyClients (copied : session.copyClients = .ok after)
    : session.Did .copyClients after := by
  obtain ⟨server, -, copied⟩ := bind_eq_ok.mp copied
  obtain ⟨clients, -, copied⟩ := bind_eq_ok.mp copied
  cases copied
  exact .looks rfl (fun client => silent_singleton.mpr rfl)

theorem did_of_destroy (destroyed : session.destroy = .ok after)
    : session.Did .destroy after := by
  unfold destroy at destroyed
  split at destroyed
  · cases destroyed
    exact .destroy
  · cases destroyed
    exact .destroy
  · cases destroyed

theorem did_of_select {index : Nat} {round : Round}
    (selected : session.select index round = .ok after)
    : session.Did (.select index round) after := by
  unfold select at selected
  split at selected
  · cases selected
  · rename_i thread present
    split at selected
    · rename_i passed selecting
      obtain ⟨service, -, selected⟩ := bind_eq_ok.mp selected
      cases selected
      exact .select present selecting
    · cases selected

/-- `memset` stays inside the buffer. -/
theorem clear_eq_ok {thread : Nat} (cleared : session.clear thread = .ok after)
    : ∃ data,
        after = { session with data }.setLoop thread .select
        ∧ data.length = session.data.length := by
  unfold clear at cleared
  dsimp only at cleared
  split at cleared
  · cases cleared
  · rename_i emptied
    cases cleared
    unfold Service.clear at emptied
    dsimp only at emptied
    split at emptied
    · rename_i within
      cases emptied
      refine ⟨_, rfl, ?_⟩
      have fits := within.2
      change _ ≤ session.data.length at fits
      change (List.replicate _ 0 ++ session.data.drop _).length = _
      rw [List.length_append, List.length_replicate, List.length_drop]
      omega
    · cases emptied

theorem did_of_receive {index : Nat} {thread : ServiceThread} {round : Round} {turn : Nat}
    (present : session.system.serviceThreads[index]? = some thread)
    (receiving : session.loops thread.id = .receive round turn)
    (received : session.receive thread round turn = .ok after)
    : session.Did (.serve index) after := by
  obtain ⟨service, attempted, received⟩ := bind_eq_ok.mp received
  have found := System.service_eq_ok (attempt_eq_ok attempted)
  dsimp only at received
  split at received
  · rename_i ended
    obtain ⟨data, rfl, room⟩ := clear_eq_ok received
    exact .clear present receiving found ended room
  · rename_i client here
    split at received
    · cases received
    · rename_i object there
      cases received
      exact .receive present receiving found here there

theorem did_of_handOver {index : Nat} {thread : ServiceThread} {round : Round} {turn : Nat}
    {client : Address} {size : UInt16}
    (present : session.system.serviceThreads[index]? = some thread)
    (handing : session.loops thread.id = .handOver round turn client)
    (handed
      : (session.notice thread.id client).handOver fuel thread.id round turn client size
        = .ok after)
    : session.Did (.serve index) after := by
  obtain ⟨noticed, same, silent⟩ := notice_eq_observe thread.id client session
  rw [same] at handed
  unfold handOver at handed
  split at handed
  · cases handed
  · split at handed
    · obtain ⟨middle, delivered, handed⟩ := bind_eq_ok.mp handed
      obtain rfl := deliver_eq_ok_observe delivered
      dsimp only at handed
      split at handed
      · cases handed
      · cases handed
        rw [observe_observe]
        refine .handOver present handing (fun other differs => if_neg differs) ?_ rfl
        intro other differs
        refine silent_append.mpr ⟨silent other, fun observation member => ?_⟩
        obtain ⟨iteration, -, rfl⟩ := List.mem_map.mp member
        exact if_neg (Ne.symm differs)
    · obtain ⟨server, -, handed⟩ := bind_eq_ok.mp handed
      cases handed
      dsimp only [callReceived]
      split
      · exact .handOver present handing (fun _ _ => rfl) (fun other _ => silent other) rfl
      · rw [observe_observe]
        refine .handOver present handing (fun _ _ => rfl) ?_
          ((round.around turn).length_received 0 session.data)
        intro other differs
        exact silent_append.mpr
          ⟨silent other, silent_singleton.mpr (if_neg (Ne.symm differs))⟩

/-- A thread goes on in its loop. -/
theorem did_of_serve {index : Nat} (served : session.serve fuel index = .ok after)
    : session.Did (.serve index) after := by
  unfold serve at served
  split at served
  · cases served
  · rename_i thread present
    split at served
    · cases served
    · rename_i round turn receiving
      exact did_of_receive present receiving served
    · rename_i round turn client handing
      exact did_of_handOver present handing served

/-- Every event does one of what is listed. -/
theorem did_of_step (stepped : session.step fuel event = .ok after)
    : session.Did event after := by
  cases event with
  | server action => exact did_of_serverStep stepped
  | registerListener listeners =>
      have did := @Did.looks session (.registerListener listeners) (some listeners) [] rfl
        (fun client _ none => absurd none List.not_mem_nil)
      rw [observe_nil] at did
      rw [call_eq_ok stepped]
      exact did
  | setBit bit =>
      rw [call_eq_ok stepped]
      exact .setBit bit
  | unSetBit bit =>
      rw [call_eq_ok stepped]
      exact .unSetBit bit
  | isBitSet bit =>
      rw [call_eq_ok stepped]
      exact .looks rfl (fun client => silent_flags client [bit] session)
  | display => exact did_of_display stepped
  | copyClients => exact did_of_copyClients stepped
  | addClient client =>
      rw [call_eq_ok stepped]
      exact .addClient client
  | add index =>
      obtain ⟨added, attempted, stepped⟩ := bind_eq_ok.mp stepped
      cases stepped
      exact .add (attempt_eq_ok attempted)
  | destroy => exact did_of_destroy stepped
  | select index round => exact did_of_select stepped
  | serve index => exact did_of_serve stepped

end Inversion

end Session

end Ethnm
