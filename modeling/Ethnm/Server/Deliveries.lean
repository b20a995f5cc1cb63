import Ethnm.Clients.Streams
import Ethnm.Server.Events
import Ethnm.Server.Pointers
import Ethnm.Server.PriorContents

/-! A client's messages over a whole session. Whatever the threads and the application do, a
client's delimiter goes on where it was: services come and go, their threads are cancelled and
started again, and the application still gets what one delimiter cuts off the client's chunks.
-/

namespace Ethnm
open Runs

namespace Session

/-- The messages that the application has got for a client. -/
def messages (client : Address) (session : Session) : List (List UInt8 × Nat) :=
  session.observed.filterMap (Observation.message client)

/-- What an event hands to the handler of a client. -/
def arrival (client : Address) (session : Session) : Event → Option Arrival
  | .serve index =>
      match session.system.serviceThreads[index]? with
      | none => none
      | some thread =>
          match session.loops thread.id with
          | .handOver round turn served =>
              let size := UInt16.ofInt (session.dataLen thread.id)
              let chunk := session.data.take size.toNat
              let handOver : HandOver := { client := served, around := round.around turn, chunk }
              if served = client then handOver.arrival else none
          | _ => none
  | _ => none

/-- The chunks that were handed over for a client, in their order. -/
def arrivals (client : Address) (history : List (Session × Event)) : List Arrival :=
  history.filterMap (fun visit => visit.1.arrival client visit.2)

end Session

-----------------------------------------------------------------------------------------
-- Calls that return
-----------------------------------------------------------------------------------------

/-- What was copied was within its source. -/
theorem memcpy_within {dest src copied : List UInt8} {destOffset srcOffset count : Nat}
    (done : memcpy dest destOffset src srcOffset count = .ok copied)
    : srcOffset + count ≤ src.length := by
  unfold memcpy at done
  split at done
  · rename_i within
    exact within.1
  · cases done

/-- What was written was there. -/
theorem bcbWrite_within {bcb after : ByteCircularBuffer} {data : List UInt8}
    {dataSize written : UInt16} (done : bcbWrite bcb data dataSize = .ok (after, written))
    (some : written ≠ 0)
    : 0 < dataSize.toNat ∧ dataSize.toNat ≤ data.length := by
  have positive (size : UInt16) (nonzero : size ≠ 0) : 0 < size.toNat := by
    refine Nat.pos_of_ne_zero (fun zero => nonzero ?_)
    exact UInt16.toNat_inj.mp zero
  unfold bcbWrite at done
  split at done
  · cases done
    exact absurd rfl some
  split at done
  · cases done
    exact absurd rfl some
  split at done
  · obtain ⟨buffer, copied, done⟩ := bind_eq_ok.mp done
    cases done
    have within := memcpy_within copied
    exact ⟨positive _ some, by omega⟩
  dsimp only at done
  split at done
  · obtain ⟨buffer, copied, done⟩ := bind_eq_ok.mp done
    cases done
    have within := memcpy_within copied
    exact ⟨positive _ some, by omega⟩
  · rename_i larger
    obtain ⟨buffer, -, done⟩ := bind_eq_ok.mp done
    obtain ⟨buffer, copied, done⟩ := bind_eq_ok.mp done
    cases done
    have within := memcpy_within copied
    have more := UInt16.lt_iff_toNat_lt.mp (UInt16.not_le.mp larger)
    exact ⟨positive _ some, by omega⟩

/-- A call that returns was given all the bytes that it takes, and at least one. -/
theorem process_within {framing : Framing} {fuel : Nat} {around : Surroundings}
    {progress next : Progress} {msg : List UInt8} {size : UInt16}
    (returned : process framing fuel around progress msg size = .ok next)
    : 0 < size.toNat ∧ size.toNat ≤ msg.length := by
  unfold process at returned
  obtain ⟨⟨bcb, written⟩, attempted, returned⟩ := bind_eq_ok.mp returned
  have done : bcbWrite progress.delimiter.bcb msg size = .ok (bcb, written) := by
    cases result : bcbWrite progress.delimiter.bcb msg size with
    | error fault =>
        rw [result] at attempted
        cases attempted
    | ok value =>
        rw [result] at attempted
        cases attempted
        rfl
  refine bcbWrite_within done (fun zero => ?_)
  simp only [zero, if_true] at returned
  cases returned

-----------------------------------------------------------------------------------------
-- What leaves a client alone
-----------------------------------------------------------------------------------------

/-- Until the purge no step of the system changes a client that exists. -/
theorem objects_of_step {system after : System} {action : Action} {client : Address}
    (stepped : step system action = .ok after) (remains : after.main.purged = false)
    (used : client < system.fresh)
    : after.heap.objects client = system.heap.objects client ∧ system.fresh ≤ after.fresh := by
  cases action with
  | call call =>
      cases callStep_eq_ok stepped
      exact ⟨rfl, Nat.le_refl _⟩
  | main =>
      have spares := sparesClients_of_mainStep stepped remains
      exact ⟨by rw [spares.heap], spares.fresh⟩
  | connect index fd =>
      change connectStep index fd system = .ok after at stepped
      rw [connectStep] at stepped
      split at stepped
      · obtain ⟨server, -, stepped⟩ := bind_eq_ok.mp stepped
        cases stepped
        exact ⟨if_neg (Nat.ne_of_lt used), Nat.le_succ _⟩
      · cases stepped
  | accept index =>
      cases stepped_of_acceptStep stepped with
      | aside isMain => cases isMain
      | startThread => exact ⟨rfl, Nat.le_succ _⟩
      | update | listen | stopThread | pushBack | calloc => exact ⟨rfl, Nat.le_refl _⟩
  | service index =>
      cases stepped_of_serviceStep stepped with
      | aside isMain => cases isMain
      | test | copy => exact ⟨rfl, Nat.le_refl _⟩

namespace Session

/-- An event neither changes a client nor gives a message for it to the application. -/
structure Leaves (client : Address) (session after : Session) : Prop where
  object : after.system.heap.objects client = session.system.heap.objects client
  messages : after.messages client = session.messages client
  fresh : session.system.fresh ≤ after.system.fresh

/-- Whether an event hands something over for a client. -/
def HandsTo (client : Address) (session : Session) : Event → Prop
  | .serve index =>
      ∃ thread round turn,
        session.system.serviceThreads[index]? = some thread
        ∧ session.loops thread.id = .handOver round turn client
  | _ => False

section Leaving

variable {fuel : Nat} {session after : Session} {event : Event} {client : Address}

/-- What is seen is no message for the client. -/
theorem messages_observe {seen : List Observation} (silent : Silent client seen)
    (session : Session)
    : (session.observe seen).messages client = session.messages client := by
  rw [messages, observe, List.filterMap_append, List.filterMap_eq_nil_iff.mpr silent,
    List.append_nil]
  rfl

/-- Nothing else arrives at a client's handler. -/
theorem arrival_of_not_handsTo (apart : ¬ session.HandsTo client event)
    : session.arrival client event = none := by
  cases event with
  | serve index =>
      unfold arrival
      dsimp only
      split
      · rfl
      · rename_i thread present
        split
        · rename_i round turn served handing
          refine if_neg (fun same => apart ⟨thread, round, turn, present, ?_⟩)
          rw [handing, same]
        · rfl
  | _ => rfl

/-- Until the purge nothing but a hand-over for a client concerns it. -/
theorem leaves_of_did (did : session.Did event after) (used : client < session.system.fresh)
    (remains : after.system.main.purged = false) (apart : ¬ session.HandsTo client event)
    : session.Leaves client after := by
  cases did with
  | server moved silent =>
      obtain ⟨object, fresh⟩ := objects_of_step moved remains used
      exact ⟨object, messages_observe (silent client) session, fresh⟩
  | looks looks silent => exact ⟨rfl, messages_observe (silent client) session, Nat.le_refl _⟩
  | setBit bit => exact ⟨rfl, rfl, Nat.le_refl _⟩
  | unSetBit bit => exact ⟨rfl, rfl, Nat.le_refl _⟩
  | addClient added => exact ⟨if_neg (Nat.ne_of_lt used), rfl, Nat.le_succ _⟩
  | add moved =>
      cases stepped_of_acceptStep moved with
      | aside isMain => cases isMain
      | startThread => exact ⟨rfl, rfl, Nat.le_succ _⟩
      | update | listen | stopThread | pushBack | calloc => exact ⟨rfl, rfl, Nat.le_refl _⟩
  | destroy => cases remains
  | select present selecting => exact ⟨rfl, rfl, Nat.le_refl _⟩
  | clear present receiving found ended room => exact ⟨rfl, rfl, Nat.le_refl _⟩
  | receive present receiving found here there =>
      split
      · exact ⟨rfl, rfl, Nat.le_refl _⟩
      · exact ⟨rfl, rfl, Nat.le_refl _⟩
  | @handOver index thread round turn served heap data seen present handing others silent room =>
      have differs : client ≠ served :=
        fun same => apart ⟨thread, round, turn, present, same ▸ handing⟩
      exact ⟨others client differs, messages_observe (silent client differs) session,
        Nat.le_refl _⟩

/-- Every event keeps the size of the buffer, and nothing is unpurged. -/
theorem kept_of_did (did : session.Did event after)
    : (session.data.length = kBufferSize → after.data.length = kBufferSize)
      ∧ (after.system.main.purged = false → session.system.main.purged = false) := by
  cases did with
  | server moved silent => exact ⟨id, purged_of_step moved⟩
  | add moved =>
      refine ⟨id, fun remains => ?_⟩
      cases stepped_of_acceptStep moved with
      | aside isMain => cases isMain
      | update | listen | stopThread | pushBack | calloc | startThread => exact remains
  | destroy => exact ⟨id, fun remains => by cases remains⟩
  | clear present receiving found ended room => exact ⟨room.trans, id⟩
  | receive present receiving found here there =>
      split
      · exact ⟨fun room => Recvfrom.length_fill _ room, id⟩
      · exact ⟨id, id⟩
  | handOver present handing others silent room => exact ⟨room.trans, id⟩
  | _ => exact ⟨id, id⟩

end Leaving

-----------------------------------------------------------------------------------------
-- A client's delimiter through a run
-----------------------------------------------------------------------------------------

/-- The client's delimiter is where `progress` is, and what it has cut off the application has
got, after what was `seen` before.
-/
structure Follows (client : Address) (fd : Nat) (framing : Framing)
    (seen : List (List UInt8 × Nat)) (progress : Progress) (session : Session)
    : Prop where
  object
    : session.system.heap.objects client = some ⟨fd, some (framing, progress.delimiter)⟩
  messages : session.messages client = seen ++ progress.delivered
  used : client < session.system.fresh
  room : session.data.length = kBufferSize

section Following

variable {fuel : Nat} {client : Address} {fd : Nat} {framing : Framing}
  {seen : List (List UInt8 × Nat)} {progress : Progress} {session after : Session}

theorem Follows.leaves (follows : session.Follows client fd framing seen progress)
    (leaves : session.Leaves client after) (room : after.data.length = kBufferSize)
    : after.Follows client fd framing seen progress :=
  ⟨leaves.object.trans follows.object, leaves.messages.trans follows.messages,
    Nat.lt_of_lt_of_le follows.used leaves.fresh, room⟩

/-- A hand-over for the client is one call of its delimiter, on the bytes handed over. -/
theorem Follows.handOver (follows : session.Follows client fd framing seen progress)
    {thread turn : Nat} {round : Round} {size : UInt16}
    (handed : session.handOver fuel thread round turn client size = .ok after)
    : ∃ arrival next,
        HandOver.arrival
            { client, around := round.around turn, chunk := session.data.take size.toNat }
          = some arrival
        ∧ feed framing fuel progress [arrival] = .ok next
        ∧ after.Follows client fd framing seen next := by
  unfold Session.handOver at handed
  simp only [follows.object] at handed
  obtain ⟨middle, delivered, handed⟩ := bind_eq_ok.mp handed
  have delivered := deliver_eq_ok_observe delivered
  cases returned : session.process fuel round turn (framing, progress.delimiter) size with
  | error stop =>
      rw [returned] at handed
      cases handed
  | ok call =>
      rw [returned] at handed delivered
      cases handed
      have called : Ethnm.process framing fuel (round.around turn)
          progress.delimiter.unrecorded session.data size = .ok call := returned
      obtain ⟨positive, within⟩ := process_within called
      have length : (session.data.take size.toNat).length = size.toNat := by
        rw [List.length_take]
        omega
      have sizes : 0 < (session.data.take size.toNat).length
          ∧ (session.data.take size.toNat).length ≤ kBufferSize := by
        rw [length, ← follows.room]
        exact ⟨positive, within⟩
      refine ⟨_, call.precededBy progress, dif_pos sizes, ?_, ?_⟩
      · have again : Ethnm.process framing fuel (round.around turn) progress
            (session.data.take size.toNat) (.ofNat (session.data.take size.toNat).length)
            = .ok (call.precededBy progress) := by
          rw [length, UInt16.ofNat_toNat, process_take, process_eq_unrecorded, called]
          rfl
        rw [feed, again]
        rfl
      · refine ⟨?_, ?_, ?_, ?_⟩
        · exact if_pos rfl
        · change middle.messages client = _
          rw [delivered, Session.messages, observe, List.filterMap_append, List.filterMap_map]
          change session.messages client ++ _ = _
          rw [follows.messages, Progress.delivered, Progress.delivered, Progress.precededBy,
            List.map_append, List.append_assoc]
          refine congrArg (fun more => seen ++ (_ ++ more)) ?_
          rw [← List.filterMap_eq_map]
          refine congrArg (List.filterMap · call.iterations) ?_
          funext iteration
          exact if_pos rfl
        · rw [delivered]
          exact follows.used
        · rw [delivered]
          exact follows.room

/-- A turn that hands over for the client feeds its delimiter. -/
theorem Follows.serve (follows : session.Follows client fd framing seen progress) {index : Nat}
    (hands : session.HandsTo client (.serve index))
    (served : session.serve fuel index = .ok after)
    : ∃ next,
        feed framing fuel progress (session.arrival client (.serve index)).toList = .ok next
        ∧ after.Follows client fd framing seen next := by
  obtain ⟨thread, round, turn, present, handing⟩ := hands
  unfold Session.serve at served
  simp only [present, handing] at served
  obtain ⟨noticed, same, silent⟩ := notice_eq_observe thread.id client session
  rw [same] at served
  have leaves : session.Leaves client (session.observe noticed) :=
    ⟨rfl, messages_observe (silent client) session, Nat.le_refl _⟩
  obtain ⟨arrival, next, given, fed, follows⟩ :=
    (follows.leaves leaves follows.room).handOver served
  have something : session.arrival client (.serve index) = some arrival := by
    simp only [Session.arrival, present, handing, if_true]
    exact given
  rw [something]
  exact ⟨next, fed, follows⟩

/-- Every event but a hand-over for the client leaves it alone. -/
theorem Follows.step (follows : session.Follows client fd framing seen progress) {event : Event}
    (stepped : session.step fuel event = .ok after)
    (remains : after.system.main.purged = false)
    : ∃ next,
        feed framing fuel progress (session.arrival client event).toList = .ok next
        ∧ after.Follows client fd framing seen next := by
  by_cases hands : session.HandsTo client event
  · cases event with
    | serve index => exact follows.serve hands stepped
    | _ => exact hands.elim
  · have did := did_of_step stepped
    have leaves := leaves_of_did did follows.used remains hands
    rw [arrival_of_not_handsTo hands]
    exact ⟨progress, rfl, follows.leaves leaves ((kept_of_did did).1 follows.room)⟩

/-- The chunks of a run, and of one more event. -/
theorem arrivals_snoc (client : Address) (history : List (Session × Event)) (session : Session)
    (event : Event)
    : arrivals client (history ++ [(session, event)])
      = arrivals client history ++ (session.arrival client event).toList := by
  rw [arrivals, arrivals, List.filterMap_append, List.filterMap_cons, List.filterMap_nil]
  cases session.arrival client event <;> rfl

/-- The client's delimiter is fed with the chunks of the run, by induction on the run. -/
theorem Follows.run (follows : session.Follows client fd framing seen progress)
    {later : List (Session × Event)} {final : Session}
    (run : Run (Session.step fuel) session later final)
    (remains : final.system.main.purged = false)
    : ∃ next,
        feed framing fuel progress (arrivals client later) = .ok next
        ∧ final.Follows client fd framing seen next := by
  induction run with
  | refl => exact ⟨progress, rfl, follows⟩
  | @snoc history middle final event run stepped ih =>
      obtain ⟨next, fed, follows⟩ := ih ((kept_of_did (did_of_step stepped)).2 remains)
      obtain ⟨last, more, follows⟩ := follows.step stepped remains
      refine ⟨last, ?_, follows⟩
      rw [arrivals_snoc, feed_append, fed]
      exact more

end Following

/-- The server is started, with a listener. -/
def startedEvents : List Event :=
  [.registerListener { connected := 0, disconnected := 0, received := 1 }]
  ++ startActions.map Event.server ++ [.server (.service 0)]

/-- A client that the application has made is added, and is sent two bytes. -/
def servedEvents : List Event :=
  List.replicate 6 (.add 0) ++ [.server (.service 0), .select 0 hiRound, .serve 0, .serve 0]

end Session

end Ethnm
