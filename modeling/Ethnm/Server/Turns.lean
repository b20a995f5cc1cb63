import Ethnm.Server.Effects
import Ethnm.Server.Session

/-! The loop of a client service's thread in a session does what the loop does alone. -/

namespace Ethnm
open Runs

namespace Session

/-- The loop alone works on what a thread of the session works on. -/
structure Serves (thread : Nat) (session : Session) (service : Service) : Prop where
  objects : service.objects = session.system.heap.objects
  data : service.data = session.data
  dataLen : service.dataLen = session.dataLen thread

section Turns

variable {fuel : Nat} {session after : Session} {thread : ServiceThread} {round : Round}
  {place : Nat} {client : Address} {object : TcpClient} {clients : ClientService}
  {service : Service}

theorem attempt_eq_ok {α : Type} {result : Except Halt α} {value : α}
    (attempted : session.attempt result = .ok value)
    : result = .ok value := by
  cases result with
  | error halt => cases attempted
  | ok found =>
      cases attempted
      rfl

theorem observe_nil (session : Session) : session.observe [] = session := by
  rw [observe, List.append_nil]

/-- What a turn notices is seen, and changes nothing. -/
theorem notice_eq (thread : Nat) (client : Address) (session : Session)
    : ∃ seen, session.notice thread client = session.observe seen := by
  unfold notice
  split
  · exact ⟨_, rfl⟩
  · exact ⟨[], (observe_nil session).symm⟩

/-- What a delimiter delivers is seen, and changes nothing; a listener is set if there is
anything.
-/
theorem deliver_eq_ok {iterations : List Iteration}
    (delivered : session.deliver client iterations = .ok after)
    : (iterations = [] ∨ session.listener.received ≠ 0)
      ∧ ∃ seen, after = session.observe seen := by
  unfold deliver at delivered
  split at delivered
  · rename_i none
    cases delivered
    exact ⟨.inl none, [], (observe_nil session).symm⟩
  · obtain ⟨server, -, delivered⟩ := bind_eq_ok.mp delivered
    dsimp only at delivered
    split at delivered
    · cases delivered
    · rename_i set
      cases delivered
      exact ⟨.inr set, _, rfl⟩

/-- The first part of a turn finds its client, and receives for it. -/
theorem Serves.receive (serves : Serves thread.id session service)
    (found : session.system.services thread.service = some clients)
    (position : clients.clients[place]? = some client)
    (received : session.receive thread round place = .ok after)
    : ∃ object,
        session.system.heap.objects client = some object
        ∧ Serves thread.id after (service.receive round place object.fd)
        ∧ after.system = session.system
        ∧ after.listener = session.listener := by
  obtain ⟨same, attempted, received⟩ := bind_eq_ok.mp received
  cases (System.service_eq_ok (attempt_eq_ok attempted)).symm.trans found
  cases present : session.system.heap.objects client with
  | none =>
      simp only [position, present] at received
      cases received
  | some object =>
      simp only [position, present] at received
      cases received
      refine ⟨object, rfl, ?_⟩
      unfold Service.receive
      split
      · refine ⟨⟨serves.objects, ?_, ?_⟩, rfl, rfl⟩
        · exact congrArg (fun data => (round.recvfrom place).fill data) serves.data
        · change _ = Option.getD (if thread.id = thread.id then some _ else _) _
          rw [if_pos rfl]
          rfl
      · exact ⟨⟨serves.objects, serves.data, serves.dataLen⟩, rfl, rfl⟩

/-- A turn that goes through in the session goes through in the loop alone, and leaves the
clients, the buffer and `data_len` the same.
-/
theorem Serves.serveClient {middle : Session} {registered : Bool}
    (serves : Serves thread.id session service)
    (registered_eq : registered = decide (session.listener.received ≠ 0))
    (found : session.system.services thread.service = some clients)
    (position : clients.clients[place]? = some client)
    (received : session.receive thread round place = .ok middle)
    (handed
      : (middle.notice thread.id client).handOver fuel thread.id round place client
          (.ofInt (middle.dataLen thread.id))
        = .ok after)
    : ∃ served,
        Ethnm.serveClient registered fuel round place client service = .ok served
        ∧ Serves thread.id after served := by
  obtain ⟨object, present, between, system, listener⟩ := serves.receive found position received
  obtain ⟨seen, noticed⟩ := notice_eq thread.id client middle
  have there : (middle.observe seen).system.heap.objects client = some object := by
    change middle.system.heap.objects client = some object
    rw [system, present]
  rw [noticed] at handed
  unfold handOver at handed
  unfold Ethnm.serveClient
  rw [serves.objects, present]
  rw [there] at handed
  cases handler : object.msgDelimiter with
  | some delimiter =>
      simp only [handler] at handed ⊢
      obtain ⟨delivered, deliveries, handed⟩ := bind_eq_ok.mp handed
      obtain ⟨heard, more, rfl⟩ := deliver_eq_ok deliveries
      have processes
          : (middle.observe seen).process fuel round place delimiter
              (.ofInt (middle.dataLen thread.id))
            = Ethnm.process delimiter.1 fuel (round.around place)
                { delimiter := delimiter.2, asked := [], iterations := [] }
                ((service.receive round place object.fd).invoke round place client).data
                (.ofInt (service.receive round place object.fd).dataLen) := by
        rw [Service.invoke, between.data, between.dataLen]
        rfl
      rw [processes] at heard handed
      have listens (iterations : List Iteration)
          (heard : iterations = [] ∨ middle.listener.received ≠ 0)
          : ¬ (registered = false ∧ heardOf client iterations ≠ []) := by
        rintro ⟨unset, some⟩
        rw [registered_eq, decide_eq_false_iff_not, ← listener] at unset
        rcases heard with none | set
        · exact some (congrArg (heardOf client) none)
        · exact unset set
      rw [if_neg (listens _ heard)]
      generalize Ethnm.process delimiter.1 fuel (round.around place) _ _ _ = outcome
        at handed ⊢
      cases outcome with
      | error stop => cases handed
      | ok progress =>
          cases handed
          refine ⟨_, rfl, ?_, between.data, between.dataLen⟩
          exact congrArg
            (fun objects address => if address = client then some _ else objects address)
            between.objects
  | none =>
      simp only [handler] at handed ⊢
      obtain ⟨server, -, handed⟩ := bind_eq_ok.mp handed
      cases handed
      unfold callReceived
      dsimp only
      rw [registered_eq, ← listener]
      by_cases unset : (middle.observe seen).listener.received = 0
      · have absent : decide (middle.listener.received ≠ 0) = false :=
          decide_eq_false (not_not_intro unset)
        rw [absent, if_pos unset]
        exact ⟨_, rfl, between.objects, between.data, between.dataLen⟩
      · have set : decide (middle.listener.received ≠ 0) = true := decide_eq_true unset
        rw [set, if_neg unset]
        refine ⟨_, rfl, between.objects, ?_, between.dataLen⟩
        exact congrArg (fun data => (round.around place).received 0 data) between.data

end Turns

end Session

end Ethnm
