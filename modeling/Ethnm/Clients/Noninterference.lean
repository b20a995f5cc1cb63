import Mathlib.Data.List.DropRight
import Ethnm.Clients.Outcomes
import Ethnm.Clients.Streams

/-! What the application hears of one client, and whether it depends on the others. The clients
share the receive buffer, and `received` is given all of it: it also shows what earlier turns
have left behind the bytes of its own turn, up to where the buffer is clear.
-/

namespace Ethnm
open ListCursor

-----------------------------------------------------------------------------------------
-- What is heard of a client
-----------------------------------------------------------------------------------------

/-- What the listener has been given for a client. -/
def Service.heardFrom (client : Address) (service : Service) : List Heard :=
  service.heard.filter (fun heard => heard.client = client)

/-- What `recvfrom` returns for a client, turn by turn, and what else its turns depend on. -/
def Round.turnsOf (client : Address) (round : Round)
    : Nat → List Address → List (Recvfrom × Surroundings)
  | _, [] => []
  | turn, other :: rest =>
      (if other = client then [(round.recvfrom turn, round.around turn)] else [])
        ++ round.turnsOf client (turn + 1) rest

/-- The same of a run. -/
def turnsOf (client : Address) (clients : List Address) (rounds : List Round)
    : List (Recvfrom × Surroundings) :=
  rounds.flatMap (fun round => round.turnsOf client 0 clients)

/-- What the listener hears of a client with these turns, if each of them starts with a buffer
that is clear.
-/
def TcpClient.hears (registered : Bool) (fuel : Nat) (client : Address)
    : TcpClient → List (Recvfrom × Surroundings) → List Heard
  | _, [] => []
  | object, (result, around) :: rest =>
      let chunk := result.stored
      let size := UInt16.ofNat chunk.length
      match object.msgDelimiter with
      | some (framing, delimiter) =>
          let progress := { delimiter, asked := [], iterations := [] }
          let outcome := process framing fuel around progress chunk size
          let messages := heardOf client (Outcome.progress outcome).iterations
          if registered = false ∧ messages ≠ [] then
            []
          else
            messages
              ++ match outcome with
                | .error _ => []
                | .ok progress =>
                    TcpClient.hears registered fuel client
                      { object with msgDelimiter := some (framing, progress.delimiter) } rest
      | none =>
          let clear := List.replicate (kBufferSize - chunk.length) 0
          (if registered then [{ client, msg := chunk ++ clear, len := size }] else [])
            ++ object.hears registered fuel client rest

-----------------------------------------------------------------------------------------
-- What is left in the receive buffer
-----------------------------------------------------------------------------------------

/-- The buffer is clear from `reach` on, and `last` bytes were received last. -/
structure Extent where
  reach : Nat
  last : Nat

/-- The extent of a buffer before the first turn. -/
def Extent.of (data : List UInt8) : Extent where
  reach := (data.rdropWhile (· = 0)).length
  last := 0

def Extent.receive (round : Round) (turn fd : Nat) (extent : Extent) : Extent :=
  if round.activeFdSet fd then
    let last := (round.recvfrom turn).stored.length
    { reach := max extent.reach last, last }
  else
    extent

/-- `memset(data, 0, data_len)` clears the buffer if it reaches that far. -/
def Extent.clear (extent : Extent) : Extent :=
  if extent.reach ≤ extent.last then { extent with reach := 0 } else extent

/-- The extent after the turns of a round. -/
def Extent.serve (fds : Address → Nat) (round : Round)
    : Nat → List Address → Extent → Extent
  | _, [], extent => extent
  | turn, client :: rest, extent =>
      (extent.receive round turn (fds client)).serve fds round (turn + 1) rest

/-- The loop itself calls `received` for the client. -/
def ShowsBuffer (registered : Bool) (objects : Address → Option TcpClient) (client : Address)
    : Prop :=
  registered = true ∧ ∃ fd, objects client = some ⟨fd, none⟩

/-- In each turn that gives the buffer to `received`, as many bytes were received as are left in
it.
-/
def Round.Covers (registered : Bool) (objects : Address → Option TcpClient) (round : Round)
    : Nat → List Address → Extent → Prop
  | _, [], _ => True
  | turn, client :: rest, extent =>
      let extent := extent.receive round turn (fdsOf objects client)
      (ShowsBuffer registered objects client → extent.reach ≤ extent.last)
        ∧ round.Covers registered objects (turn + 1) rest extent

/-- The same of a run. -/
def Covers (registered : Bool) (objects : Address → Option TcpClient) (clients : List Address)
    : List Round → Extent → Prop
  | [], _ => True
  | round :: rest, extent =>
      round.Covers registered objects 0 clients extent
        ∧ Covers registered objects clients rest
          (extent.serve (fdsOf objects) round 0 clients).clear

section Buffer

variable {service : Service} {extent : Extent} {round : Round} {turn fd : Nat}
  {objects : Address → Option TcpClient} {clients rest : List Address} {registered : Bool}
  {fuel : Nat} {client other : Address}

/-- The buffer is clear from the extent on, and clearing `data_len` bytes clears what was
received last, if it is not stopped.
-/
structure Service.Clear (extent : Extent) (service : Service) : Prop where
  room : service.data.length = kBufferSize
  zero : ∀ byte ∈ service.data.drop extent.reach, byte = 0
  last : 0 ≤ service.dataLen → extent.last ≤ service.dataLen

theorem Service.Clear.start {data : List UInt8} (room : data.length = kBufferSize)
    (dataLen : Int)
    : (Service.start objects data dataLen).Clear (.of data) := by
  refine ⟨room, fun byte member => ?_, fun sized => sized⟩
  have split : data.rdropWhile (· = 0) ++ data.rtakeWhile (· = 0) = data :=
    List.rdropWhile_append_rtakeWhile
  have behind : data.drop (data.rdropWhile (· = 0)).length = data.rtakeWhile (· = 0) :=
    (congrArg (List.drop _) split.symm).trans List.drop_left
  change byte ∈ data.drop (data.rdropWhile (· = 0)).length at member
  rw [behind] at member
  have zero := List.mem_rtakeWhile_imp member
  exact of_decide_eq_true zero

/-- Further behind there is nothing new. -/
theorem Service.Clear.drop (clear : service.Clear extent) {position : Nat}
    (behind : extent.reach ≤ position)
    : ∀ byte ∈ service.data.drop position, byte = 0 :=
  fun byte member => clear.zero byte (List.drop_subset_drop_left service.data behind member)

theorem Service.Clear.receive (clear : service.Clear extent) (round : Round) (turn fd : Nat)
    : (service.receive round turn fd).Clear (extent.receive round turn fd) := by
  unfold Service.receive Extent.receive
  split
  · refine ⟨Recvfrom.length_fill _ clear.room, ?_, ?_⟩
    · cases result : round.recvfrom turn with
      | error => exact clear.drop (Nat.le_max_left _ _)
      | bytes stored sized =>
          have beyond : stored.length ≤ max extent.reach stored.length := Nat.le_max_right _ _
          change ∀ byte ∈ (stored ++ service.data.drop stored.length).drop
            (max extent.reach stored.length), byte = 0
          rw [List.drop_append, List.drop_eq_nil_of_le beyond, List.nil_append, List.drop_drop,
            Nat.add_sub_cancel' beyond]
          exact clear.drop (Nat.le_max_left _ _)
    · cases result : round.recvfrom turn with
      | error => exact fun sized => absurd sized (by simp [Recvfrom.dataLen])
      | bytes stored sized => exact fun _ => Int.le_refl _
  · exact clear

/-- Clearing brings the extent back if it covers it. -/
theorem Service.Clear.clear {next : Service} (clear : service.Clear extent)
    (cleared : service.clear = .ok next)
    : next.Clear extent.clear := by
  unfold Service.clear at cleared
  simp only at cleared
  split at cleared
  · rename_i fits
    cases cleared
    have last := clear.last fits.1
    have zero (position : Nat) (behind : extent.reach ≤ max position service.dataLen.toNat)
        : ∀ byte ∈ (List.replicate service.dataLen.toNat 0
            ++ service.data.drop service.dataLen.toNat).drop position, byte = 0 := by
      intro byte member
      rw [List.drop_append, List.length_replicate, List.drop_drop] at member
      rcases List.mem_append.mp member with cleared | kept
      · exact List.eq_of_mem_replicate (List.mem_of_mem_drop cleared)
      · exact clear.drop (by omega) byte kept
    refine ⟨?_, ?_, ?_⟩
    · change (List.replicate _ 0 ++ service.data.drop _).length = _
      rw [List.length_append, List.length_replicate, List.length_drop, ← clear.room]
      omega
    · unfold Extent.clear
      split
      · exact zero 0 (by omega)
      · exact zero _ (Nat.le_max_left _ _)
    · intro sized
      unfold Extent.clear
      split <;> exact last
  · cases cleared

end Buffer

-----------------------------------------------------------------------------------------
-- Turns
-----------------------------------------------------------------------------------------

section Turns

variable {service : Service} {extent : Extent} {round : Round} {turn fd : Nat}
  {objects : Address → Option TcpClient} {clients rest : List Address} {registered : Bool}
  {fuel : Nat} {client other : Address} {object : TcpClient} {whole : List Heard}
  {later : List (Recvfrom × Surroundings)}

/-- What is heard of other clients does not matter. -/
theorem Service.heardFrom_hear_ne {heard : List Heard}
    (others : ∀ one ∈ heard, one.client ≠ client)
    : (service.hear heard).heardFrom client = service.heardFrom client := by
  have none : heard.filter (fun one => one.client = client) = [] :=
    List.filter_eq_nil_iff.mpr (fun one member => by simpa using others one member)
  rw [Service.heardFrom, Service.hear, List.filter_append, none, List.append_nil]
  rfl

theorem Service.heardFrom_hear_self {heard : List Heard}
    (own : ∀ one ∈ heard, one.client = client)
    : (service.hear heard).heardFrom client = service.heardFrom client ++ heard := by
  have all : heard.filter (fun one => one.client = client) = heard :=
    List.filter_eq_self.mpr (fun one member => by simpa using own one member)
  rw [Service.heardFrom, Service.hear, List.filter_append, all]
  rfl

theorem client_of_mem_heardOf {iterations : List Iteration} {one : Heard}
    (member : one ∈ heardOf client iterations)
    : one.client = client := by
  obtain ⟨iteration, -, rfl⟩ := List.mem_map.mp member
  rfl

theorem Service.heardFrom_receive (client : Address) (service : Service) (round : Round)
    (turn fd : Nat)
    : (service.receive round turn fd).heardFrom client = service.heardFrom client := by
  unfold Service.receive
  split <;> rfl

/-- A turn of another client. -/
theorem serveClient_ne (registered : Bool) (fuel : Nat) (round : Round) (turn : Nat)
    (service : Service) (differs : other ≠ client)
    : let served :=
        ServiceOutcome.service (serveClient registered fuel round turn other service)
      served.heardFrom client = service.heardFrom client
      ∧ served.objects client = service.objects client := by
  rw [serveClient]
  cases present : service.objects other with
  | none => exact ⟨rfl, rfl⟩
  | some object =>
      have received := service.heardFrom_receive client round turn object.fd
      have objects := congrFun (service.objects_receive round turn object.fd) client
      cases handler : object.msgDelimiter with
      | some delimiter =>
          have others (iterations : List Iteration)
              : ∀ one ∈ heardOf other iterations, one.client ≠ client :=
            fun one member => (client_of_mem_heardOf member).symm ▸ differs
          simp only [handler]
          generalize process delimiter.1 fuel (round.around turn) _ _ _ = outcome
          split
          · exact ⟨received, objects⟩
          · cases outcome with
            | error stop =>
                exact ⟨(Service.heardFrom_hear_ne (others _)).trans received, objects⟩
            | ok progress =>
                exact ⟨(Service.heardFrom_hear_ne (others _)).trans received,
                  (if_neg (Ne.symm differs)).trans objects⟩
      | none =>
          simp only [handler]
          split
          · refine ⟨?_, objects⟩
            refine (Service.heardFrom_hear_ne ?_).trans received
            exact fun one member => (List.mem_singleton.mp member) ▸ differs
          · exact ⟨received, objects⟩

/-- A turn leaves in the buffer what was received, unless the application writes to it. -/
theorem serveClient_data (present : service.objects client = some object)
    (passive : object.msgDelimiter = none → ∀ buf, (round.around turn).received 0 buf = buf)
    : (ServiceOutcome.service (serveClient registered fuel round turn client service)).data
      = (service.receive round turn object.fd).data := by
  rw [serveClient, present]
  cases handler : object.msgDelimiter with
  | some delimiter =>
      simp only [handler]
      generalize process delimiter.1 fuel (round.around turn) _ _ _ = outcome
      split
      · rfl
      · cases outcome <;> rfl
  | none =>
      simp only [handler]
      split
      · exact passive handler _
      · rfl

/-- The turn has gone through, or what has been heard is a part of what is heard in the end. -/
def ServiceOutcome.Within (client : Address) (whole : List Heard) (good : Service → Prop)
    : ServiceOutcome → Prop
  | .ok service => good service
  | .error (_, service) => service.heardFrom client <+: whole

theorem ServiceOutcome.Within.bind {good good' : Service → Prop} {outcome : ServiceOutcome}
    {next : Service → ServiceOutcome} (first : outcome.Within client whole good)
    (second : ∀ service, good service → (next service).Within client whole good')
    : ServiceOutcome.Within client whole good' (outcome >>= next) := by
  cases outcome with
  | error stop => exact first
  | ok service => exact second service first

/-- What has been heard of the client, and what is heard in the turns it still has, is what is
heard in the end.
-/
def Service.Hears (registered : Bool) (fuel : Nat) (client : Address) (whole : List Heard)
    (turns : List (Recvfrom × Surroundings)) (service : Service)
    : Prop :=
  ∃ object, service.objects client = some object
    ∧ service.heardFrom client ++ object.hears registered fuel client turns = whole

/-- What a ready turn has received. -/
theorem Service.receive_ready {stored : List UInt8} {sized : stored.length ≤ kBufferSize}
    (active : round.activeFdSet fd = true) (result : round.recvfrom turn = .bytes stored sized)
    : service.receive round turn fd
      = {
        service with
        data := stored ++ service.data.drop stored.length
        dataLen := stored.length
      } := by
  rw [Service.receive, if_pos active, result]
  rfl

/-- A chunk that covers what is left is followed by a clear buffer. -/
theorem Service.Clear.drop_eq (clear : service.Clear extent) {position : Nat}
    (behind : extent.reach ≤ position)
    : service.data.drop position = List.replicate (kBufferSize - position) 0 := by
  refine List.eq_replicate_iff.mpr ⟨?_, clear.drop behind⟩
  rw [List.length_drop, clear.room]

/-- A turn of a client with a delimiter is a turn of it alone. -/
theorem Service.Hears.turn_delimiter {framing : Framing} {delimiter : MsgDelimiter}
    (current : service.objects client = some ⟨fd, some (framing, delimiter)⟩)
    (hears
      : service.heardFrom client
          ++ TcpClient.hears registered fuel client ⟨fd, some (framing, delimiter)⟩
            ((round.recvfrom turn, round.around turn) :: later)
        = whole)
    (active : round.activeFdSet fd = true) (received : round.recvfrom turn ≠ .error)
    : (serveClient registered fuel round turn client service).Within client whole
        (Service.Hears registered fuel client whole later) := by
  cases result : round.recvfrom turn with
  | error => exact absurd result received
  | bytes stored sized =>
      have call
          : process framing fuel (round.around turn)
              { delimiter, asked := [], iterations := [] }
              ((service.receive round turn fd).invoke round turn client).data
              (.ofInt (service.receive round turn fd).dataLen)
            = process framing fuel (round.around turn)
              { delimiter, asked := [], iterations := [] } stored (.ofNat stored.length) := by
        rw [Service.receive_ready active result, ← process_take, ← ofInt_length sized,
          toNat_ofInt_length sized]
        exact congrArg
          (fun chunk => process framing fuel (round.around turn) _ chunk (.ofInt stored.length))
          List.take_left
      have before := service.heardFrom_receive client round turn fd
      rw [result, TcpClient.hears] at hears
      rw [serveClient, current]
      dsimp only [Recvfrom.stored] at hears ⊢
      rw [call]
      generalize process framing fuel (round.around turn) _ stored _ = outcome at hears ⊢
      split
      · exact ⟨_, (congrArg (· ++ _) before).trans hears⟩
      · rename_i listens
        have heard (messages : List Heard) (own : ∀ one ∈ messages, one.client = client)
            : (((service.receive round turn fd).invoke round turn client).hear
                messages).heardFrom client
              = service.heardFrom client ++ messages :=
          (Service.heardFrom_hear_self own).trans (congrArg (· ++ messages) before)
        rw [if_neg listens, ← List.append_assoc, ← heard _ (fun _ => client_of_mem_heardOf)]
          at hears
        cases outcome with
        | error stop => exact ⟨[], hears⟩
        | ok progress => exact ⟨_, if_pos rfl, hears⟩

/-- A turn of a client without one shows what was received, and a clear buffer behind it. -/
theorem Service.Hears.turn_plain (clear : service.Clear extent)
    (current : service.objects client = some ⟨fd, none⟩)
    (hears
      : service.heardFrom client
          ++ TcpClient.hears registered fuel client ⟨fd, none⟩
            ((round.recvfrom turn, round.around turn) :: later)
        = whole)
    (ready
      : registered = true → round.activeFdSet fd = true ∧ round.recvfrom turn ≠ .error)
    (covers
      : registered = true
        → (extent.receive round turn fd).reach ≤ (extent.receive round turn fd).last)
    : (serveClient registered fuel round turn client service).Within client whole
        (Service.Hears registered fuel client whole later) := by
  have before := service.heardFrom_receive client round turn fd
  have unchanged := (congrFun (service.objects_receive round turn fd) client).trans current
  rw [TcpClient.hears] at hears
  rw [serveClient, current]
  dsimp only at hears ⊢
  by_cases listens : registered = true
  · obtain ⟨active, received⟩ := ready listens
    cases result : round.recvfrom turn with
    | error => exact absurd result received
    | bytes stored sized =>
        have covered : extent.reach ≤ stored.length := by
          have within := covers listens
          rw [Extent.receive, if_pos active, result] at within
          exact Nat.le_trans (Nat.le_max_left _ _) within
        have data : (service.receive round turn fd).data
            = stored ++ List.replicate (kBufferSize - stored.length) 0 := by
          rw [Service.receive_ready active result, ← clear.drop_eq covered]
        have size
            : UInt16.ofInt (service.receive round turn fd).dataLen = .ofNat stored.length := by
          rw [Service.receive_ready active result]
          exact ofInt_length sized
        rw [if_pos listens, ← List.append_assoc, result] at hears
        rw [if_pos listens]
        refine ⟨⟨fd, none⟩, unchanged, ?_⟩
        have heard := @Service.heardFrom_hear_self
          ((service.receive round turn fd).invoke round turn client) client
          [{ client, msg := (service.receive round turn fd).data,
             len := .ofInt (service.receive round turn fd).dataLen }]
          (fun one member => (List.mem_singleton.mp member) ▸ rfl)
        refine Eq.trans (congrArg (· ++ _) (heard.trans ?_)) hears
        rw [data, size]
        exact congrArg (· ++ _) before
  · rw [if_neg listens, List.nil_append, ← before] at hears
    rw [if_neg listens]
    exact ⟨_, unchanged, hears⟩

/-- What is heard in the end begins with what has been heard. -/
theorem Service.Hears.begins {turns : List (Recvfrom × Surroundings)}
    (hears : service.Hears registered fuel client whole turns)
    : service.heardFrom client <+: whole := by
  obtain ⟨object, -, all⟩ := hears
  exact ⟨_, all⟩

/-- A turn keeps the client's share of what is heard, whoever is served. -/
theorem Service.Hears.after_turn
    (hears
      : service.Hears registered fuel client whole
          ((if other = client then [(round.recvfrom turn, round.around turn)] else []) ++ later))
    (clear : service.Clear extent) (current : service.objects other = some object)
    (ready : round.TurnReady registered turn object)
    (covers
      : registered = true → object.msgDelimiter = none
        → (extent.receive round turn object.fd).reach
          ≤ (extent.receive round turn object.fd).last)
    : (serveClient registered fuel round turn other service).Within client whole
        (Service.Hears registered fuel client whole later) := by
  obtain ⟨now, present, all⟩ := hears
  by_cases self : other = client
  · subst self
    obtain rfl : object = now := Option.some.inj (current.symm.trans present)
    rw [if_pos rfl, List.singleton_append] at all
    obtain ⟨fd, handler⟩ := object
    cases handler with
    | none =>
        exact Service.Hears.turn_plain clear current all (fun listens => ready (.inr listens))
          (fun listens => covers listens rfl)
    | some handler =>
        obtain ⟨active, received⟩ := ready (.inl rfl)
        exact Service.Hears.turn_delimiter current all active received
  · rw [if_neg self, List.nil_append] at all
    obtain ⟨heard, same⟩ := serveClient_ne registered fuel round turn service self
    have kept : (ServiceOutcome.service (serveClient registered fuel round turn other
        service)).Hears registered fuel client whole later :=
      ⟨now, same.trans present, (congrArg (· ++ _) heard).trans all⟩
    cases result : serveClient registered fuel round turn other service with
    | error stop =>
        rw [result] at kept
        exact kept.begins
    | ok served =>
        rw [result] at kept
        exact kept

/-- The client's share of what is heard, with what a run keeps of the buffer and the objects. -/
structure Service.Apart (objects : Address → Option TcpClient) (registered : Bool) (fuel : Nat)
    (client : Address) (whole : List Heard) (extent : Extent)
    (turns : List (Recvfrom × Surroundings)) (service : Service) : Prop
    extends service.Sound objects, service.Clear extent where
  hears : service.Hears registered fuel client whole turns

theorem Service.Apart.after_turn
    (apart
      : service.Apart objects registered fuel client whole extent
          ((if other = client then [(round.recvfrom turn, round.around turn)] else []) ++ later))
    (position : clients[turn]? = some other) (ready : round.AllReady registered objects clients)
    (passive : round.Passive objects clients)
    (covers
      : ShowsBuffer registered objects other
        → (extent.receive round turn (fdsOf objects other)).reach
          ≤ (extent.receive round turn (fdsOf objects other)).last)
    : (serveClient registered fuel round turn other service).Within client whole
        (Service.Apart objects registered fuel client whole
          (extent.receive round turn (fdsOf objects other)) later) := by
  cases current : service.objects other with
  | none =>
      rw [serveClient, current]
      exact apart.hears.begins
  | some object =>
      obtain ⟨⟨fd, handler⟩, first, rfl, same⟩ := apart.toSound.object current
      have fds : fdsOf objects other = object.fd := by
        rw [fdsOf, first]
        rfl
      rw [fds] at covers ⊢
      have unhandled (plain : object.msgDelimiter = none) : handler = none := by
        rw [plain] at same
        cases handler with
        | none => rfl
        | some handler => cases same
      have turnReady : round.TurnReady registered turn object := by
        have turnReady := ready turn other _ position first
        rw [Round.TurnReady, TcpClient.Handled, same] at turnReady
        exact turnReady
      have hears := apart.hears.after_turn apart.toClear current turnReady
        (fun listens plain => covers ⟨listens, object.fd, unhandled plain ▸ first⟩)
      have sound : (ServiceOutcome.service (serveClient registered fuel round turn other
          service)).Sound objects := apart.toSound.after_serveClient
      have clear := apart.toClear.receive round turn object.fd
      have data := @serveClient_data service round turn registered fuel other object current
        (fun plain => passive turn other object.fd position (unhandled plain ▸ first))
      have dataLen : (ServiceOutcome.service (serveClient registered fuel round turn other
          service)).dataLen = _ := serveClient_dataLen current
      cases result : serveClient registered fuel round turn other service with
      | error stop =>
          rw [result] at hears
          exact hears
      | ok served =>
          rw [result] at hears sound data dataLen
          exact ⟨sound, data ▸ clear.zero, dataLen ▸ clear.last, hears⟩

/-- A round keeps it, by induction on the clients that are still to be served. -/
theorem Service.Apart.after_round (ready : round.AllReady registered objects clients)
    (passive : round.Passive objects clients)
    (apart
      : service.Apart objects registered fuel client whole extent
          (round.turnsOf client turn rest ++ later))
    (position : clients.drop turn = rest)
    (covers : round.Covers registered objects turn rest extent)
    : (serveClients registered fuel round turn rest service).Within client whole
        (Service.Apart objects registered fuel client whole
          (extent.serve (fdsOf objects) round turn rest) later) := by
  induction rest generalizing turn service extent with
  | nil => exact apart
  | cons other rest ih =>
      rw [Round.turnsOf, List.append_assoc] at apart
      obtain ⟨here, behind⟩ := covers
      have first :=
        apart.after_turn (getElem?_of_drop_eq_cons position) ready passive here
      refine first.bind (fun served next => ?_)
      exact ih next (drop_succ_of_drop_eq_cons position) behind

/-- Clearing the buffer keeps it. -/
theorem Service.Apart.clear
    (apart : service.Apart objects registered fuel client whole extent later)
    : service.clear.Within client whole
        (Service.Apart objects registered fuel client whole extent.clear later) := by
  have sound := apart.toSound.clear
  cases result : service.clear with
  | error stop =>
      unfold Service.clear at result
      simp only at result
      split at result
      · cases result
      · cases result
        exact apart.hears.begins
  | ok next =>
      have clear := apart.toClear.clear result
      rw [result] at sound
      refine ⟨sound, clear.zero, clear.last, ?_⟩
      unfold Service.clear at result
      simp only at result
      split at result
      · cases result
        exact apart.hears
      · cases result

/-- A run lets hear of the client what is heard of it alone, as far as the run goes; by
induction on the rounds.
-/
theorem Service.Apart.after_rounds {rounds : List Round}
    (ready : ∀ round ∈ rounds, round.AllReady registered objects clients)
    (passive : ∀ round ∈ rounds, round.Passive objects clients)
    (apart
      : service.Apart objects registered fuel client whole extent
          (turnsOf client clients rounds))
    (covers : Covers registered objects clients rounds extent)
    : (serveRounds registered fuel clients rounds service).Within client whole
        (fun last => last.heardFrom client = whole) := by
  induction rounds generalizing service extent with
  | nil =>
      obtain ⟨object, -, all⟩ := apart.hears
      exact (List.append_nil _).symm.trans all
  | cons round rest ih =>
      obtain ⟨here, behind⟩ := covers
      rw [turnsOf, List.flatMap_cons] at apart
      have first := apart.after_round (ready round List.mem_cons_self)
        (passive round List.mem_cons_self) rfl here
      refine first.bind (fun served next => next.clear.bind (fun cleared begun => ?_))
      exact ih (fun other member => ready other (.tail _ member))
        (fun other member => passive other (.tail _ member)) begun behind

end Turns

-----------------------------------------------------------------------------------------
-- What is left is shown
-----------------------------------------------------------------------------------------

section Leaving

variable {service : Service} {extent : Extent} {round : Round} {turn fd : Nat}
  {objects : Address → Option TcpClient} {clients rest : List Address} {registered : Bool}
  {fuel : Nat} {client : Address} {object : TcpClient}

/-- The last byte of the extent is not zero, and `data_len` is what was received last. -/
structure Service.Filled (extent : Extent) (service : Service) : Prop where
  full : extent.reach ≠ 0 →
    ∃ byte, service.data[extent.reach - 1]? = some byte ∧ byte ≠ 0
  last : extent.reach ≠ 0 → 0 ≤ service.dataLen → service.dataLen = extent.last

/-- No byte is zero that is received in the round. -/
def Round.Visible (round : Round) : Prop :=
  ∀ turn, 0 ∉ (round.recvfrom turn).stored

theorem Service.Filled.receive (filled : service.Filled extent) (visible : round.Visible)
    (turn fd : Nat)
    : (service.receive round turn fd).Filled (extent.receive round turn fd) := by
  have visible := visible turn
  unfold Service.receive Extent.receive
  split
  · cases result : round.recvfrom turn with
    | error =>
        refine ⟨fun some => ?_, fun _ sized => absurd sized (by simp [Recvfrom.dataLen])⟩
        change max extent.reach 0 ≠ 0 at some
        change ∃ byte, service.data[max extent.reach 0 - 1]? = _ ∧ _
        rw [Nat.max_zero] at some ⊢
        exact filled.full some
    | bytes stored sized =>
        rw [result] at visible
        change 0 ∉ stored at visible
        refine ⟨fun some => ?_, fun _ _ => rfl⟩
        change max extent.reach stored.length ≠ 0 at some
        change ∃ byte, (stored ++ service.data.drop stored.length)[
          max extent.reach stored.length - 1]? = _ ∧ _
        by_cases more : extent.reach ≤ stored.length
        · rw [Nat.max_eq_right more] at some ⊢
          rw [List.getElem?_append_left (by omega)]
          obtain ⟨byte, there⟩ : ∃ byte, stored[stored.length - 1]? = .some byte :=
            ⟨_, List.getElem?_eq_getElem (by omega)⟩
          refine ⟨byte, there, ?_⟩
          rintro rfl
          exact visible (List.mem_of_getElem? there)
        · rw [Nat.max_eq_left (by omega)] at some ⊢
          rw [List.getElem?_append_right (by omega), List.getElem?_drop,
            show stored.length + (extent.reach - 1 - stored.length) = extent.reach - 1 by omega]
          exact filled.full some
  · exact filled

theorem Service.Filled.clear {next : Service} (filled : service.Filled extent)
    (cleared : service.clear = .ok next)
    : next.Filled extent.clear := by
  unfold Service.clear at cleared
  simp only at cleared
  split at cleared
  · rename_i fits
    cases cleared
    unfold Extent.clear
    split
    · exact ⟨fun some => absurd rfl some, fun some => absurd rfl some⟩
    · rename_i short
      have some : extent.reach ≠ 0 := by omega
      have last := filled.last some fits.1
      refine ⟨fun _ => ?_, fun _ _ => last⟩
      change ∃ byte, (List.replicate service.dataLen.toNat 0
        ++ service.data.drop service.dataLen.toNat)[extent.reach - 1]? = _ ∧ _
      rw [List.getElem?_append_right (by rw [List.length_replicate]; omega),
        List.length_replicate, List.getElem?_drop,
        show service.dataLen.toNat + (extent.reach - 1 - service.dataLen.toNat)
          = extent.reach - 1 by omega]
      exact filled.full some
  · cases cleared

/-- `received` finds zeros behind the bytes of its own turn. -/
def ShowsOwn (objects : Address → Option TcpClient) (heard : List Heard) : Prop :=
  ∀ one ∈ heard, (∃ fd, objects one.client = some ⟨fd, none⟩) →
    ∀ byte ∈ one.msg.drop one.len.toNat, byte = 0

/-- Nothing that was heard is taken back. -/
def Service.Before (service later : Service) : Prop :=
  service.heard ⊆ later.heard

theorem ShowsOwn.mono {later : Service} (shows : ShowsOwn objects later.heard)
    (more : service.Before later)
    : ShowsOwn objects service.heard :=
  fun one member => shows one (more member)

theorem Service.Before.after_serveClient (start : Service) (before : start.Before service)
    : start.Before (ServiceOutcome.service
        (serveClient registered fuel round turn client service)) := by
  rw [serveClient]
  cases present : service.objects client with
  | none => exact before
  | some object =>
      have received : start.Before (service.receive round turn object.fd) := by
        unfold Service.receive
        split <;> exact before
      have heard (messages : List Heard)
          : start.Before
              (((service.receive round turn object.fd).invoke round turn client).hear messages) :=
        List.Subset.trans received (List.subset_append_left _ _)
      cases handler : object.msgDelimiter with
      | some delimiter =>
          simp only [handler]
          generalize process delimiter.1 fuel (round.around turn) _ _ _ = outcome
          split
          · exact received
          · cases outcome <;> exact heard _
      | none =>
          simp only [handler]
          split
          · exact heard _
          · exact received

theorem Service.Before.clear (start : Service) (before : start.Before service)
    : start.Before (ServiceOutcome.service service.clear) := by
  unfold Service.clear
  simp only
  split <;> exact before

/-- A turn whose call finds zeros behind its bytes has received as many as are left. -/
theorem Service.Filled.covers {served : Service} (filled : service.Filled extent)
    (sound : service.Sound objects) (visible : round.Visible)
    (position : clients[turn]? = some client) (ready : round.AllReady registered objects clients)
    (returned : serveClient registered fuel round turn client service = .ok served)
    (shows : ShowsOwn objects served.heard) (shown : ShowsBuffer registered objects client)
    : (extent.receive round turn (fdsOf objects client)).reach
      ≤ (extent.receive round turn (fdsOf objects client)).last := by
  obtain ⟨listens, fd, first⟩ := shown
  obtain ⟨active, received⟩ := ready turn client _ position first (.inr listens)
  have fds : fdsOf objects client = fd := by
    rw [fdsOf, first]
    rfl
  have filled := filled.receive visible turn fd
  rw [serveClient, sound.plain first] at returned
  dsimp only at returned
  rw [if_pos listens] at returned
  cases returned
  cases result : round.recvfrom turn with
  | error => exact absurd result received
  | bytes stored sized =>
      have last : (extent.receive round turn fd).last = stored.length := by
        rw [Extent.receive, if_pos active, result]
        rfl
      have own := shows
        {
          client
          msg := (service.receive round turn fd).data
          len := .ofInt (service.receive round turn fd).dataLen
        } (List.mem_append_right _ List.mem_cons_self) ⟨fd, first⟩
      have size : (UInt16.ofInt (service.receive round turn fd).dataLen).toNat = stored.length := by
        rw [Service.receive_ready active result]
        exact toNat_ofInt_length sized
      rw [fds, last]
      by_contra short
      obtain ⟨byte, there, visible⟩ := filled.full (by omega)
      refine visible (own byte (List.mem_of_getElem? (i := (extent.receive round turn fd).reach - 1
        - stored.length) ?_))
      rw [size, List.getElem?_drop, ← there]
      congr 1
      omega

theorem Service.Filled.after_turn {served : Service} (filled : service.Filled extent)
    (sound : service.Sound objects) (visible : round.Visible)
    (position : clients[turn]? = some client) (passive : round.Passive objects clients)
    (returned : serveClient registered fuel round turn client service = .ok served)
    : served.Filled (extent.receive round turn (fdsOf objects client)) := by
  cases current : service.objects client with
  | none =>
      rw [serveClient, current] at returned
      cases returned
  | some object =>
      obtain ⟨⟨fd, handler⟩, first, rfl, same⟩ := sound.object current
      have fds : fdsOf objects client = object.fd := by
        rw [fdsOf, first]
        rfl
      have untouched (plain : object.msgDelimiter = none)
          : ∀ buf, (round.around turn).received 0 buf = buf := by
        rw [plain] at same
        cases handler with
        | none => exact passive turn client object.fd position first
        | some handler => cases same
      have filled := filled.receive visible turn object.fd
      have data := @serveClient_data service round turn registered fuel client object current
        untouched
      have dataLen : (ServiceOutcome.service (serveClient registered fuel round turn client
          service)).dataLen = _ := serveClient_dataLen current
      rw [returned] at data dataLen
      rw [fds]
      exact ⟨data ▸ filled.full, dataLen ▸ filled.last⟩

end Leaving

-----------------------------------------------------------------------------------------
-- Runs
-----------------------------------------------------------------------------------------

/-- Whoever has a handler is ready in every round and has not failed to receive; what the loop
gives to `received` covers what is left in the buffer; and the application does not write to
the buffer.
-/
structure KeepsApart (registered : Bool) (objects : Address → Option TcpClient)
    (clients : List Address) (data : List UInt8) (rounds : List Round) : Prop where
  ready : ∀ round ∈ rounds, round.AllReady registered objects clients
  passive : ∀ round ∈ rounds, round.Passive objects clients
  covers : Covers registered objects clients rounds (.of data)

section Runs

variable {objects : Address → Option TcpClient} {clients : List Address} {registered : Bool}
  {fuel : Nat} {data : List UInt8} {dataLen : Int} {rounds : List Round} {client : Address}
  {object : TcpClient}

/-- What the listener is given for a client in such a run is what it hears of that client alone,
as far as the run goes.
-/
theorem KeepsApart.within (apart : KeepsApart registered objects clients data rounds)
    (room : data.length = kBufferSize) (present : objects client = some object)
    : (serveRounds registered fuel clients rounds (.start objects data dataLen)).Within client
        (object.hears registered fuel client (turnsOf client clients rounds))
        (fun last => last.heardFrom client
          = object.hears registered fuel client (turnsOf client clients rounds)) := by
  have clear : (Service.start objects data dataLen).Clear (.of data) := .start room dataLen
  have start : (Service.start objects data dataLen).Apart objects registered fuel client
      (object.hears registered fuel client (turnsOf client clients rounds)) (.of data)
      (turnsOf client clients rounds) :=
    ⟨⟨fun _ => rfl, room⟩, clear.zero, clear.last, object, present, rfl⟩
  exact start.after_rounds apart.ready apart.passive apart.covers

end Runs

end Ethnm
