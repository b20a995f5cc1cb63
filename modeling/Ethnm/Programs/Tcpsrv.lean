import Mathlib.Data.List.Chain
import Ethnm.Clients.Streams
import Ethnm.Clients.Endpoints

/-! What the program `tcpsrv` prints of the messages it receives. Its clients have no delimiter,
so the listener is given the receive buffer, which all clients share, and prints it up to its
first zero byte. What earlier turns have left behind a message is printed along with it.
-/

namespace Ethnm
open DottedText ListCursor

-----------------------------------------------------------------------------------------
-- The listener
-----------------------------------------------------------------------------------------

/-- What `%s` finds at the start of a buffer, if it comes to an end within the buffer. -/
def cString (buffer : List UInt8) : Option (List UInt8) :=
  if 0 ∈ buffer then some (buffer.takeWhile (· ≠ 0)) else none

/-- The line with this text in it. -/
def receivedLine (len : Nat) (text : List UInt8) : List Char :=
  "ReceivedListener() bytes received: ".toList ++ decimal len ++ ", msg: ".toList
    ++ text.map (fun byte => Char.ofNat byte.toNat) ++ "\n".toList

/-- `ReceivedListener`, unless it reads past the buffer. -/
def receivedListener (msg : List UInt8) (len : UInt16) : Option (List Char) :=
  (cString msg).map (receivedLine len.toNat)

/-- What the listener prints when it is called. -/
def Invocation.printed (invocation : Invocation) : Option (List Char) :=
  receivedListener invocation.data invocation.size

/-- The line that shows what was handed over. -/
def HandOver.line (handOver : HandOver) : List Char :=
  receivedLine handOver.chunk.length handOver.chunk

/-- The call prints what it was handed. -/
def Invocation.PrintsOwn (invocation : Invocation) : Prop :=
  invocation.printed = some invocation.handOver.line

/-- Bytes that `%s` shows, and the end of the string fits in the buffer behind them. -/
def IsText (chunk : List UInt8) : Prop :=
  chunk ≠ [] ∧ 0 ∉ chunk ∧ chunk.length < kBufferSize

instance (chunk : List UInt8) : Decidable (IsText chunk) :=
  inferInstanceAs (Decidable (_ ∧ _))

theorem not_isText_replicate (count : Nat) : ¬ IsText (List.replicate count 0) := by
  intro text
  cases count with
  | zero => exact text.1 rfl
  | succ count => exact text.2.1 List.mem_cons_self

theorem cString_append {text : List UInt8} (clean : 0 ∉ text) (rest : List UInt8)
    : cString (text ++ 0 :: rest) = some text := by
  rw [cString, if_pos (List.mem_append_right _ List.mem_cons_self), takeWhile_append_cons clean]

/-- Equal lines with equal lengths in them show as many bytes. -/
theorem length_of_receivedLine {len : Nat} {text other : List UInt8}
    (same : receivedLine len text = receivedLine len other)
    : text.length = other.length := by
  have lengths := congrArg List.length same
  unfold receivedLine at lengths
  simp only [List.length_append, List.length_map] at lengths
  omega

-----------------------------------------------------------------------------------------
-- Turns
-----------------------------------------------------------------------------------------

/-- Every call so far has printed what it was handed. -/
def Service.PrintsAll (service : Service) : Prop :=
  ∀ call ∈ service.invocations, call.PrintsOwn

theorem Service.PrintsAll.mono {service later : Service} (prints : later.PrintsAll)
    (more : service.invocations ⊆ later.invocations)
    : service.PrintsAll :=
  fun call member => prints call (more member)

/-- The receive buffer shows what is left of the last turn, and begins with a text behind which
it is cleared.
-/
structure Service.Residue (objects : Address → Option TcpClient) (left behind : List UInt8)
    (service : Service) : Prop
    extends Service.Holds left service where
  sound : service.Sound objects
  padded : service.data = behind ++ List.replicate (kBufferSize - behind.length) 0
  clean : 0 ∉ behind
  short : behind.length < kBufferSize

/-- The calls so far and one more. -/
theorem printsAll_concat {service served : Service} {call : Invocation}
    (calls : served.invocations = service.invocations ++ [call])
    : served.PrintsAll ↔ service.PrintsAll ∧ call.PrintsOwn := by
  rw [Service.PrintsAll, calls, List.forall_mem_append, List.forall_mem_singleton]
  rfl

section Turns

variable {objects : Address → Option TcpClient} {fuel : Nat} {service : Service} {round : Round}
  {turn fd : Nat} {client : Address} {left behind chunk : List UInt8}

/-- The chunk is written over the start of the buffer, if it is not there already. -/
theorem Service.Residue.data_receive (residue : service.Residue objects left behind)
    (covers : round.activeFdSet fd = true ∨ behind = left)
    (handed : round.chunk turn fd left = chunk) (text : IsText chunk)
    : (service.receive round turn fd).data = chunk ++ service.data.drop chunk.length := by
  rw [Round.chunk] at handed
  unfold Service.receive
  by_cases ready : round.activeFdSet fd = true
  · rw [if_pos ready] at handed ⊢
    cases result : round.recvfrom turn with
    | error =>
        rw [result] at handed
        exact absurd handed.symm text.1
    | bytes stored sized =>
        rw [result] at handed
        subst handed
        rfl
  · rw [if_neg ready] at handed ⊢
    obtain rfl : behind = chunk := (covers.resolve_left ready).trans handed
    rw [residue.padded, List.drop_left]

/-- What lies behind the chunk is the rest of what was there, and then zero. -/
theorem Service.Residue.split (residue : service.Residue objects left behind)
    (text : IsText chunk)
    : ∃ rest,
        service.data.drop chunk.length = behind.drop chunk.length ++ 0 :: rest := by
  have within := text.2.2
  have short := residue.short
  rw [residue.padded, List.drop_append, List.drop_replicate]
  obtain ⟨count, more⟩ : ∃ count,
      kBufferSize - behind.length - (chunk.length - behind.length) = count + 1 :=
    Nat.exists_eq_succ_of_ne_zero (by omega)
  rw [more]
  exact ⟨_, rfl⟩

/-- A call on a buffer that begins with its chunk prints the chunk if and only if the string
ends behind it.
-/
theorem Service.Holds.printsOwn_iff (holds : service.Holds chunk) (text : IsText chunk)
    {more rest : List UInt8} (clean : 0 ∉ more)
    (data : service.data = chunk ++ (more ++ 0 :: rest))
    : Invocation.PrintsOwn
        { round, turn, client, data := service.data, size := .ofInt service.dataLen }
      ↔ more = [] := by
  obtain ⟨dataLen, -⟩ := holds.shown text.1
  have size : (UInt16.ofInt service.dataLen).toNat = chunk.length := by
    rw [dataLen, toNat_ofInt_length (Nat.le_of_lt text.2.2)]
  have shown : cString service.data = some (chunk ++ more) := by
    rw [data, ← List.append_assoc]
    exact cString_append (List.not_mem_append text.2.1 clean) rest
  rw [Invocation.PrintsOwn, holds.handOver text.1, Invocation.printed, receivedListener, shown,
    size, Option.map_some, Option.some.injEq, HandOver.line]
  constructor
  · intro same
    have lengths := length_of_receivedLine same
    rw [List.length_append] at lengths
    exact List.eq_nil_of_length_eq_zero (Nat.add_eq_left.mp lengths)
  · rintro rfl
    rw [List.append_nil]

/-- A turn prints its chunk if and only if the chunk is not shorter than what it is written
over; the buffer is then clear behind the chunk.
-/
theorem Service.Residue.after_turn (residue : service.Residue objects left behind)
    (present : objects client = some ⟨fd, none⟩)
    (passive : ∀ buf, (round.around turn).received 0 buf = buf)
    (covers : round.activeFdSet fd = true ∨ behind = left)
    (handed : round.chunk turn fd left = chunk) (text : IsText chunk)
    : ∃ served call,
        serveClient true fuel round turn client service = .ok served
        ∧ served.invocations = service.invocations ++ [call]
        ∧ served.Sound objects
        ∧ (call.PrintsOwn ↔ behind.length ≤ chunk.length)
        ∧ (behind.length ≤ chunk.length → served.Residue objects chunk chunk) := by
  have holds : (service.receive round turn fd).Holds chunk :=
    handed ▸ residue.toHolds.receive round turn fd
  have data := residue.data_receive covers handed text
  obtain ⟨rest, behindChunk⟩ := residue.split text
  have clean : 0 ∉ behind.drop chunk.length :=
    fun member => residue.clean (List.mem_of_mem_drop member)
  have prints := @Service.Holds.printsOwn_iff _ round turn client _ holds text _ rest clean
    (behindChunk ▸ data)
  have sound : ((service.receive round turn fd).invoke round turn client).Sound objects := by
    refine ⟨fun other => ?_, holds.room⟩
    change ((service.receive round turn fd).objects other).map _ = _
    rw [Service.objects_receive]
    exact residue.sound.same other
  let msg := (service.receive round turn fd).data
  let len := UInt16.ofInt (service.receive round turn fd).dataLen
  refine ⟨((service.receive round turn fd).invoke round turn client).hear
      [{ client, msg, len }], _, ?_, ?_, sound.hear _,
    prints.trans List.drop_eq_nil_iff, fun covered => ?_⟩
  · simp only [serveClient, residue.sound.plain present, if_true, passive]
    rfl
  · change (service.receive round turn fd).invocations ++ [_] = _
    rw [Service.invocations_receive]
  · refine ⟨⟨holds.room, holds.shown⟩, sound.hear _, ?_, text.2.1, text.2.2⟩
    have short := residue.short
    have more : kBufferSize - behind.length - (chunk.length - behind.length)
        = kBufferSize - chunk.length := by
      omega
    change (service.receive round turn fd).data = _
    rw [data, residue.padded, List.drop_append, List.drop_eq_nil_of_le covered,
      List.drop_replicate, List.nil_append, more]

end Turns

-----------------------------------------------------------------------------------------
-- Rounds
-----------------------------------------------------------------------------------------

/-- No chunk is shorter than the one before it. -/
def Ascending (handOvers : List HandOver) : Prop :=
  (handOvers.map (fun handOver => handOver.chunk.length)).IsChain (· ≤ ·)

/-- Nor is the first chunk shorter than this one. -/
def AscendingFrom (left : List UInt8) (handOvers : List HandOver) : Prop :=
  (left.length :: handOvers.map (fun handOver => handOver.chunk.length)).IsChain (· ≤ ·)

/-- The hand-overs of a run, round by round. -/
def roundHandOvers (fds : Address → Nat) (clients : List Address)
    : List UInt8 → List Round → List (List HandOver)
  | _, [] => []
  | left, round :: rest =>
      let (turns, last) := round.handOvers fds 0 left clients
      turns :: roundHandOvers fds clients (List.replicate last.length 0) rest

theorem flatten_roundHandOvers (fds : Address → Nat) (clients : List Address)
    (rounds : List Round) (left : List UInt8)
    : (roundHandOvers fds clients left rounds).flatten = handOvers fds clients left rounds := by
  induction rounds generalizing left with
  | nil => rfl
  | cons round rest ih => rw [roundHandOvers, handOvers, List.flatten_cons, ih]

section Rounds

variable {objects : Address → Option TcpClient} {clients rest : List Address} {fuel : Nat}
  {service last : Service} {round : Round} {turn : Nat} {left behind : List UInt8}

/-- A client without a delimiter, by the descriptor that the turns look at. -/
theorem plain_fdsOf {client : Address} (plain : ∃ fd, objects client = some ⟨fd, none⟩)
    : objects client = some ⟨fdsOf objects client, none⟩ := by
  obtain ⟨fd, present⟩ := plain
  rw [fdsOf, present]
  rfl

/-- The turns that are left print what they are handed as long as no chunk is shorter than the
one before it; by induction on the clients still to be served.
-/
theorem Service.Residue.after_turns
    (plain : ∀ client ∈ clients, ∃ fd, objects client = some ⟨fd, none⟩)
    (passive : round.Passive objects clients)
    (residue : service.Residue objects left left) (position : clients.drop turn = rest)
    (texts
      : ∀ handOver ∈ (round.handOvers (fdsOf objects) turn left rest).1, IsText handOver.chunk)
    (returned : serveClients true fuel round turn rest service = .ok last)
    : let handed := round.handOvers (fdsOf objects) turn left rest
      (last.PrintsAll ↔ service.PrintsAll ∧ AscendingFrom left handed.1)
      ∧ (AscendingFrom left handed.1 → last.Residue objects handed.2 handed.2) := by
  induction rest generalizing turn service left with
  | nil =>
      cases returned
      exact ⟨⟨fun prints => ⟨prints, .singleton _⟩, fun prints => prints.1⟩, fun _ => residue⟩
  | cons client rest ih =>
      have here := getElem?_of_drop_eq_cons position
      have present := plain_fdsOf (plain client (List.mem_of_getElem? here))
      have text := texts _ List.mem_cons_self
      obtain ⟨served, call, first, calls, sound, prints, covered⟩ :=
        residue.after_turn present (passive turn client _ here present) (.inr rfl) rfl text
      rw [serveClients, first] at returned
      rw [Round.handOvers] at texts ⊢
      intro handed
      have all : served.PrintsAll ↔ service.PrintsAll ∧ left.length ≤ _ :=
        (printsAll_concat calls).trans (and_congr_right' prints)
      have ascends : AscendingFrom left handed.1 ↔ left.length ≤ _ ∧ AscendingFrom _ _ :=
        List.isChain_cons_cons
      by_cases grows : left.length ≤ (round.chunk turn (fdsOf objects client) left).length
      · obtain ⟨prints, residue⟩ := ih (covered grows) (drop_succ_of_drop_eq_cons position)
          (fun handOver member => texts handOver (.tail _ member)) returned
        rw [prints, all, ascends, and_assoc]
        exact ⟨Iff.rfl, fun ascends => residue ascends.2⟩
      · have more := (serveClients_ok sound (drop_succ_of_drop_eq_cons position) returned).2.1
        refine ⟨iff_of_false (fun prints => ?_) (fun prints => ?_), fun ascending => ?_⟩
        · exact grows (all.mp (prints.mono more)).2
        · exact grows (ascends.mp prints.2).1
        · exact absurd (ascends.mp ascending).1 grows

/-- A round over a cleared buffer prints what it hands over if and only if no chunk is shorter
than the one before it.
-/
theorem Service.Residue.after_round (someone : clients ≠ [])
    (plain : ∀ client ∈ clients, ∃ fd, objects client = some ⟨fd, none⟩)
    (passive : round.Passive objects clients)
    (residue : service.Residue objects left []) (cleared : ¬ IsText left)
    (texts
      : ∀ handOver ∈ (round.handOvers (fdsOf objects) 0 left clients).1, IsText handOver.chunk)
    (returned : serveClients true fuel round 0 clients service = .ok last)
    : let handed := round.handOvers (fdsOf objects) 0 left clients
      (last.PrintsAll ↔ service.PrintsAll ∧ Ascending handed.1)
      ∧ (Ascending handed.1 → last.Residue objects handed.2 handed.2) := by
  obtain ⟨client, rest, rfl⟩ := List.exists_cons_of_ne_nil someone
  have present := plain_fdsOf (plain client List.mem_cons_self)
  have text := texts _ List.mem_cons_self
  have ready : round.activeFdSet (fdsOf objects client) = true := by
    by_contra waiting
    rw [Round.handOver, Round.chunk, if_neg waiting] at text
    exact cleared text
  obtain ⟨served, call, first, calls, -, prints, covered⟩ :=
    residue.after_turn present (passive 0 client _ rfl present) (.inl ready) rfl text
  rw [serveClients, first] at returned
  have all : served.PrintsAll ↔ service.PrintsAll :=
    (printsAll_concat calls).trans (and_iff_left (prints.mpr (Nat.zero_le _)))
  have others := (covered (Nat.zero_le _)).after_turns plain passive rfl
    (fun handOver member => texts handOver (.tail _ member)) returned
  rw [all] at others
  exact others

/-- Between two rounds of the loop the buffer is cleared where the last chunk was, and so is all
of it when nothing lies behind that.
-/
theorem Service.Residue.after_clear {next : Service}
    (residue : service.Residue objects left left) (text : IsText left)
    (returned : service.clear = .ok next)
    : next.Residue objects (List.replicate left.length 0) []
      ∧ next.invocations = service.invocations := by
  have silent := service.invocations_clear
  have sound := residue.sound.clear
  rw [returned] at silent sound
  refine ⟨?_, silent⟩
  obtain ⟨dataLen, -⟩ := residue.shown text.1
  have count : service.dataLen.toNat = left.length := by rw [dataLen, Int.toNat_natCast]
  have short := residue.short
  have room := residue.room
  rw [Service.clear, count, if_pos ⟨by omega, by omega⟩] at returned
  cases returned
  have emptied : List.replicate left.length 0 ++ service.data.drop left.length
      = List.replicate kBufferSize 0 := by
    rw [residue.padded, List.drop_left, List.replicate_append_replicate]
    congr 1
    omega
  refine ⟨⟨sound.room, fun _ => ?_⟩, sound, emptied, List.not_mem_nil, by decide⟩
  rw [List.length_replicate]
  exact ⟨dataLen, List.take_left' List.length_replicate⟩

/-- A round leaves a text, by induction on the turns. -/
theorem Round.left_isText {fds : Address → Nat} (some : IsText left ∨ rest ≠ [])
    (texts : ∀ handOver ∈ (round.handOvers fds turn left rest).1, IsText handOver.chunk)
    : IsText (round.handOvers fds turn left rest).2 := by
  induction rest generalizing turn left with
  | nil => exact some.resolve_right (fun none => none rfl)
  | cons client rest ih =>
      rw [Round.handOvers] at texts ⊢
      exact ih (.inl (texts _ List.mem_cons_self))
        (fun handOver member => texts handOver (.tail _ member))

/-- The rounds print what they hand over if and only if in each of them no chunk is shorter than
the one before it; by induction on the rounds.
-/
theorem Service.Residue.after_rounds (someone : clients ≠ [])
    (plain : ∀ client ∈ clients, ∃ fd, objects client = some ⟨fd, none⟩) {rounds : List Round}
    (passive : ∀ round ∈ rounds, round.Passive objects clients)
    (residue : service.Residue objects left []) (cleared : ¬ IsText left)
    (texts
      : ∀ turns ∈ roundHandOvers (fdsOf objects) clients left rounds,
          ∀ handOver ∈ turns, IsText handOver.chunk)
    (returned : serveRounds true fuel clients rounds service = .ok last)
    : last.PrintsAll
      ↔ service.PrintsAll
        ∧ ∀ turns ∈ roundHandOvers (fdsOf objects) clients left rounds, Ascending turns := by
  induction rounds generalizing service left with
  | nil =>
      cases returned
      exact (and_iff_left (fun turns none => absurd none List.not_mem_nil)).symm
  | cons round rest ih =>
      rw [roundHandOvers] at texts ⊢
      obtain ⟨turns, later⟩ := List.forall_mem_cons.mp texts
      rw [serveRounds] at returned
      obtain ⟨served, first, returned⟩ := Runs.bind_eq_ok.mp returned
      obtain ⟨next, again, returned⟩ := Runs.bind_eq_ok.mp returned
      obtain ⟨prints, ascends⟩ := residue.after_round someone plain
        (passive round List.mem_cons_self) cleared turns first
      rw [List.forall_mem_cons]
      by_cases ascending : Ascending (round.handOvers (fdsOf objects) 0 left clients).1
      · obtain ⟨begun, silent⟩ := (ascends ascending).after_clear
          (Round.left_isText (.inr someone) turns) again
        have same : next.PrintsAll ↔ served.PrintsAll := by
          rw [Service.PrintsAll, silent, Service.PrintsAll]
        rw [ih (fun other member => passive other (.tail _ member)) begun
          (not_isText_replicate _) later returned, same, prints, and_assoc]
      · have sound := (serveClients_ok residue.sound rfl first).1.clear
        have silent := served.invocations_clear
        rw [again] at sound silent
        have more := (serveRounds_ok sound returned).1
        refine iff_of_false (fun all => ascending ?_) (fun all => ascending all.2.1)
        exact (prints.mp (all.mono (silent ▸ more))).2

/-- A turn hands to its own client, by induction on the turns. -/
theorem Round.client_mem {fds : Address → Nat} {handOver : HandOver}
    (member : handOver ∈ (round.handOvers fds turn left rest).1)
    : handOver.client ∈ rest := by
  induction rest generalizing turn left with
  | nil => cases member
  | cons client rest ih =>
      rw [Round.handOvers] at member
      cases member with
      | head => exact List.mem_cons_self
      | tail _ later => exact List.mem_cons_of_mem _ (ih later)

/-- A run hands to its own clients, by induction on the rounds. -/
theorem client_mem_of_handOvers {fds : Address → Nat} {rounds : List Round}
    {handOver : HandOver} (member : handOver ∈ handOvers fds clients left rounds)
    : handOver.client ∈ clients := by
  induction rounds generalizing left with
  | nil => cases member
  | cons round rest ih =>
      rw [handOvers] at member
      rcases List.mem_append.mp member with now | later
      · exact Round.client_mem now
      · exact ih later

/-- All hand-overs are calls of the application, if it has registered. -/
theorem filter_handles {rounds : List Round} {fds : Address → Nat}
    (live : ∀ client ∈ clients, (objects client).isSome)
    : (handOvers fds clients left rounds).filter (handles objects true)
      = handOvers fds clients left rounds := by
  refine List.filter_eq_self.mpr (fun handOver member => ?_)
  obtain ⟨object, present⟩ :=
    Option.isSome_iff_exists.mp (live _ (client_mem_of_handOvers member))
  rw [handles, present, Option.any_some]
  exact decide_eq_true (.inr rfl)

end Rounds

/-- `tcpsrv` prints every chunk as it was received, with its length, if and only if in no round
a chunk is shorter than the one before it.
-/
theorem tcpsrv_prints_iff {objects : Address → Option TcpClient} {clients : List Address}
    (someone : clients ≠ []) (live : ∀ client ∈ clients, (objects client).isSome)
    (plain : ∀ client object, objects client = some object → object.msgDelimiter = none)
    {rounds : List Round} (passive : ∀ round ∈ rounds, round.Passive objects clients)
    (texts
      : ∀ turns ∈ roundHandOvers (fdsOf objects) clients [] rounds,
          ∀ handOver ∈ turns, IsText handOver.chunk)
    (fuel : Nat) (dataLen : Int)
    : let data := List.replicate kBufferSize 0
      let handed := roundHandOvers (fdsOf objects) clients [] rounds
      ∃ last,
        serveRounds true fuel clients rounds (.start objects data dataLen) = .ok last
        ∧ last.invocations.map Invocation.handOver = handed.flatten
        ∧ ((∀ call ∈ last.invocations, call.printed = some call.handOver.line)
          ↔ ∀ turns ∈ handed, (turns.map (·.chunk.length)).Pairwise (· ≤ ·)) := by
  intro data handed
  have room : data.length = kBufferSize := List.length_replicate
  have whole := flatten_roundHandOvers (fdsOf objects) clients rounds []
  have nonempty
      : ∀ handOver ∈ handOvers (fdsOf objects) clients [] rounds, handOver.chunk ≠ [] := by
    intro handOver member
    rw [← whole] at member
    obtain ⟨turns, round, now⟩ := List.mem_flatten.mp member
    exact (texts turns round handOver now).1
  have listened : Listened objects true := fun _ _ _ _ => rfl
  have meets := follows_serveRounds someone live passive nonempty listened fuel room dataLen
  have residue : (Service.start objects data dataLen).Residue objects [] [] := by
    refine ⟨⟨room, fun shown => absurd rfl shown⟩, ⟨fun _ => rfl, room⟩, ?_, List.not_mem_nil,
      by decide⟩
    rfl
  cases result : serveRounds true fuel clients rounds (.start objects data dataLen) with
  | error stop =>
      rw [result] at meets
      obtain ⟨client, object, stopped, present, stuck⟩ := meets
      rw [TcpClient.fed, plain client object present] at stuck
      cases stuck
  | ok last =>
      rw [result] at meets
      obtain ⟨shown, follows⟩ := meets
      refine ⟨last, rfl, ?_, ?_⟩
      · rw [follows.calls, filter_handles live, whole]
      · have raw : ∀ client ∈ clients, ∃ fd, objects client = some ⟨fd, none⟩ := by
          intro client member
          obtain ⟨⟨fd, handler⟩, present⟩ := Option.isSome_iff_exists.mp (live client member)
          obtain rfl : handler = none := plain client _ present
          exact ⟨fd, present⟩
        have prints := residue.after_rounds someone raw passive (fun text => text.1 rfl) texts
          result
        have started : (Service.start objects data dataLen).PrintsAll :=
          fun call none => absurd none List.not_mem_nil
        rw [and_iff_right started] at prints
        simp only [Ascending, List.isChain_iff_pairwise] at prints
        exact prints

/-- A round in which everybody is ready, and the second client sends less than the first one. -/
def shorterSecond : Round where
  activeFdSet := fun _ => true
  recvfrom
    | 0 => .bytes [97, 98] (by decide)
    | _ => .bytes [99] (by decide)
  around := fun _ => .holding 0 0

/-- Not every line shows what its client has sent. -/
theorem tcpsrv_prints_iff_shorterSecond
    : ∃ last,
        serveRounds true 0 [1, 2] [shorterSecond]
            (.start plainObjects (List.replicate kBufferSize 0) 0)
          = .ok last
        ∧ ¬ ∀ call ∈ last.invocations, call.printed = some call.handOver.line := by
  have plain : ∀ client object, plainObjects client = some object →
      object.msgDelimiter = none := by
    intro client object present
    cases present
    rfl
  have passive : ∀ round ∈ [shorterSecond], round.Passive plainObjects [1, 2] := by
    intro round member turn client fd _ _ buf
    rw [List.mem_singleton.mp member]
    rfl
  obtain ⟨last, returned, -, prints⟩ := tcpsrv_prints_iff (by decide) (by decide) plain passive
    (by decide) 0 0
  refine ⟨last, returned, fun all => ?_⟩
  exact absurd (prints.mp all) (by decide)

end Ethnm
