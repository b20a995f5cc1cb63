import Ethnm.Delimiter.Promptness

/-! What the first two bytes of a delivered message say about its length. The length was
peeked at in the ring, and the message copied to a buffer whose start the part behind the
physical end overwrites.
-/

namespace Ethnm
open ByteCircularBuffer CircularWindow

/-- Every delivered message has at least two bytes, and its first two say its length. -/
def SelfDescribing (bytes : List UInt8) : Prop :=
  ∀ arrivals fuel, stream arrivals <+: bytes →
    ∀ turn ∈ (feed .var fuel fresh arrivals).progress.iterations,
      2 ≤ turn.len.toNat ∧ hostOrder turn.msg = turn.len

/-- A message of this length can be delivered from this position of the stream. -/
structure Delivered (bytes : List UInt8) (position length : Nat) : Prop where
  boundary : Boundary bytes position
  asks : Asks bytes position length
  enough : length ≤ min (bytes.length - position) 10240
  fits : BufFits position length

/-- What the first two bytes of a delivered message say, when the second byte of the message
buffer held `stale`. The part behind the physical end lies at the start of the buffer.
-/
def shownLength (bytes : List UInt8) (position length : Nat) (stale : UInt8) : Nat :=
  let leading := 10240 - position % 10240
  if length ≤ leading then
    littleEndian bytes position
  else if leading + 1 < length then
    littleEndian bytes (position + leading)
  else
    byteAt bytes (position + leading)
      + 256 * (if 1 < leading then byteAt bytes (position + 1) else stale.toNat)

/-- The bytes of the stream that get to the start of the buffer say the length. -/
structure Describes (bytes : List UInt8) (position length : Nat) : Prop where
  header : 2 ≤ length
  behind
    : 10240 + 1 < position % 10240 + length →
        littleEndian bytes (position + (10240 - position % 10240)) = length
  last
    : position % 10240 + length = 10240 + 1 →
        position % 10240 ≠ 10239
        ∧ byteAt bytes (position + (10240 - position % 10240)) + 256 * byteAt bytes (position + 1)
          = length

-----------------------------------------------------------------------------------------
-- The start of the message buffer
-----------------------------------------------------------------------------------------

section Copies

variable {leading : Nat} {bytes buffer : List UInt8}

/-- Each cell of the caller's buffer after a copy: the later piece is on top of the earlier. -/
theorem getD_copiedOut (index : Nat)
    : (copiedOut leading bytes buffer).getD index 0
      = if index < bytes.length - leading then bytes.getD (leading + index) 0
        else if index < min bytes.length leading then bytes.getD index 0
        else buffer.getD index 0 := by
  simp only [List.getD_eq_getElem?_getD]
  unfold copiedOut
  by_cases le : bytes.length ≤ leading
  · rw [if_pos le, getElem?_overlay _ _ (Nat.zero_le _), if_neg (Nat.not_lt_zero _),
      Nat.zero_add, Nat.sub_zero, if_neg (show ¬ index < bytes.length - leading by omega),
      Nat.min_eq_left le]
    split <;> rfl
  · rw [if_neg le, getElem?_overlay _ _ (Nat.zero_le _), if_neg (Nat.not_lt_zero _),
      Nat.zero_add, Nat.sub_zero, List.length_drop, List.getElem?_drop,
      getElem?_overlay _ _ (Nat.zero_le _), if_neg (Nat.not_lt_zero _), Nat.zero_add,
      Nat.sub_zero, List.length_take, Nat.min_comm leading]
    split
    · rfl
    · split
      · rw [List.getElem?_take_of_lt (by omega)]
      · rfl

end Copies

section Messages

variable {bytes received : List UInt8} {position length : Nat} {progress : Progress}

/-- What a delivered message shows does not depend on what is behind it in the stream. -/
theorem shownLength_begins (begins : received <+: bytes)
    (complete : position + length ≤ received.length) (two : 2 ≤ length) (stale : UInt8)
    : shownLength bytes position length stale = shownLength received position length stale := by
  have below : position % 10240 < 10240 := Nat.mod_lt _ (by decide)
  obtain ⟨rest, rfl⟩ := begins
  unfold shownLength
  dsimp only
  split
  · rw [littleEndian, littleEndian, byteAt_append (by omega), byteAt_append (by omega)]
  · split
    · rw [littleEndian, littleEndian, byteAt_append (by omega), byteAt_append (by omega)]
    · rw [byteAt_append (by omega), byteAt_append (by omega)]

/-- The first two bytes that the callback is given. -/
theorem Tracks.hostOrder_message (tracks : Tracks received position progress) {size : UInt16}
    (enough : size.toNat ≤ received.length - position) (two : 2 ≤ size.toNat)
    : hostOrder ((copiedOut progress.delimiter.bcb.leading
          (progress.delimiter.bcb.live.take size.toNat) progress.delimiter.buf).take size.toNat)
      = .ofNat (shownLength received position size.toNat
          (progress.delimiter.buf.getD 1 0)) := by
  have below : position % 10240 < 10240 := Nat.mod_lt _ (by decide)
  have width : (progress.delimiter.bcb.live.take size.toNat).length = size.toNat := by
    rw [List.length_take, tracks.live, List.length_drop]
    omega
  have cell (index : Nat) (within : index < size.toNat)
      : ((progress.delimiter.bcb.live.take size.toNat).getD index 0).toNat
        = byteAt received (position + index) := by
    rw [List.getD_eq_getElem?_getD, List.getElem?_take_of_lt within, tracks.live,
      List.getElem?_drop, ← List.getD_eq_getElem?_getD, byteAt]
  have taken (bytes : List UInt8) (index : Nat) (within : index < size.toNat)
      : (bytes.take size.toNat).getD index 0 = bytes.getD index 0 := by
    rw [List.getD_eq_getElem?_getD, List.getElem?_take_of_lt within, List.getD_eq_getElem?_getD]
  -- The first piece that was copied, or the one behind the physical end.
  have first : ((copiedOut progress.delimiter.bcb.leading
        (progress.delimiter.bcb.live.take size.toNat) progress.delimiter.buf).getD 0 0).toNat
      = byteAt received (position
          + if size.toNat ≤ 10240 - position % 10240 then 0 else 10240 - position % 10240) := by
    rw [getD_copiedOut, width, tracks.leading]
    by_cases near : size.toNat ≤ 10240 - position % 10240
    · rw [if_pos near, if_neg (show ¬ 0 < size.toNat - _ by omega),
        if_pos (show 0 < min _ _ by omega), cell 0 (by omega)]
    · rw [if_neg near, if_pos (show 0 < size.toNat - _ by omega), cell _ (by omega), Nat.add_zero]
  have second : ((copiedOut progress.delimiter.bcb.leading
        (progress.delimiter.bcb.live.take size.toNat) progress.delimiter.buf).getD 1 0).toNat
      = if 10240 - position % 10240 + 1 < size.toNat then
          byteAt received (position + (10240 - position % 10240) + 1)
        else if 1 < 10240 - position % 10240 then byteAt received (position + 1)
        else (progress.delimiter.buf.getD 1 0).toNat := by
    rw [getD_copiedOut, width, tracks.leading]
    by_cases far : 10240 - position % 10240 + 1 < size.toNat
    · rw [if_pos far, if_pos (show 1 < size.toNat - _ by omega), cell _ (by omega)]
      rfl
    · rw [if_neg far, if_neg (show ¬ 1 < size.toNat - _ by omega)]
      by_cases whole : 1 < 10240 - position % 10240
      · rw [if_pos whole, if_pos (show 1 < min _ _ by omega), cell 1 (by omega)]
      · rw [if_neg whole, if_neg (show ¬ 1 < min _ _ by omega)]
  rw [hostOrder, taken _ 0 (by omega), taken _ 1 (by omega), first, second]
  congr 1
  unfold shownLength
  dsimp only
  by_cases near : size.toNat ≤ 10240 - position % 10240
  · rw [if_pos near, if_pos near, if_neg (show ¬ _ + 1 < size.toNat by omega),
      if_pos (show 1 < 10240 - position % 10240 by omega)]
    rfl
  · rw [if_neg near, if_neg near]
    split <;> rfl

/-- What a message from a boundary shows is its length, whatever the buffer held, exactly when
the stream describes it.
-/
theorem Delivered.describes_iff (delivered : Delivered bytes position length)
    : Describes bytes position length
      ↔ 2 ≤ length ∧ ∀ stale, shownLength bytes position length stale = length := by
  have below : position % 10240 < 10240 := Nat.mod_lt _ (by decide)
  obtain ⟨stale, seen⟩ := delivered.asks.seen
  constructor
  · rintro ⟨two, behind, last⟩
    refine ⟨two, fun stale => ?_⟩
    unfold shownLength
    dsimp only
    split
    · rename_i near
      rw [seen, seenLength_of_ne (by omega)]
    · split
      · exact behind (by omega)
      · obtain ⟨whole, same⟩ := last (by omega)
        rw [if_pos (by omega)]
        exact same
  · rintro ⟨two, shown⟩
    refine ⟨two, fun far => ?_, fun last => ?_⟩
    · have same := shown 0
      unfold shownLength at same
      dsimp only at same
      rw [if_neg (by omega), if_pos (by omega)] at same
      exact same
    · have first := shown 0
      have second := shown 255
      have zero : (0 : UInt8).toNat = 0 := rfl
      have full : (255 : UInt8).toNat = 255 := rfl
      unfold shownLength at first second
      dsimp only at first second
      rw [if_neg (by omega), if_neg (by omega)] at first second
      by_cases whole : position % 10240 = 10239
      · rw [if_neg (by omega)] at first second
        omega
      · rw [if_pos (by omega)] at first
        exact ⟨whole, first⟩

theorem shownLength_lt (bytes : List UInt8) (position length : Nat) (stale : UInt8)
    : shownLength bytes position length stale < 65536 := by
  have byte (position : Nat) : byteAt bytes position < 256 := (bytes.getD position 0).toNat_lt
  have old := stale.toNat_lt
  have start := byte position
  have next := byte (position + 1)
  have end' := byte (position + (10240 - position % 10240))
  have beyond := byte (position + (10240 - position % 10240) + 1)
  unfold shownLength littleEndian
  dsimp only
  split
  · omega
  · split
    · omega
    · split <;> omega

/-- At the start of the stream no message passes the physical end so closely. -/
theorem shownLength_zero (bytes : List UInt8) (length : Nat) (stale other : UInt8)
    : shownLength bytes 0 length stale = shownLength bytes 0 length other := by
  unfold shownLength
  dsimp only
  rw [if_pos (show 1 < 10240 - 0 % 10240 by decide), if_pos (show 1 < 10240 - 0 % 10240 by decide)]

-----------------------------------------------------------------------------------------
-- What was delivered
-----------------------------------------------------------------------------------------

/-- Every finished turn has delivered a message from a boundary, whose first two bytes are
those of the start of the message buffer.
-/
def Shown (bytes : List UInt8) (progress : Progress) : Prop :=
  ∀ turn ∈ progress.iterations,
    ∃ position stale,
      Delivered bytes position turn.len.toNat
      ∧ (2 ≤ turn.len.toNat
          → hostOrder turn.msg = .ofNat (shownLength bytes position turn.len.toNat stale))

theorem keeps_shown (bytes : List UInt8) : Keeps bytes (Shown bytes) where
  fresh := fun _ member => by cases member
  same := by
    intro progress next _ iterations shown
    rw [Shown, iterations]
    exact shown
  asking := fun _ _ shown => shown
  advanced := by
    intro received consumed progress size around turn tracks begins boundary asks enough fits
      shown other member
    rw [iterations_advanced] at member
    rcases List.mem_append.mp member with old | new
    · exact shown other old
    · have total := begins.length_le
      have bound := tracks.size_le
      have before := tracks.consumed_le
      rw [List.mem_singleton.mp new]
      dsimp only
      refine ⟨consumed, progress.delimiter.buf.getD 1 0, ⟨boundary, asks, by omega, fits⟩, ?_⟩
      intro two
      rw [shownLength_begins begins (by omega) two]
      exact tracks.hostOrder_message enough two

-----------------------------------------------------------------------------------------
-- Runs that deliver a message
-----------------------------------------------------------------------------------------

/-- What a callback makes of the message buffer that fills it with one byte. -/
def refill (byte : UInt8) (buf : List UInt8) : List UInt8 :=
  List.replicate buf.length byte

theorem length_refill (byte : UInt8) (buf : List UInt8) : (refill byte buf).length = buf.length :=
  List.length_replicate

/-- Surroundings in which the locals agree, and the callback fills the message buffer. -/
def Surroundings.refilling (stale byte : UInt8) : Surroundings where
  msgSize := fun _ => .ofNat (256 * stale.toNat)
  readSize := .ofNat (256 * stale.toNat)
  received := fun _ buf => refill byte buf
  length_received := fun _ buf => length_refill byte buf

/-- A message that can be delivered is delivered in some run, and the loop goes on. -/
theorem ReachesWith.delivers {holds : List UInt8 → Prop} {count : Nat}
    (reaches : ReachesWith holds bytes count position) (few : count ≤ position + 2)
    (delivered : Delivered bytes position length) (byte : UInt8)
    : ∃ later arrivals stale, later = position + max length 3
      ∧ later ≤ bytes.length
      ∧ stream arrivals = bytes.take later
      ∧ ∀ fuel,
          ∃ progress, Tracks (bytes.take later) position progress
            ∧ holds progress.delimiter.buf
            ∧ feed .var (fuel + 2) fresh arrivals
              = MsgDelimiterVar.processMsg (.refilling stale byte) (fuel + 1) 1 (.ofNat length)
                  (progress.advanced (.refilling stale byte) 0 (.ofNat length))
            ∧ Tracks (bytes.take later) (position + length)
                (progress.advanced (.refilling stale byte) 0 (.ofNat length)) := by
  obtain ⟨-, ⟨three, -, stale, rfl⟩, enough, fits⟩ := delivered
  obtain ⟨later, arrivals, later_eq, within, received, flushable, run⟩ :=
    reaches.drains few three enough (.refilling stale byte) (fun _ => highByte_ofNat_mul stale)
  have width : (bytes.take later).length = later := by
    rw [List.length_take, Nat.min_eq_left within]
  have same := seenLength_begins (List.take_prefix later bytes)
    (by rw [width]; omega : position + 2 ≤ _) stale
  refine ⟨later, arrivals, stale, later_eq, within, received, fun fuel => ?_⟩
  obtain ⟨progress, tracks, held, result⟩ := run (fuel + 2) (by omega)
  have turn := tracks.processMsg_turn (.refilling stale byte)
    (fun _ => highByte_ofNat_mul stale) (highByte_ofNat_mul stale) flushable
    (by rw [← same]; exact fits) (fuel + 1)
  rw [← same] at turn
  exact ⟨progress, tracks, held, result.trans turn.1, turn.2⟩

/-- Each boundary but the first is reached with the message buffer as a callback has filled
it; by induction on boundaries.
-/
theorem Boundary.reached_filled (boundary : Boundary bytes position) (byte : UInt8)
    : ∃ count, count ≤ position + 2
      ∧ ReachesWith (fun buf => position = 0 ∨ buf = List.replicate kBufferSize byte) bytes
          count position := by
  induction boundary with
  | start => exact ⟨0, by omega, (reaches_start bytes).any.mono (fun _ _ => .inl rfl)⟩
  | @next position length boundary asks enough fits ih =>
      obtain ⟨count, few, reaches⟩ := ih
      by_cases zero : length = 0
      · subst zero
        exact ⟨count, few, reaches⟩
      · obtain ⟨later, arrivals, stale, later_eq, within, received, run⟩ :=
          reaches.delivers few ⟨boundary, asks, enough, fits⟩ byte
        refine ⟨later, by omega, within, arrivals, received, fun fuel two => ?_⟩
        obtain ⟨fuel, rfl⟩ : ∃ other, fuel = other + 2 := ⟨fuel - 2, by omega⟩
        obtain ⟨progress, tracks, -, result, next⟩ := run fuel
        have done := next.processMsg_done (by rw [List.length_take]; omega)
          (.refilling stale byte) fuel 1
        refine ⟨_, result.trans (done _), next, .inr ?_⟩
        have room := next.room
        rw [← room]
        exact congrArg (List.replicate · byte) (List.length_replicate.symm)

/-- A message that can be delivered is delivered with any byte behind the start of the buffer.
-/
theorem Delivered.shows (delivered : Delivered bytes position length) (byte : UInt8)
    : ∃ arrivals fuel, stream arrivals <+: bytes
      ∧ ∃ turn ∈ (feed .var fuel fresh arrivals).progress.iterations,
          turn.len.toNat = length
          ∧ (2 ≤ length
              → hostOrder turn.msg = .ofNat (shownLength bytes position length byte)) := by
  obtain ⟨count, few, reaches⟩ := delivered.boundary.reached_filled byte
  obtain ⟨later, arrivals, stale, later_eq, within, received, run⟩ :=
    reaches.delivers few delivered byte
  obtain ⟨progress, tracks, held, result, -⟩ := run 0
  have size : (UInt16.ofNat length).toNat = length := by
    obtain ⟨other, rfl⟩ := delivered.asks.seen
    exact toNat_seenLength bytes position other
  have width : (bytes.take later).length = later := by
    rw [List.length_take, Nat.min_eq_left within]
  refine ⟨arrivals, 2, received ▸ List.take_prefix later bytes, ?_⟩
  rw [result]
  have kept := (extends_processMsg_var (.refilling stale byte) (0 + 1) 1 (.ofNat length)
    (progress.advanced (.refilling stale byte) 0 (.ofNat length))).iterations.subset
  refine ⟨_, kept (List.mem_append_right _ (List.mem_singleton.mpr rfl)), size, fun two => ?_⟩
  have message := tracks.hostOrder_message
    (by rw [size, width]; omega : (UInt16.ofNat length).toNat ≤ _) (by rw [size]; exact two)
  rw [size, ← shownLength_begins (List.take_prefix later bytes) (by rw [width]; omega)
    two] at message
  have same : shownLength bytes position length (progress.delimiter.buf.getD 1 0)
      = shownLength bytes position length byte := by
    rcases held with rfl | filled
    · exact shownLength_zero bytes length _ _
    · rw [filled]
      rfl
  rw [same] at message
  simpa only [size] using message

end Messages

/-- Delivered messages say their length exactly when each that can be delivered has at least
two bytes, and those of its bytes that get to the start of the buffer say its length.
-/
theorem selfDescribing_iff (bytes : List UInt8)
    : SelfDescribing bytes
      ↔ ∀ position length,
          Delivered bytes position length → Describes bytes position length := by
  constructor
  · intro describing position length delivered
    rw [delivered.describes_iff]
    have each (byte : UInt8)
        : 2 ≤ length ∧ shownLength bytes position length byte = length := by
      obtain ⟨arrivals, fuel, begins, turn, member, len, shows⟩ := delivered.shows byte
      obtain ⟨two, same⟩ := describing arrivals fuel begins turn member
      rw [len] at two
      refine ⟨two, ?_⟩
      rw [shows two] at same
      have shown := congrArg UInt16.toNat same
      rw [UInt16.toNat_ofNat', Nat.mod_eq_of_lt (shownLength_lt _ _ _ _), len] at shown
      exact shown
    exact ⟨(each 0).1, fun stale => (each stale).2⟩
  · intro describes arrivals fuel begins turn member
    obtain ⟨position, stale, delivered, shows⟩ :=
      (keeps_shown bytes).feed_progress begins turn member
    obtain ⟨two, shown⟩ := delivered.describes_iff.mp (describes _ _ delivered)
    refine ⟨two, ?_⟩
    rw [shows two, shown, UInt16.ofNat_toNat]

/-- A header that announces one byte has one byte delivered. -/
theorem not_selfDescribing_one : ¬ SelfDescribing [1, 0, 0] := by
  intro describing
  have delivered : Delivered [1, 0, 0] 0 1 :=
    {
      boundary := .start
      asks := { three := by decide, flushable := ⟨0, by decide⟩, seen := ⟨0, by decide⟩ }
      enough := by decide
      fits := by decide
    }
  obtain ⟨arrivals, fuel, begins, turn, member, len, -⟩ := delivered.shows 0
  have two := (describing arrivals fuel begins turn member).1
  rw [len] at two
  exact absurd two (by decide)

end Ethnm
