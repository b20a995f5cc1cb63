import Ethnm.Delimiter.Feeding
import Ethnm.Delimiter.Headers

/-! Message boundaries of a byte stream: the positions at which a variable-length delimiter
can begin to read a message, whatever the split into chunks and the uninitialised locals.
-/

namespace Ethnm
open ByteCircularBuffer

/-- At a stream position, some call can ask the ring for a message of this length: the three
bytes that a flush needs can be there, and so can the bytes that the test of it sees.
-/
structure Asks (bytes : List UInt8) (position length : Nat) : Prop where
  three : position + 3 ≤ bytes.length
  flushable : ∃ stale, seenLength bytes position stale ≤ min (bytes.length - position) 10240
  seen : ∃ stale, length = seenLength bytes position stale

/-- The stream positions from which messages are read. -/
inductive Boundary (bytes : List UInt8) : Nat → Prop where
  | start : Boundary bytes 0
  | next {position length} (boundary : Boundary bytes position)
    (asks : Asks bytes position length)
    (enough : length ≤ min (bytes.length - position) 10240)
    (fits : BufFits position length)
    : Boundary bytes (position + length)

section Prefixes

variable {bytes received : List UInt8} {consumed : Nat}

/-- What is flushable in the ring is asked for at that position of the stream. -/
theorem Flushable.asks {seen : UInt8} (flushable : Flushable received consumed seen)
    (begins : received <+: bytes) (bound : received.length - consumed ≤ 10240)
    (stale : UInt8)
    : Asks bytes consumed (seenLength received consumed stale) := by
  obtain ⟨three, available⟩ := flushable
  have length_le := begins.length_le
  have same := seenLength_begins begins (by omega : consumed + 2 ≤ received.length)
  refine ⟨by omega, ⟨seen, ?_⟩, ⟨stale, (same stale).symm⟩⟩
  rw [same]
  omega

/-- Flushability after the first `count` bytes of a stream, read off the whole stream. -/
theorem flushable_take {count : Nat} (within : count ≤ bytes.length) (stale : UInt8)
    : Flushable (bytes.take count) consumed stale
      ↔ consumed + 3 ≤ count ∧ seenLength bytes consumed stale ≤ count - consumed := by
  have length : (bytes.take count).length = count := by
    rw [List.length_take, Nat.min_eq_left within]
  rw [Flushable, length]
  refine and_congr_right (fun three => ?_)
  rw [seenLength_begins (List.take_prefix count bytes) (by omega)]

end Prefixes

/-- Every length asked for, and every turn that was finished, belongs to a boundary. -/
structure Recorded (bytes : List UInt8) (progress : Progress) : Prop where
  asked : ∀ size ∈ progress.asked,
    ∃ position, Boundary bytes position ∧ Asks bytes position size.toNat
  turns : ∀ turn ∈ progress.iterations,
    (∃ position, Boundary bytes position ∧ Asks bytes position turn.len.toNat)
    ∧ turn.after.toNat + turn.len.toNat = turn.before.toNat

theorem recorded_fresh (bytes : List UInt8) : Recorded bytes fresh where
  asked := fun _ member => by cases member
  turns := fun _ member => by cases member

section Recording

variable {bytes received : List UInt8} {consumed : Nat} {progress : Progress}

/-- Asking for a length that a boundary can announce keeps the record. -/
theorem Recorded.asking (recorded : Recorded bytes progress) {size : UInt16}
    (boundary : Boundary bytes consumed) (asks : Asks bytes consumed size.toNat)
    : Recorded bytes (progress.asking size) where
  asked := by
    intro other member
    rcases List.mem_append.mp member with old | new
    · exact recorded.asked other old
    · rw [List.mem_singleton.mp new]
      exact ⟨consumed, boundary, asks⟩
  turns := recorded.turns

/-- A finished turn is recorded with the length that its boundary announced. -/
theorem Recorded.advanced (recorded : Recorded bytes progress) {size : UInt16}
    (boundary : Boundary bytes consumed) (asks : Asks bytes consumed size.toNat)
    (tracks : Tracks received consumed progress)
    (enough : size.toNat ≤ received.length - consumed) (around : Surroundings) (turn : Nat)
    : Recorded bytes (progress.advanced around turn size) where
  asked := (recorded.asking boundary asks).asked
  turns := by
    have available := tracks.size
    intro other member
    rw [iterations_advanced] at member
    rcases List.mem_append.mp member with old | new
    · exact recorded.turns other old
    · rw [List.mem_singleton.mp new]
      refine ⟨⟨consumed, boundary, asks⟩, ?_⟩
      change (progress.delimiter.bcb.removed size.toNat).currentSize.toNat + size.toNat
        = progress.delimiter.bcb.currentSize.toNat
      rw [currentSize_removed]
      omega

/-- A statement about the record that holds at first, is about the record alone, and survives
what a drain loop adds at a boundary: a length that is asked for, or a finished turn.
-/
structure Keeps (bytes : List UInt8) (record : Progress → Prop) : Prop where
  fresh : record fresh
  same
    : ∀ {progress next : Progress}, next.asked = progress.asked →
        next.iterations = progress.iterations → record progress → record next
  asking
    : ∀ {consumed : Nat} {progress : Progress} {size : UInt16}, Boundary bytes consumed →
        Asks bytes consumed size.toNat → record progress → record (progress.asking size)
  advanced
    : ∀ {received : List UInt8} {consumed : Nat} {progress : Progress} {size : UInt16}
        (around : Surroundings) (turn : Nat),
        Tracks received consumed progress → received <+: bytes → Boundary bytes consumed →
        Asks bytes consumed size.toNat → size.toNat ≤ received.length - consumed →
        BufFits consumed size.toNat → record progress →
          record (progress.advanced around turn size)

theorem keeps_recorded (bytes : List UInt8) : Keeps bytes (Recorded bytes) where
  fresh := recorded_fresh bytes
  same := by
    intro progress next asked iterations recorded
    constructor
    · rw [asked]
      exact recorded.asked
    · rw [iterations]
      exact recorded.turns
  asking := fun boundary asks recorded => recorded.asking boundary asks
  advanced := fun around turn tracks _ boundary asks enough _ recorded =>
    recorded.advanced boundary asks tracks enough around turn

/-- A call returned at a boundary, with less than a message left behind it. -/
def SettledWith (bytes : List UInt8) (record : Progress → Prop) (received : List UInt8)
    (progress : Progress)
    : Prop :=
  ∃ consumed stale,
    Tracks received consumed progress
    ∧ Boundary bytes consumed
    ∧ ¬ Flushable received consumed stale
    ∧ record progress

/-- A call did not return. If it was still looping, then it was not given enough fuel or
some boundary announces no bytes at all.
-/
def InterruptedWith (bytes : List UInt8) (record : Progress → Prop) (starved : Prop)
    (stopped : Stop × Progress)
    : Prop :=
  record stopped.2
  ∧ (stopped.1 = .looping → starved ∨ ∃ position, Boundary bytes position
      ∧ Asks bytes position 0)

/-- The drain loop goes from boundary to boundary, by induction on its fuel. Each turn that
asks for some bytes uses one unit of fuel and at least one live byte.
-/
theorem Keeps.processMsg {record : Progress → Prop} (keeps : Keeps bytes record)
    (tracks : Tracks received consumed progress) (begins : received <+: bytes)
    (boundary : Boundary bytes consumed) (recorded : record progress) (around : Surroundings)
    (fuel turn : Nat) (readSize : UInt16)
    : (MsgDelimiterVar.processMsg around fuel turn readSize progress).Meets
        (SettledWith bytes record received)
        (InterruptedWith bytes record (fuel ≤ received.length - consumed)) := by
  induction fuel generalizing consumed turn readSize progress with
  | zero => exact ⟨recorded, fun _ => .inl (Nat.zero_le _)⟩
  | succ fuel ih =>
      have bound := tracks.size_le
      rw [tracks.processMsg_succ]
      by_cases flushable : Flushable received consumed (highByte (around.msgSize (turn + 1)))
      · have asks := flushable.asks begins bound (highByte readSize)
        rw [← toNat_seenLength] at asks
        have whole := toNat_seenLength received consumed (highByte readSize)
        have length_le := begins.length_le
        rw [if_pos flushable]
        by_cases few : received.length - consumed
            < seenLength received consumed (highByte readSize)
        · simp only [if_pos few]
          exact ⟨keeps.asking boundary asks recorded, fun looping => by cases looping⟩
        · simp only [if_neg few]
          by_cases fits : BufFits consumed (seenLength received consumed (highByte readSize))
          · have enough := Nat.le_of_not_lt few
            rw [← whole] at enough fits
            rw [if_pos (by rw [← whole]; exact fits)]
            have next := ih (tracks.advanced around turn enough fits)
              (boundary.next asks (by omega) fits)
              (keeps.advanced around turn tracks begins boundary asks enough fits recorded)
              (turn + 1) (.ofNat (seenLength received consumed (highByte readSize)))
            refine next.imp (fun _ settled => settled) (fun stopped interrupted => ?_)
            refine ⟨interrupted.1, fun looping => ?_⟩
            rcases interrupted.2 looping with starved | zero
            · by_cases none : (UInt16.ofNat
                  (seenLength received consumed (highByte readSize))).toNat = 0
              · rw [none] at asks
                exact .inr ⟨consumed, boundary, asks⟩
              · exact .inl (by omega)
            · exact .inr zero
          · rw [if_neg fits]
            exact ⟨keeps.asking boundary asks recorded, fun looping => by cases looping⟩
      · rw [if_neg flushable]
        exact ⟨consumed, _, tracks, boundary, flushable, recorded⟩

/-- Every run stays on the boundaries of the stream. -/
theorem Keeps.feed {record : Progress → Prop} (keeps : Keeps bytes record) (fuel : Nat)
    {arrivals : List Arrival} (begins : stream arrivals <+: bytes)
    : (feed .var fuel Ethnm.fresh arrivals).Meets (SettledWith bytes record (stream arrivals))
        (InterruptedWith bytes record (fuel ≤ 10240)) := by
  refine feed_fresh_meets (fun _ => True) ?_ begins (fun _ _ => trivial)
    ⟨0, 0, tracks_fresh, .start, by decide, keeps.fresh⟩
  rintro received progress arrival within - ⟨consumed, _, tracks, boundary, _, recorded⟩
  rw [tracks.process_var]
  by_cases large : 10240 < received.length - consumed + arrival.chunk.length
  · rw [if_pos large]
    exact ⟨recorded, fun looping => by cases looping⟩
  · rw [if_neg large]
    have written := tracks.written (Nat.le_of_not_lt large)
    have same : record (progress.written arrival.chunk) := by
      refine keeps.same ?_ ?_ recorded <;> rfl
    by_cases flushable : Flushable (received ++ arrival.chunk) consumed
        (highByte (arrival.around.msgSize 0))
    · rw [if_pos flushable]
      refine (keeps.processMsg written within boundary same _ _ _ _).imp
        (fun _ settled => settled) (fun stopped interrupted => ?_)
      refine ⟨interrupted.1, fun looping => (interrupted.2 looping).imp_left ?_⟩
      exact fun starved => starved.trans written.size_le
    · rw [if_neg flushable]
      exact ⟨consumed, _, written, boundary, flushable, same⟩

/-- However a run ends, what is kept holds of its record. -/
theorem Keeps.feed_progress {record : Progress → Prop} (keeps : Keeps bytes record)
    {fuel : Nat} {arrivals : List Arrival} (begins : stream arrivals <+: bytes)
    : record (Ethnm.feed .var fuel Ethnm.fresh arrivals).progress := by
  have settled := keeps.feed fuel begins
  cases result : Ethnm.feed .var fuel Ethnm.fresh arrivals with
  | ok progress =>
      obtain ⟨_, _, _, _, _, recorded⟩ := settled.of_ok result
      exact recorded
  | error stopped =>
      rw [result] at settled
      exact settled.1

/-- A call returned, with less than a message left behind the boundary it stopped at. -/
def Settled (bytes received : List UInt8) (progress : Progress) : Prop :=
  ∃ consumed stale,
    Tracks received consumed progress
    ∧ Boundary bytes consumed
    ∧ ¬ Flushable received consumed stale
    ∧ Recorded bytes progress

/-- A call did not return. If it was still looping, then it was not given enough fuel or
some boundary announces no bytes at all.
-/
def Interrupted (bytes : List UInt8) (starved : Prop) (stopped : Stop × Progress) : Prop :=
  Recorded bytes stopped.2
  ∧ (stopped.1 = .looping → starved ∨ ∃ position, Boundary bytes position
      ∧ Asks bytes position 0)

/-- Every run stays on the boundaries of the stream, and so does its record. -/
theorem feed_settled (fuel : Nat) {arrivals : List Arrival}
    (begins : stream arrivals <+: bytes)
    : (feed .var fuel fresh arrivals).Meets (Settled bytes (stream arrivals))
        (Interrupted bytes (fuel ≤ 10240)) :=
  (keeps_recorded bytes).feed fuel begins

/-- However a run ends, its record belongs to the boundaries of the stream. -/
theorem feed_recorded {fuel : Nat} {arrivals : List Arrival}
    (begins : stream arrivals <+: bytes)
    : Recorded bytes (feed .var fuel fresh arrivals).progress :=
  (keeps_recorded bytes).feed_progress begins

end Recording

end Ethnm
