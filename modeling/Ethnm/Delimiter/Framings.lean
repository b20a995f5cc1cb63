import Ethnm.Delimiter.Feeding
import Ethnm.Delimiter.Headers

/-! Both framings in one form: what their drain loops take from the ring in one turn, when
they stop, and what a call of `Process` does before it drains.
-/

namespace Ethnm
open ByteCircularBuffer

namespace Framing

/-- The drain loop of a framing; the fixed-size one does not use `readSize`. -/
def loop (around : Surroundings) (fuel turn : Nat) (readSize : UInt16) (progress : Progress)
    : Framing → Outcome
  | .var => MsgDelimiterVar.processMsg around fuel turn readSize progress
  | .fixed fixedSize => MsgDelimiterFixed.drain around fixedSize fuel turn progress

/-- The ring holds enough for the drain loop to take a message. -/
def Ready (received : List UInt8) (consumed : Nat) (stale : UInt8) : Framing → Prop
  | .var => Flushable received consumed stale
  | .fixed fixedSize => fixedSize.toNat ≤ received.length - consumed

instance (framing : Framing) (received : List UInt8) (consumed : Nat) (stale : UInt8)
    : Decidable (framing.Ready received consumed stale) :=
  match framing with
  | .var => inferInstanceAs (Decidable (Flushable received consumed stale))
  | .fixed _ => inferInstanceAs (Decidable (_ ≤ _))

/-- The length of the message that the drain loop asks for. -/
def announced (received : List UInt8) (consumed : Nat) (stale : UInt8) : Framing → Nat
  | .var => seenLength received consumed stale
  | .fixed fixedSize => fixedSize.toNat

end Framing

/-- A drain loop only adds to the record. -/
theorem extends_loop (framing : Framing) (around : Surroundings) (fuel turn : Nat)
    (readSize : UInt16) (progress : Progress)
    : progress.Extends (framing.loop around fuel turn readSize progress).progress := by
  cases framing with
  | var => exact extends_processMsg_var around fuel turn readSize progress
  | fixed fixedSize => exact extends_drain around fixedSize fuel turn progress

section Turns

variable {received : List UInt8} {consumed : Nat} {progress : Progress} {framing : Framing}

/-- The fixed-size `IsFlushable` asks for one whole message. -/
theorem Tracks.isFlushable_fixed (tracks : Tracks received consumed progress)
    {fixedSize : UInt16} (positive : 0 < fixedSize.toNat)
    : MsgDelimiterFixed.isFlushable progress.delimiter.bcb fixedSize
      = .ok (decide (fixedSize.toNat ≤ received.length - consumed)) := by
  have nonzero : ¬ fixedSize = 0 := by
    rintro rfl
    exact Nat.lt_irrefl 0 positive
  rw [MsgDelimiterFixed.isFlushable, if_neg nonzero]
  congr 2
  rw [eq_iff_iff, gt_iff_lt, UInt16.lt_iff_toNat_lt, UInt16.toNat_div, tracks.size]
  exact Nat.div_pos_iff.trans ⟨fun both => both.2, fun le => ⟨positive, le⟩⟩

/-- A drain loop that has too little for a message returns; nothing was taken or delivered.
-/
theorem Tracks.loop_done (tracks : Tracks received consumed progress) (around : Surroundings)
    (fuel turn : Nat) (readSize : UInt16)
    (rest : ¬ framing.Ready received consumed (highByte (around.msgSize (turn + 1))))
    : ∃ next, framing.loop around (fuel + 1) turn readSize progress = .ok next
      ∧ next.delimiter = progress.delimiter
      ∧ next.iterations = progress.iterations := by
  cases framing with
  | var =>
      change ¬ Flushable _ _ _ at rest
      refine ⟨progress, ?_, rfl, rfl⟩
      rw [Framing.loop, tracks.processMsg_succ, if_neg rest]
  | fixed fixedSize =>
      refine ⟨progress.asking fixedSize, ?_, rfl, rfl⟩
      rw [Framing.loop, MsgDelimiterFixed.drain,
        tracks.readMessage_short (Nat.lt_of_not_le rest)]
      rfl

/-- A drain loop that has a whole message delivers it and goes on behind it. -/
theorem Tracks.loop_turn (tracks : Tracks received consumed progress) (around : Surroundings)
    (fuel turn : Nat) (readSize : UInt16)
    (ready : framing.Ready received consumed (highByte (around.msgSize (turn + 1))))
    {length : Nat} (length_eq : framing.announced received consumed (highByte readSize) = length)
    (positive : 0 < length) (enough : length ≤ received.length - consumed)
    (fits : BufFits consumed length)
    : ∃ size : UInt16, size.toNat = length
      ∧ framing.loop around (fuel + 1) turn readSize progress
        = framing.loop around fuel (turn + 1) size (progress.advanced around turn size) := by
  subst length_eq
  cases framing with
  | var =>
      change Flushable _ _ _ at ready
      refine ⟨_, toNat_seenLength _ _ _, ?_⟩
      rw [Framing.loop, tracks.processMsg_succ, if_pos ready]
      simp only [Framing.announced] at enough fits
      rw [if_neg (Nat.not_lt.mpr enough), if_pos fits]
      rfl
  | fixed fixedSize =>
      refine ⟨fixedSize, rfl, ?_⟩
      have nonzero : ¬ fixedSize = 0 := by
        rintro rfl
        exact Nat.lt_irrefl 0 positive
      rw [Framing.loop, MsgDelimiterFixed.drain, tracks.readMessage_served ready fits]
      simp only [bind, Except.bind, if_neg nonzero]
      rfl

/-- The length that a framing needs to be of any use. -/
def Framing.Valid : Framing → Prop
  | .var => True
  | .fixed fixedSize => 0 < fixedSize.toNat

/-- A call whose chunk fits writes it and drains the ring if a message is ready. -/
theorem Tracks.process_eq (tracks : Tracks received consumed progress) (valid : framing.Valid)
    (fuel : Nat) {arrival : Arrival}
    (fits : received.length - consumed + arrival.chunk.length ≤ 10240)
    : process framing fuel arrival.around progress arrival.chunk (.ofNat arrival.chunk.length)
      = if framing.Ready (received ++ arrival.chunk) consumed
            (highByte (arrival.around.msgSize 0)) then
          framing.loop arrival.around fuel 0 arrival.around.readSize
            (progress.written arrival.chunk)
        else
          .ok (progress.written arrival.chunk) := by
  cases framing with
  | var =>
      rw [tracks.process_var, if_neg (Nat.not_lt.mpr fits)]
      rfl
  | fixed fixedSize =>
      have flushed := (tracks.written fits).isFlushable_fixed valid
      rw [tracks.process_fits _ fuel fits]
      simp only [Framing.isFlushable, Framing.processMsg, MsgDelimiterFixed.processMsg, flushed,
        attempt, bind, Except.bind]
      by_cases ready : fixedSize.toNat ≤ (received ++ arrival.chunk).length - consumed
      · rw [if_pos (show Framing.Ready _ _ _ (.fixed fixedSize) from ready),
          decide_eq_true ready]
        rfl
      · rw [if_neg (show ¬ Framing.Ready _ _ _ (.fixed fixedSize) from ready),
          decide_eq_false ready]
        rfl

end Turns

end Ethnm
