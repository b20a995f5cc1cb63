import Ethnm.Delimiter.Framings
import Ethnm.Delimiter.Reachability

/-! The fixed sizes with which a delimiter is safe. The constructor takes any size; a zero
divides, a size above the message buffer overruns it, and one above the ring fills it.
-/

namespace Ethnm
open ByteCircularBuffer

/-- On every sequence of chunks no test divides by zero, the assertion around the write does
not fail, and no read asks for more than the message buffer holds.
-/
def SafeFor (fixedSize : UInt16) : Prop :=
  ∀ (fuel : Nat) (arrivals : List Arrival),
    (∀ progress,
        feed (.fixed fixedSize) fuel fresh arrivals ≠ .error (.aborted .divisionByZero, progress))
    ∧ (∀ progress,
        feed (.fixed fixedSize) fuel fresh arrivals ≠ .error (.aborted .assertionFailed, progress))
    ∧ ∀ size ∈ (feed (.fixed fixedSize) fuel fresh arrivals).progress.asked,
        size.toNat ≤ kBufferSize

-----------------------------------------------------------------------------------------
-- Sizes from one up to the message buffer
-----------------------------------------------------------------------------------------

/-- No read has asked for more than the message buffer holds. -/
def Modest (progress : Progress) : Prop :=
  ∀ size ∈ progress.asked, size.toNat ≤ kBufferSize

/-- A call returned with less than a message left in the ring, behind whole messages. -/
def Residual (fixedSize : UInt16) (received : List UInt8) (progress : Progress) : Prop :=
  (∃ consumed, Tracks received consumed progress
    ∧ fixedSize.toNat ∣ consumed
    ∧ received.length - consumed < fixedSize.toNat)
  ∧ Modest progress

/-- A call did not return, since it had too little fuel. -/
def Starved (starved : Prop) (stopped : Stop × Progress) : Prop :=
  stopped.1 = .looping ∧ starved ∧ Modest stopped.2

section Residues

variable {received : List UInt8} {consumed : Nat} {progress : Progress} {fixedSize : UInt16}

/-- One turn of the fixed-size drain loop, when a whole message fits the message buffer. -/
theorem Tracks.drain_succ (tracks : Tracks received consumed progress)
    (positive : 0 < fixedSize.toNat) (fits : BufFits consumed fixedSize.toNat)
    (around : Surroundings) (fuel turn : Nat)
    : MsgDelimiterFixed.drain around fixedSize (fuel + 1) turn progress
      = if fixedSize.toNat ≤ received.length - consumed then
          MsgDelimiterFixed.drain around fixedSize fuel (turn + 1)
            (progress.advanced around turn fixedSize)
        else
          .ok (progress.asking fixedSize) := by
  have nonzero : ¬ fixedSize = 0 := by
    rintro rfl
    exact Nat.lt_irrefl 0 positive
  rw [MsgDelimiterFixed.drain]
  by_cases enough : fixedSize.toNat ≤ received.length - consumed
  · rw [if_pos enough, tracks.readMessage_served enough fits]
    simp only [bind, Except.bind, if_neg nonzero]
    rfl
  · rw [if_neg enough, tracks.readMessage_short (Nat.lt_of_not_le enough)]
    rfl

theorem Modest.asking (modest : Modest progress) (small : fixedSize.toNat ≤ kBufferSize)
    : Modest (progress.asking fixedSize) := by
  intro size member
  rcases List.mem_append.mp member with old | new
  · exact modest size old
  · rw [List.mem_singleton.mp new]
    exact small

/-- The drain loop takes whole messages until less than one is left, by induction on its
fuel: each turn uses one unit of fuel and at least one live byte.
-/
theorem Tracks.drain_residual (tracks : Tracks received consumed progress)
    (positive : 0 < fixedSize.toNat) (small : fixedSize.toNat ≤ kBufferSize)
    (whole : fixedSize.toNat ∣ consumed) (modest : Modest progress) (around : Surroundings)
    (fuel turn : Nat)
    : (MsgDelimiterFixed.drain around fixedSize fuel turn progress).Meets
        (Residual fixedSize received) (Starved (fuel ≤ received.length - consumed)) := by
  induction fuel generalizing consumed turn progress with
  | zero => exact ⟨rfl, Nat.zero_le _, modest⟩
  | succ fuel ih =>
      have fits : BufFits consumed fixedSize.toNat := copyFits_of_le small
      rw [tracks.drain_succ positive fits]
      by_cases enough : fixedSize.toNat ≤ received.length - consumed
      · rw [if_pos enough]
        have next := ih (tracks.advanced around turn enough fits)
          (Nat.dvd_add whole (Nat.dvd_refl _)) (modest.asking small) (turn + 1)
        refine next.imp (fun _ residual => residual) ?_
        rintro stopped ⟨looping, starved, modest⟩
        exact ⟨looping, by omega, modest⟩
      · rw [if_neg enough]
        exact ⟨⟨consumed, tracks.congr rfl, whole, Nat.lt_of_not_le enough⟩, modest.asking small⟩

/-- Every run leaves a residue, or has too little fuel for a drain loop. -/
theorem feed_residual (positive : 0 < fixedSize.toNat) (small : fixedSize.toNat ≤ kBufferSize)
    (fuel : Nat) (arrivals : List Arrival)
    : (feed (.fixed fixedSize) fuel fresh arrivals).Meets
        (Residual fixedSize (stream arrivals)) (Starved (fuel ≤ 10240)) := by
  have start : Residual fixedSize [] fresh :=
    ⟨⟨0, tracks_fresh, Nat.dvd_zero _, positive⟩, fun _ member => by cases member⟩
  refine feed_fresh_meets (fun _ => True) ?_ List.prefix_rfl (fun _ _ => trivial) start
  rintro received progress arrival - - ⟨⟨consumed, tracks, whole, rest⟩, modest⟩
  have sized := arrival.sized
  have fits : received.length - consumed + arrival.chunk.length ≤ 10240 := by
    unfold kBufferSize at sized small
    omega
  have valid : (Framing.fixed fixedSize).Valid := positive
  have written := tracks.written fits
  rw [tracks.process_eq valid fuel fits]
  split
  · refine (written.drain_residual positive small whole modest _ _ _).imp
      (fun _ residual => residual) ?_
    rintro stopped ⟨looping, starved, modest⟩
    exact ⟨looping, starved.trans written.size_le, modest⟩
  · rename_i short
    exact ⟨⟨consumed, written, whole, Nat.lt_of_not_le short⟩, modest⟩

/-- A residue is what the total leaves when it is divided by the size. -/
theorem Residual.size (residual : Residual fixedSize received progress)
    : progress.delimiter.bcb.currentSize.toNat = received.length % fixedSize.toNat := by
  obtain ⟨⟨consumed, tracks, ⟨count, rfl⟩, rest⟩, -⟩ := residual
  have before := tracks.consumed_le
  rw [tracks.size, ← Nat.mod_eq_of_lt rest, Nat.sub_mul_mod before]

theorem safeFor_of_le (positive : 0 < fixedSize.toNat) (small : fixedSize.toNat ≤ kBufferSize)
    : SafeFor fixedSize := by
  intro fuel arrivals
  have meets := feed_residual positive small fuel arrivals
  cases result : feed (.fixed fixedSize) fuel fresh arrivals with
  | ok progress => exact ⟨nofun, nofun, (meets.of_ok result).2⟩
  | error stopped =>
      rw [result] at meets
      obtain ⟨stop, progress⟩ := stopped
      obtain ⟨looping, -, modest⟩ := meets
      cases looping
      exact ⟨nofun, nofun, modest⟩

-----------------------------------------------------------------------------------------
-- Other sizes
-----------------------------------------------------------------------------------------

/-- One zero byte arrives. -/
def Arrival.zero : Arrival :=
  .single 0 (.holding 0 0)

theorem length_stream_zeros (count : Nat)
    : (stream (List.replicate count Arrival.zero)).length = count := by
  induction count with
  | zero => rfl
  | succ count ih =>
      rw [List.replicate_succ, stream, List.flatMap_cons, List.length_append]
      rw [stream] at ih
      rw [ih]
      exact Nat.add_comm _ _

/-- Bytes that make no whole message stay in the ring. -/
theorem feed_zeros (positive : 0 < fixedSize.toNat) (fuel : Nat) {count : Nat}
    (few : count < fixedSize.toNat) (room : count ≤ 10240)
    : ∃ progress, feed (.fixed fixedSize) fuel fresh (List.replicate count .zero) = .ok progress
      ∧ Tracks (stream (List.replicate count Arrival.zero)) 0 progress := by
  have valid : (Framing.fixed fixedSize).Valid := positive
  have total := length_stream_zeros count
  have call (received : List UInt8) (progress : Progress) (arrival : Arrival)
      (begins : received ++ arrival.chunk <+: stream (List.replicate count Arrival.zero))
      (_ : True) (tracks : Tracks received 0 progress)
      : (process (.fixed fixedSize) fuel arrival.around progress arrival.chunk
          (.ofNat arrival.chunk.length)).Meets (Tracks (received ++ arrival.chunk) 0)
          (fun _ => False) := by
    have within := begins.length_le
    rw [total, List.length_append] at within
    rw [tracks.process_eq valid fuel (by omega), if_neg]
    · exact tracks.written (by omega)
    · intro ready
      change fixedSize.toNat ≤ _ at ready
      rw [List.length_append] at ready
      omega
  have meets := feed_fresh_meets (fun _ => True) call List.prefix_rfl (fun _ _ => trivial)
    tracks_fresh
  cases result : feed (.fixed fixedSize) fuel fresh (List.replicate count .zero) with
  | error stopped =>
      rw [result] at meets
      exact meets.elim
  | ok progress => exact ⟨progress, rfl, meets.of_ok result⟩

/-- A zero size divides at the first chunk. -/
theorem not_safeFor_zero : ¬ SafeFor 0 := by
  intro safe
  have first : feed (.fixed 0) 0 fresh [.zero]
      = process (.fixed 0) 0 (.holding 0 0) fresh Arrival.zero.chunk
          (.ofNat Arrival.zero.chunk.length) :=
    feed_concat (rfl : feed (.fixed 0) 0 fresh [] = .ok fresh) .zero
  refine (safe 0 [.zero]).1 (fresh.written Arrival.zero.chunk) ?_
  rw [first, show Surroundings.holding 0 0 = Arrival.zero.around from rfl,
    tracks_fresh.process_fits _ _ (by decide)]
  rfl

/-- The fixed-size drain loop asks for a message at once. -/
theorem mem_asked_drain (around : Surroundings) (fixedSize : UInt16) (fuel turn : Nat)
    (progress : Progress)
    : fixedSize
      ∈ (MsgDelimiterFixed.drain around fixedSize (fuel + 1) turn progress).progress.asked := by
  have asked : fixedSize ∈ progress.asked ++ [fixedSize] := List.mem_append_right _ (.head _)
  rw [MsgDelimiterFixed.drain, readMessage]
  cases bcbRead progress.delimiter.bcb progress.delimiter.buf fixedSize true with
  | error fault => exact asked
  | ok result =>
      simp only [attempt, bind, Except.bind, pure, Except.pure]
      split
      · exact asked
      · exact (extends_drain _ _ _ _ _).asked.subset asked

/-- A size above the message buffer, but not above the ring, is asked for. -/
theorem not_safeFor_of_le (large : kBufferSize < fixedSize.toNat)
    (within : fixedSize.toNat ≤ 10240)
    : ¬ SafeFor fixedSize := by
  intro safe
  have positive : 0 < fixedSize.toNat := Nat.zero_lt_of_lt large
  have valid : (Framing.fixed fixedSize).Valid := positive
  obtain ⟨progress, returned, tracks⟩ :=
    feed_zeros positive 1 (Nat.sub_one_lt (Nat.ne_of_gt positive)) (by omega)
  have asked := (safe 1 (List.replicate (fixedSize.toNat - 1) .zero ++ [.zero])).2.2
  have total := length_stream_zeros (fixedSize.toNat - 1)
  have single : Arrival.zero.chunk.length = 1 := rfl
  have ready : Framing.Ready
      (stream (List.replicate (fixedSize.toNat - 1) .zero) ++ Arrival.zero.chunk) 0
      (highByte (Arrival.zero.around.msgSize 0)) (.fixed fixedSize) := by
    change fixedSize.toNat ≤ _
    rw [List.length_append, total, single]
    omega
  rw [feed_concat returned, tracks.process_eq valid 1 (by rw [total, single]; omega),
    if_pos ready] at asked
  exact absurd (asked _ (mem_asked_drain _ _ 0 0 _)) (Nat.not_le.mpr large)

/-- A size above the ring is never complete, and the ring fills up. -/
theorem not_safeFor_of_lt (large : 10240 < fixedSize.toNat) : ¬ SafeFor fixedSize := by
  intro safe
  obtain ⟨progress, returned, tracks⟩ := feed_zeros (by omega) 0 large (Nat.le_refl _)
  have total := length_stream_zeros 10240
  refine (safe 0 (List.replicate 10240 .zero ++ [.zero])).2.1 progress ?_
  rw [feed_concat returned, tracks.process_refused]
  rw [total]
  decide

end Residues

/-- A delimiter is safe exactly for the sizes from one to the message buffer's. For these
every call returns, and the ring then holds what the total leaves.
-/
theorem safeFor_iff (fixedSize : UInt16)
    : (SafeFor fixedSize ↔ 1 ≤ fixedSize.toNat ∧ fixedSize.toNat ≤ kBufferSize)
      ∧ (1 ≤ fixedSize.toNat ∧ fixedSize.toNat ≤ kBufferSize →
          ∃ enough, ∀ fuel arrivals, enough ≤ fuel →
            ∃ progress, feed (.fixed fixedSize) fuel fresh arrivals = .ok progress
              ∧ progress.delimiter.bcb.currentSize.toNat
                = (stream arrivals).length % fixedSize.toNat) := by
  constructor
  · constructor
    · intro safe
      by_contra outside
      have large : fixedSize.toNat = 0 ∨ kBufferSize < fixedSize.toNat := by omega
      rcases large with zero | large
      · rw [show fixedSize = 0 from UInt16.toNat_inj.mp zero] at safe
        exact not_safeFor_zero safe
      · rcases Nat.lt_or_ge 10240 fixedSize.toNat with above | within
        · exact not_safeFor_of_lt above safe
        · exact not_safeFor_of_le large within safe
    · exact fun both => safeFor_of_le both.1 both.2
  · rintro ⟨positive, small⟩
    refine ⟨10241, fun fuel arrivals enough => ?_⟩
    have meets := feed_residual positive small fuel arrivals
    cases result : feed (.fixed fixedSize) fuel fresh arrivals with
    | error stopped =>
        rw [result] at meets
        have starved := meets.2.1
        omega
    | ok progress => exact ⟨progress, rfl, (meets.of_ok result).size⟩

/-- The largest safe size. -/
theorem safeFor_kBufferSize
    : SafeFor 1024
      ∧ ∃ enough, ∀ fuel arrivals, enough ≤ fuel →
          ∃ progress, feed (.fixed 1024) fuel fresh arrivals = .ok progress
            ∧ progress.delimiter.bcb.currentSize.toNat = (stream arrivals).length % 1024 :=
  ⟨(safeFor_iff 1024).1.mpr (by decide), (safeFor_iff 1024).2 (by decide)⟩

end Ethnm
