import Ethnm.Ring.Operations

/-! The rings that calls can make of a new one, and what one more call does to any of them:
a write appends its whole block or nothing, and a peek predicts the read.
-/

namespace Ethnm
open ByteCircularBuffer CircularWindow

/-- The rings that calls which return have made of a new ring of the given capacity. -/
inductive ByteCircularBuffer.Reachable (capacity : UInt16) : ByteCircularBuffer → Prop
  | create : Reachable capacity (bcbCreateNew capacity)
  | write {bcb after : ByteCircularBuffer} {data : List UInt8} {dataSize result : UInt16}
      (reachable : Reachable capacity bcb)
      (written : bcbWrite bcb data dataSize = .ok (after, result))
      : Reachable capacity after
  | read {bcb after : ByteCircularBuffer} {buffer filled : List UInt8}
      {dataSize result : UInt16} {removeReadBytes : Bool} (reachable : Reachable capacity bcb)
      (taken : bcbRead bcb buffer dataSize removeReadBytes = .ok (after, filled, result))
      : Reachable capacity after
  | reset {bcb : ByteCircularBuffer} (reachable : Reachable capacity bcb)
      : Reachable capacity (bcbReset bcb)

-----------------------------------------------------------------------------------------
-- Calls outside their data
-----------------------------------------------------------------------------------------

/-- A copy past the end of its source is undefined. -/
theorem memcpy_overread {dest src : List UInt8} {destOffset srcOffset count : Nat}
    (beyond : src.length < srcOffset + count)
    : memcpy dest destOffset src srcOffset count = .error .outOfRange := by
  rw [memcpy, if_neg (by omega)]

namespace ByteCircularBuffer

section Calls

variable {bcb : ByteCircularBuffer}

/-- A write that fits, but has less data than it says, is undefined.
Witness: in the two-piece branch whichever copy runs out of data fails.
-/
theorem WellFormed.bcbWrite_overread (wf : bcb.WellFormed) {data : List UInt8}
    {dataSize : UInt16} (short : data.length < dataSize.toNat)
    (fits : bcb.currentSize.toNat + dataSize.toNat ≤ bcb.bufferSize.toNat)
    : bcbWrite bcb data dataSize = .error .outOfRange := by
  have below := wf.front_lt
  have available := wf.available
  have vacant : ¬ bcbIsFull bcb := by
    intro full
    have same : bcb.currentSize = bcb.bufferSize := by simpa [bcbIsFull] using full
    rw [same] at fits
    omega
  rw [bcbWrite, if_neg vacant, if_neg (by rw [UInt16.lt_iff_toNat_lt]; omega)]
  split
  · rw [memcpy_overread (by omega)]
    rfl
  have lead : (bcb.bufferSize - bcb.front).toNat = bcb.bufferSize.toNat - bcb.front.toNat :=
    UInt16.toNat_sub_of_le _ _ (UInt16.le_iff_toNat_le.mpr below.le)
  change (if _ ≤ bcb.bufferSize - bcb.front then _ else _) = _
  split
  · rw [memcpy_overread (by omega)]
    rfl
  · rename_i long
    rw [UInt16.le_iff_toNat_le] at long
    cases first : memcpy bcb.buffer bcb.front.toNat data 0 (bcb.bufferSize - bcb.front).toNat with
    | error fault =>
        rw [memcpy] at first
        split at first
        · cases first
        · cases first
          rfl
    | ok buffer =>
        simp only [bind, Except.bind]
        rw [memcpy_overread (by omega)]

/-- A write that returns has refused its data, or appended what it was told to. -/
theorem WellFormed.bcbWrite_returns (wf : bcb.WellFormed) {data : List UInt8}
    {dataSize result : UInt16} {after : ByteCircularBuffer}
    (written : bcbWrite bcb data dataSize = .ok (after, result))
    : after = bcb
      ∨ bcb.currentSize.toNat + (data.take dataSize.toNat).length ≤ bcb.bufferSize.toNat
        ∧ after = bcb.appended (data.take dataSize.toNat) := by
  rcases Nat.lt_or_ge bcb.bufferSize.toNat (bcb.currentSize.toNat + dataSize.toNat)
    with large | fits
  · rw [wf.bcbWrite_refused large] at written
    cases written
    exact .inl rfl
  · rcases Nat.lt_or_ge data.length dataSize.toNat with short | available
    · rw [wf.bcbWrite_overread short fits] at written
      cases written
    · rw [wf.bcbWrite_accepted available fits] at written
      cases written
      refine .inr ⟨?_, rfl⟩
      rw [List.length_take]
      omega

/-- A read that returns has left the ring alone, or removed live bytes. -/
theorem WellFormed.bcbRead_returns (wf : bcb.WellFormed) {buffer filled : List UInt8}
    {dataSize result : UInt16} {removeReadBytes : Bool} {after : ByteCircularBuffer}
    (taken : bcbRead bcb buffer dataSize removeReadBytes = .ok (after, filled, result))
    : after = bcb
      ∨ dataSize.toNat ≤ bcb.currentSize.toNat ∧ after = bcb.removed dataSize.toNat := by
  rcases Nat.lt_or_ge bcb.currentSize.toNat dataSize.toNat with few | enough
  · rw [bcbRead_short few] at taken
    cases taken
    exact .inl rfl
  · by_cases fits : CopyFits bcb.leading dataSize.toNat buffer.length
    · rw [wf.bcbRead_served removeReadBytes enough fits] at taken
      cases removeReadBytes with
      | false =>
          cases taken
          exact .inl rfl
      | true =>
          cases taken
          exact .inr ⟨enough, rfl⟩
    · rw [wf.bcbRead_overrun removeReadBytes enough fits] at taken
      cases taken

/-- Every reachable ring is well formed and keeps its capacity, by induction on the calls. -/
theorem Reachable.wellFormed {capacity : UInt16} (reachable : Reachable capacity bcb)
    (positive : 0 < capacity)
    : bcb.WellFormed ∧ bcb.bufferSize = capacity := by
  induction reachable with
  | create => exact ⟨wellFormed_bcbCreateNew positive, rfl⟩
  | write _ written ih =>
      obtain ⟨wf, kept⟩ := ih
      rcases wf.bcbWrite_returns written with rfl | ⟨fits, rfl⟩
      · exact ⟨wf, kept⟩
      · exact ⟨wf.append fits, kept⟩
  | read _ taken ih =>
      obtain ⟨wf, kept⟩ := ih
      rcases wf.bcbRead_returns taken with rfl | ⟨enough, rfl⟩
      · exact ⟨wf, kept⟩
      · exact ⟨wf.remove enough, kept⟩
  | reset _ ih => exact ⟨ih.1.reset, ih.2⟩

/-- The live bytes lie one behind the other from `rear` on, modulo the capacity. -/
theorem WellFormed.getElem?_live (wf : bcb.WellFormed) {index : Nat}
    (within : index < bcb.currentSize.toNat)
    : bcb.live[index]? = bcb.buffer[(bcb.rear.toNat + index) % bcb.bufferSize.toNat]? := by
  rw [live, getElem?_window_mod _ within (by rw [wf.storage]; exact wf.current_le), wf.storage]

/-- Appending two blocks is appending them as one: both write the same cells. -/
theorem WellFormed.appended_append (wf : bcb.WellFormed) {first second : List UInt8}
    (fits : bcb.currentSize.toNat + (first.length + second.length) ≤ bcb.bufferSize.toNat)
    : (bcb.appended first).appended second = bcb.appended (first ++ second) := by
  have stored
      : store (store bcb.buffer bcb.front.toNat first)
          ((bcb.front.toNat + first.length) % bcb.buffer.length) second
        = store bcb.buffer bcb.front.toNat (first ++ second) :=
    store_store (by rw [wf.storage]; exact wf.front_lt) (by rw [wf.storage]; omega)
  have front := wf.front_appended first
  have size : (bcb.appended first).currentSize.toNat = _ := currentSize_appended (by omega)
  rw [wf.storage] at stored
  rw [appended, front, size]
  simp only [appended, stored, List.length_append, Nat.mod_add_mod, Nat.add_assoc]

end Calls

end ByteCircularBuffer

-----------------------------------------------------------------------------------------
-- One more call on a reachable ring
-----------------------------------------------------------------------------------------

/-- A ring of four cells whose three live bytes pass the physical end. -/
def wrappedRing : ByteCircularBuffer :=
  { buffer := [5, 6, 3, 4], bufferSize := 4, front := 2, rear := 3, currentSize := 3 }

/-- Three bytes are written and read before the three live ones are written. -/
theorem reachable_wrappedRing : wrappedRing.Reachable 4 := by
  have first : bcbWrite (bcbCreateNew 4) [1, 2, 3] 3 = .ok (⟨[1, 2, 3, 0], 4, 3, 0, 3⟩, 3) := rfl
  have second : bcbRead ⟨[1, 2, 3, 0], 4, 3, 0, 3⟩ [0, 0, 0] 3 true
      = .ok (⟨[1, 2, 3, 0], 4, 3, 3, 0⟩, [1, 2, 3], 3) := rfl
  have third : bcbWrite ⟨[1, 2, 3, 0], 4, 3, 3, 0⟩ [4, 5, 6] 3 = .ok (wrappedRing, 3) := rfl
  exact .write (.read (.write .create first) second) third

/-- On every reachable ring a write appends its whole block behind the live bytes, or changes
nothing; and two writes that both fit leave what a single one leaves.
-/
theorem bcbWrite_allOrNothing {capacity : UInt16} {bcb : ByteCircularBuffer}
    (positive : 0 < capacity) (reachable : bcb.Reachable capacity)
    : (bcb.live.length = bcb.currentSize.toNat
        ∧ ∀ index < bcb.currentSize.toNat,
            bcb.live[index]? = bcb.buffer[(bcb.rear.toNat + index) % capacity.toNat]?)
      ∧ (∀ data : List UInt8, data.length < UInt16.size →
          if data.length ≤ capacity.toNat - bcb.live.length then
            ∃ after,
              bcbWrite bcb data (.ofNat data.length) = .ok (after, .ofNat data.length)
              ∧ after.live = bcb.live ++ data
              ∧ after.rear = bcb.rear
          else
            bcbWrite bcb data (.ofNat data.length) = .ok (bcb, 0))
      ∧ ∀ first second : List UInt8,
          first.length + second.length ≤ capacity.toNat - bcb.live.length →
            ∃ between after,
              bcbWrite bcb first (.ofNat first.length) = .ok (between, .ofNat first.length)
              ∧ bcbWrite between second (.ofNat second.length)
                = .ok (after, .ofNat second.length)
              ∧ bcbWrite bcb (first ++ second) (.ofNat (first ++ second).length)
                = .ok (after, .ofNat (first ++ second).length) := by
  obtain ⟨wf, rfl⟩ := reachable.wellFormed positive
  have bound := wf.current_le
  have capacity_lt := bcb.bufferSize.toNat_lt
  rw [wf.length_live]
  refine ⟨⟨rfl, fun index => wf.getElem?_live⟩, ?_, ?_⟩
  · intro data sized
    split
    · rename_i fits
      refine ⟨_, wf.bcbWrite_whole (by omega), wf.live_appended (by omega), rfl⟩
    · rename_i large
      refine wf.bcbWrite_refused ?_
      rw [UInt16.toNat_ofNat', Nat.mod_eq_of_lt sized]
      omega
  · intro first second fits
    have room : bcb.currentSize.toNat + first.length ≤ bcb.bufferSize.toNat := by omega
    refine ⟨_, _, wf.bcbWrite_whole room, (wf.append room).bcbWrite_whole ?_, ?_⟩
    · rw [currentSize_appended room, Nat.add_assoc]
      change _ ≤ bcb.bufferSize.toNat
      omega
    · rw [wf.appended_append (by omega)]
      refine wf.bcbWrite_whole ?_
      rw [List.length_append]
      omega

/-- One byte still fits between the ends of the live bytes. -/
theorem bcbWrite_allOrNothing_wrapped
    : ∃ after, bcbWrite wrappedRing [7] 1 = .ok (after, 1)
        ∧ after.live = [4, 5, 6] ++ [7]
        ∧ after.rear = 3 := by
  have whole := (bcbWrite_allOrNothing (by decide) reachable_wrappedRing).2.1 [7] (by decide)
  rw [if_pos (by decide)] at whole
  exact whole

/-- What a read does to a reachable ring is exact, and a peek predicts it: both modes refuse
the same reads and fill the caller's buffer in the same way.
-/
theorem bcbRead_predicted {capacity : UInt16} {bcb : ByteCircularBuffer}
    (positive : 0 < capacity) (reachable : bcb.Reachable capacity) (buffer : List UInt8)
    (dataSize : UInt16)
    : (bcb.live.length < dataSize.toNat →
        ∀ removeReadBytes,
          bcbRead bcb buffer dataSize removeReadBytes = .ok (bcb, buffer, 0))
      ∧ (dataSize.toNat ≤ bcb.live.length →
          (buffer.length < dataSize.toNat
            ∧ ∀ removeReadBytes,
                bcbRead bcb buffer dataSize removeReadBytes = .error .outOfRange)
          ∨ ∃ after filled,
              bcbRead bcb buffer dataSize false = .ok (bcb, filled, dataSize)
              ∧ bcbRead bcb buffer dataSize true = .ok (after, filled, dataSize)
              ∧ after.buffer = bcb.buffer
              ∧ after.bufferSize = bcb.bufferSize
              ∧ after.front = bcb.front
              ∧ after.live = bcb.live.drop dataSize.toNat) := by
  obtain ⟨wf, rfl⟩ := reachable.wellFormed positive
  rw [wf.length_live]
  constructor
  · intro few removeReadBytes
    exact bcbRead_short few
  · intro enough
    by_cases fits : CopyFits bcb.leading dataSize.toNat buffer.length
    · refine .inr ⟨_, _, wf.bcbRead_served false enough fits, wf.bcbRead_served true enough fits,
        rfl, rfl, rfl, wf.live_removed enough⟩
    · refine .inl ⟨?_, fun removeReadBytes => wf.bcbRead_overrun removeReadBytes enough fits⟩
      by_contra room
      exact fits (copyFits_of_le (Nat.le_of_not_lt room))

/-- A read of two bytes across the physical end, and the peek before it. -/
theorem bcbRead_predicted_wrapped
    : ∃ after filled,
        bcbRead wrappedRing [0, 0] 2 false = .ok (wrappedRing, filled, 2)
        ∧ bcbRead wrappedRing [0, 0] 2 true = .ok (after, filled, 2)
        ∧ after.buffer = wrappedRing.buffer
        ∧ after.bufferSize = wrappedRing.bufferSize
        ∧ after.front = wrappedRing.front
        ∧ after.live = [6] := by
  have served := (bcbRead_predicted (by decide) reachable_wrappedRing [0, 0] 2).2 (by decide)
  rcases served with ⟨small, -⟩ | served
  · exact absurd small (by decide)
  · exact served

end Ethnm
