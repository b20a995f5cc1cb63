import Ethnm.Ring.Fifo

/-! The ring with every sixteen-bit sum and difference, and every range of the storage that
is copied, checked at the point where the code computes it. No check ever fails, and the
redundant fields agree with each other and with the bytes that passed through.
-/

namespace Ethnm

-----------------------------------------------------------------------------------------
-- A second reading of the operations
-----------------------------------------------------------------------------------------

/-- What a checked operation reports: a sum or difference that is not a `uint16_t`, a copy
that leaves the storage of the ring, or a fault of the operation itself.
-/
inductive Breach
  | wraps
  | outsideRing
  | fault (fault : Fault)
  deriving DecidableEq, Repr

def checkedAdd (left right : UInt16) : Except Breach UInt16 :=
  if left.toNat + right.toNat < UInt16.size then .ok (left + right) else .error .wraps

def checkedSub (left right : UInt16) : Except Breach UInt16 :=
  if right.toNat ≤ left.toNat then .ok (left - right) else .error .wraps

/-- The `count` cells from `offset` on lie in the storage. -/
def ByteCircularBuffer.Covers (bcb : ByteCircularBuffer) (offset count : Nat) : Prop :=
  offset < bcb.bufferSize.toNat ∧ offset + count ≤ bcb.bufferSize.toNat

instance (bcb : ByteCircularBuffer) (offset count : Nat) : Decidable (bcb.Covers offset count) :=
  inferInstanceAs (Decidable (_ ∧ _))

/-- A `memcpy` whose source or destination is the given range of the ring. -/
def checkedCopy (bcb : ByteCircularBuffer) (offset count : Nat)
    (copy : Except Fault (List UInt8))
    : Except Breach (List UInt8) :=
  if bcb.Covers offset count then copy.mapError .fault else .error .outsideRing

/-- `BCBWrite`, checked. -/
def bcbWriteChecked (bcb : ByteCircularBuffer) (data : List UInt8) (dataSize : UInt16)
    : Except Breach (ByteCircularBuffer × UInt16) :=
  if bcbIsFull bcb then
    .ok (bcb, 0)
  else do
    let available ← checkedSub bcb.bufferSize bcb.currentSize
    if available < dataSize then
      return (bcb, 0)
    else if bcb.front < bcb.rear then do
      let buffer ← checkedCopy bcb bcb.front.toNat dataSize.toNat
        (memcpy bcb.buffer bcb.front.toNat data 0 dataSize.toNat)
      let front ← checkedAdd bcb.front dataSize
      let front := if front = bcb.bufferSize then 0 else front
      let currentSize ← checkedAdd bcb.currentSize dataSize
      return ({ bcb with buffer, front, currentSize }, dataSize)
    else do
      let leadingSpace ← checkedSub bcb.bufferSize bcb.front
      if dataSize ≤ leadingSpace then do
        let buffer ← checkedCopy bcb bcb.front.toNat dataSize.toNat
          (memcpy bcb.buffer bcb.front.toNat data 0 dataSize.toNat)
        let front ← checkedAdd bcb.front dataSize
        let front := if front = bcb.bufferSize then 0 else front
        let currentSize ← checkedAdd bcb.currentSize dataSize
        return ({ bcb with buffer, front, currentSize }, dataSize)
      else do
        let buffer ← checkedCopy bcb bcb.front.toNat leadingSpace.toNat
          (memcpy bcb.buffer bcb.front.toNat data 0 leadingSpace.toNat)
        let rest ← checkedSub dataSize leadingSpace
        let buffer ← checkedCopy bcb 0 rest.toNat
          (memcpy buffer 0 data leadingSpace.toNat rest.toNat)
        let front ← checkedSub dataSize leadingSpace
        let currentSize ← checkedAdd bcb.currentSize dataSize
        return ({ bcb with buffer, front, currentSize }, dataSize)

/-- `BCBRead`, checked. -/
def bcbReadChecked (bcb : ByteCircularBuffer) (buffer : List UInt8) (dataSize : UInt16)
    (removeReadBytes : Bool)
    : Except Breach (ByteCircularBuffer × List UInt8 × UInt16) :=
  if bcb.currentSize < dataSize then
    .ok (bcb, buffer, 0)
  else if bcb.rear < bcb.front then do
    let buffer ← checkedCopy bcb bcb.rear.toNat dataSize.toNat
      (memcpy buffer 0 bcb.buffer bcb.rear.toNat dataSize.toNat)
    if removeReadBytes then do
      let rear ← checkedAdd bcb.rear dataSize
      let rear := if rear = bcb.bufferSize then 0 else rear
      let currentSize ← checkedSub bcb.currentSize dataSize
      return ({ bcb with rear, currentSize }, buffer, dataSize)
    else
      return (bcb, buffer, dataSize)
  else do
    let leadingSpace ← checkedSub bcb.bufferSize bcb.rear
    if dataSize ≤ leadingSpace then do
      let buffer ← checkedCopy bcb bcb.rear.toNat dataSize.toNat
        (memcpy buffer 0 bcb.buffer bcb.rear.toNat dataSize.toNat)
      if removeReadBytes then do
        let rear ← checkedAdd bcb.rear dataSize
        let rear := if rear = bcb.bufferSize then 0 else rear
        let currentSize ← checkedSub bcb.currentSize dataSize
        return ({ bcb with rear, currentSize }, buffer, dataSize)
      else
        return (bcb, buffer, dataSize)
    else do
      let buffer ← checkedCopy bcb bcb.rear.toNat leadingSpace.toNat
        (memcpy buffer 0 bcb.buffer bcb.rear.toNat leadingSpace.toNat)
      let rest ← checkedSub dataSize leadingSpace
      let buffer ← checkedCopy bcb 0 rest.toNat (memcpy buffer 0 bcb.buffer 0 rest.toNat)
      if removeReadBytes then do
        let rear ← checkedSub dataSize leadingSpace
        let currentSize ← checkedSub bcb.currentSize dataSize
        return ({ bcb with rear, currentSize }, buffer, dataSize)
      else
        return (bcb, buffer, dataSize)

def serveChecked (bcb : ByteCircularBuffer) (call : Call) : Except Breach Reply :=
  match call.request with
  | .write data dataSize _ => do
      let (bcb, result) ← bcbWriteChecked bcb data dataSize
      return ⟨bcb, call.buffer, result⟩
  | .read dataSize removeReadBytes => do
      let (bcb, buffer, result) ← bcbReadChecked bcb call.buffer dataSize removeReadBytes
      return ⟨bcb, buffer, result⟩
  | .reset => .ok ⟨bcbReset bcb, call.buffer, 0⟩

-----------------------------------------------------------------------------------------
-- The checks of one call
-----------------------------------------------------------------------------------------

section Checks

variable {bcb : ByteCircularBuffer}

theorem checkedAdd_of_lt {left right : UInt16} (fits : left.toNat + right.toNat < UInt16.size)
    : checkedAdd left right = .ok (left + right) := if_pos fits

theorem checkedSub_of_le {left right : UInt16} (le : right.toNat ≤ left.toNat)
    : checkedSub left right = .ok (left - right) := if_pos le

theorem checkedCopy_of_covers {offset count : Nat} (covers : bcb.Covers offset count)
    (copy : Except Fault (List UInt8))
    : checkedCopy bcb offset count copy = copy.mapError .fault := if_pos covers

theorem mapError_ok {ε ε' α : Type} (convert : ε → ε') (value : α)
    : (Except.ok value : Except ε α).mapError convert = .ok value := rfl

/-- Reporting a fault in other words commutes with sequencing. -/
theorem mapError_bind {ε ε' α β : Type} (convert : ε → ε') (first : Except ε α)
    (next : α → Except ε β)
    : (first >>= next).mapError convert
      = first.mapError convert >>= fun value => (next value).mapError convert := by
  cases first <;> rfl

namespace ByteCircularBuffer

/-- On a well-formed ring no check of `BCBWrite` fails.
Witness: what is free lies in one piece from `front` on when `front` is behind `rear`, and
otherwise in one piece up to the physical end and one from the start.
-/
theorem WellFormed.bcbWriteChecked_eq (wf : bcb.WellFormed) (data : List UInt8)
    (dataSize : UInt16)
    : bcbWriteChecked bcb data dataSize = (bcbWrite bcb data dataSize).mapError .fault := by
  have bound := wf.current_le
  have below := wf.front_lt
  have inside := wf.rear_lt
  have size := bcb.bufferSize.toNat_lt
  have width : UInt16.size = 65536 := rfl
  unfold bcbWriteChecked bcbWrite
  by_cases full : bcbIsFull bcb
  · rw [if_pos full, if_pos full, mapError_ok]
  rw [if_neg full, if_neg full, checkedSub_of_le bound]
  change (if bcbAvailableSize bcb < dataSize then _ else _) = _
  by_cases refused : bcbAvailableSize bcb < dataSize
  · rw [if_pos refused, if_pos refused, mapError_ok]
    rfl
  rw [if_neg refused, if_neg refused]
  have fits : bcb.currentSize.toNat + dataSize.toNat ≤ bcb.bufferSize.toNat := by
    rw [UInt16.lt_iff_toNat_lt, wf.available] at refused
    omega
  have grows : checkedAdd bcb.currentSize dataSize = .ok (bcb.currentSize + dataSize) :=
    checkedAdd_of_lt (by omega)
  by_cases behind : bcb.front < bcb.rear
  · have free : bcb.front.toNat + dataSize.toNat ≤ bcb.bufferSize.toNat := by
      rw [UInt16.lt_iff_toNat_lt] at behind
      rcases wf.front_cases with ⟨_, position⟩ | ⟨_, position⟩ <;> omega
    rw [if_pos behind, if_pos behind, checkedCopy_of_covers ⟨below, free⟩, grows,
      checkedAdd_of_lt (by omega), mapError_bind]
    rfl
  rw [if_neg behind, if_neg behind, checkedSub_of_le (Nat.le_of_lt below)]
  have leading : (bcb.bufferSize - bcb.front).toNat
      = bcb.bufferSize.toNat - bcb.front.toNat :=
    UInt16.toNat_sub_of_le _ _ (UInt16.le_iff_toNat_le.mpr below.le)
  change (if dataSize ≤ bcb.bufferSize - bcb.front then _ else _) =
    Except.mapError _ (if dataSize ≤ bcb.bufferSize - bcb.front then _ else _)
  by_cases short : dataSize ≤ bcb.bufferSize - bcb.front
  · rw [if_pos short, if_pos short]
    rw [UInt16.le_iff_toNat_le, leading] at short
    rw [checkedCopy_of_covers ⟨below, by omega⟩, grows, checkedAdd_of_lt (by omega),
      mapError_bind]
    rfl
  rw [if_neg short, if_neg short]
  rw [UInt16.le_iff_toNat_le, leading] at short
  have rest : (dataSize - (bcb.bufferSize - bcb.front)).toNat
      = dataSize.toNat - (bcb.bufferSize - bcb.front).toNat :=
    UInt16.toNat_sub_of_le _ _ (UInt16.le_iff_toNat_le.mpr (by omega))
  rw [checkedCopy_of_covers ⟨below, by omega⟩, grows, checkedSub_of_le (by omega),
    mapError_bind]
  congr 1
  funext buffer
  rw [mapError_bind]
  change checkedCopy _ _ _ _ >>= _ = _
  rw [rest, checkedCopy_of_covers ⟨by omega, by omega⟩]
  rfl

/-- On a well-formed ring no check of `BCBRead` fails.
Witness: the live bytes lie in one piece when `rear` is behind `front`, and otherwise in one
piece up to the physical end and one from the start.
-/
theorem WellFormed.bcbReadChecked_eq (wf : bcb.WellFormed) (buffer : List UInt8)
    (dataSize : UInt16) (remove : Bool)
    : bcbReadChecked bcb buffer dataSize remove
      = (bcbRead bcb buffer dataSize remove).mapError .fault := by
  have bound := wf.current_le
  have inside := wf.rear_lt
  have size := bcb.bufferSize.toNat_lt
  have width : UInt16.size = 65536 := rfl
  unfold bcbReadChecked bcbRead
  by_cases short : bcb.currentSize < dataSize
  · rw [if_pos short, if_pos short, mapError_ok]
  rw [if_neg short, if_neg short]
  rw [UInt16.lt_iff_toNat_lt, Nat.not_lt] at short
  have shrinks := checkedSub_of_le short
  by_cases behind : bcb.rear < bcb.front
  · have taken : bcb.rear.toNat + dataSize.toNat ≤ bcb.bufferSize.toNat := by
      rw [UInt16.lt_iff_toNat_lt] at behind
      rcases wf.front_cases with ⟨_, position⟩ | ⟨_, position⟩ <;> omega
    rw [if_pos behind, if_pos behind, checkedCopy_of_covers ⟨inside, taken⟩, shrinks,
      checkedAdd_of_lt (by omega), mapError_bind]
    cases remove <;> rfl
  rw [if_neg behind, if_neg behind, checkedSub_of_le (Nat.le_of_lt inside)]
  have leading : (bcb.bufferSize - bcb.rear).toNat
      = bcb.bufferSize.toNat - bcb.rear.toNat :=
    UInt16.toNat_sub_of_le _ _ (UInt16.le_iff_toNat_le.mpr inside.le)
  change (if dataSize ≤ bcb.bufferSize - bcb.rear then _ else _) =
    Except.mapError _ (if dataSize ≤ bcb.bufferSize - bcb.rear then _ else _)
  by_cases near : dataSize ≤ bcb.bufferSize - bcb.rear
  · rw [if_pos near, if_pos near]
    rw [UInt16.le_iff_toNat_le, leading] at near
    rw [checkedCopy_of_covers ⟨inside, by omega⟩, shrinks, checkedAdd_of_lt (by omega),
      mapError_bind]
    cases remove <;> rfl
  rw [if_neg near, if_neg near]
  rw [UInt16.le_iff_toNat_le, leading] at near
  have rest : (dataSize - (bcb.bufferSize - bcb.rear)).toNat
      = dataSize.toNat - (bcb.bufferSize - bcb.rear).toNat :=
    UInt16.toNat_sub_of_le _ _ (UInt16.le_iff_toNat_le.mpr (by omega))
  rw [checkedCopy_of_covers ⟨inside, by omega⟩, shrinks, checkedSub_of_le (by omega),
    mapError_bind]
  congr 1
  funext first
  rw [mapError_bind]
  change checkedCopy _ _ _ _ >>= _ = _
  rw [rest, checkedCopy_of_covers ⟨by omega, by omega⟩]
  cases remove <;> rfl

/-- On a well-formed ring a checked call is the call. -/
theorem WellFormed.serveChecked_eq (wf : bcb.WellFormed) (call : Call)
    : serveChecked bcb call = (serve bcb call).mapError .fault := by
  unfold serveChecked serve
  cases call.request with
  | reset => rfl
  | write data dataSize available =>
      simp only [wf.bcbWriteChecked_eq, mapError_bind]
      rfl
  | read dataSize removeReadBytes =>
      simp only [wf.bcbReadChecked_eq, mapError_bind]
      rfl

end ByteCircularBuffer

end Checks

-----------------------------------------------------------------------------------------
-- Whole runs
-----------------------------------------------------------------------------------------

/-- The bytes accepted and removed since the last reset. -/
structure Tally where
  accepted : Nat
  removed : Nat

/-- The bytes of a call are those that it returns. -/
def Tally.after (tally : Tally) (result : UInt16) : Request → Tally
  | .write _ _ _ => { tally with accepted := tally.accepted + result.toNat }
  | .read _ removeReadBytes =>
      if removeReadBytes then
        { tally with removed := tally.removed + result.toNat }
      else
        tally
  | .reset => { accepted := 0, removed := 0 }

/-- The fields of a ring of the given capacity agree with each other and with the tally. -/
structure Coherent (capacity : UInt16) (tally : Tally) (bcb : ByteCircularBuffer) : Prop where
  front_lt : bcb.front < capacity
  rear_lt : bcb.rear < capacity
  currentSize_le : bcb.currentSize ≤ capacity
  front_eq : bcb.front.toNat = (bcb.rear.toNat + bcb.currentSize.toNat) % capacity.toNat
  currentSize_eq : bcb.currentSize.toNat = tally.accepted - tally.removed
  removed_le : tally.removed ≤ tally.accepted

/-- Every call of the run passes its checks and leaves a coherent ring. -/
def CheckedRun (capacity : UInt16) (tally : Tally) (bcb : ByteCircularBuffer) : List Call → Prop
  | [] => True
  | call :: rest =>
      match serve bcb call with
      | .error _ => False
      | .ok reply =>
          serveChecked bcb call = .ok reply
          ∧ Coherent capacity (tally.after reply.result call.request) reply.bcb
          ∧ CheckedRun capacity (tally.after reply.result call.request) reply.bcb rest

section Runs

variable {bcb : ByteCircularBuffer} {capacity : UInt16} {tally : Tally}

open ByteCircularBuffer

/-- A well-formed ring is coherent with a tally of its live bytes. -/
theorem ByteCircularBuffer.WellFormed.coherent (wf : bcb.WellFormed)
    (current : bcb.currentSize.toNat + tally.removed = tally.accepted)
    : Coherent bcb.bufferSize tally bcb where
  front_lt := UInt16.lt_iff_toNat_lt.mpr wf.front_lt
  rear_lt := UInt16.lt_iff_toNat_lt.mpr wf.rear_lt
  currentSize_le := UInt16.le_iff_toNat_le.mpr wf.current_le
  front_eq := wf.front_eq
  currentSize_eq := Nat.eq_sub_of_add_eq current
  removed_le := by omega

/-- A call changes the number of live bytes as the tally says. -/
theorem ByteCircularBuffer.WellFormed.tally_next (wf : bcb.WellFormed) (request : Request)
    (current : bcb.currentSize.toNat + tally.removed = tally.accepted)
    : (bcb.next request).currentSize.toNat + (tally.after (bcb.result request) request).removed
      = (tally.after (bcb.result request) request).accepted := by
  have length := congrArg List.length (wf.live_next request)
  rw [(wf.next request).length_live] at length
  rw [length]
  cases request with
  | reset => rfl
  | write data dataSize available =>
      have width : (data.take (bcb.result (.write data dataSize available)).toNat).length
          = (bcb.result (.write data dataSize available)).toNat := by
        rw [List.length_take, ByteCircularBuffer.result]
        split
        · omega
        · exact Nat.zero_min _
      rw [Request.pending, List.length_append, width, wf.length_live, Tally.after]
      dsimp only
      omega
  | read dataSize removeReadBytes =>
      have enough
          : (bcb.result (.read dataSize removeReadBytes)).toNat ≤ bcb.currentSize.toNat := by
        rw [ByteCircularBuffer.result]
        split
        · assumption
        · exact Nat.zero_le _
      cases removeReadBytes with
      | false =>
          rw [Request.pending, Tally.after, if_neg Bool.false_ne_true,
            if_neg Bool.false_ne_true, wf.length_live]
          exact current
      | true =>
          rw [Request.pending, Tally.after, if_pos rfl, if_pos rfl, List.length_drop,
            wf.length_live]
          dsimp only
          omega

/-- From a well-formed ring; by induction on the calls. -/
theorem ByteCircularBuffer.WellFormed.checkedRun (wf : bcb.WellFormed)
    (current : bcb.currentSize.toNat + tally.removed = tally.accepted) (calls : List Call)
    : CheckedRun bcb.bufferSize tally bcb calls := by
  induction calls generalizing bcb tally with
  | nil => trivial
  | cons call rest ih =>
      have grown := wf.tally_next call.request current
      have coherent := (wf.next call.request).coherent grown
      have later := ih (wf.next call.request) grown
      rw [bufferSize_next] at coherent later
      rw [CheckedRun, wf.serveChecked_eq, wf.serve_eq]
      exact ⟨rfl, coherent, later⟩

end Runs

/-- A new ring passes every check of every run of calls, and is coherent after each. -/
theorem checkedRun_bcbCreateNew {capacity : UInt16} (positive : 0 < capacity)
    (calls : List Call)
    : CheckedRun capacity { accepted := 0, removed := 0 } (bcbCreateNew capacity) calls :=
  (ByteCircularBuffer.wellFormed_bcbCreateNew positive).checkedRun rfl calls

/-- Writes and reads across the physical end, a refused write and an empty read. -/
theorem checkedRun_across_physical_end
    : CheckedRun 4 { accepted := 0, removed := 0 } (bcbCreateNew 4)
        [
          ⟨.write [1, 2, 3] 3 (by decide), [], by decide⟩,
          ⟨.read 3 true, [0, 0, 0], by decide⟩,
          ⟨.write [4, 5, 6] 3 (by decide), [], by decide⟩,
          ⟨.write [7, 8] 2 (by decide), [], by decide⟩,
          ⟨.read 3 true, [0, 0, 0], by decide⟩,
          ⟨.read 0 true, [], by decide⟩
        ] :=
  checkedRun_bcbCreateNew (by decide) _

end Ethnm
