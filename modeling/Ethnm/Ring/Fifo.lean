import Ethnm.Ring.Operations

/-! The ring as a first-in first-out byte queue over whole runs of calls.
Every operation keeps the queue; only the copy made by a read that passes the physical end
of the storage is wrong, so a run is first-in first-out exactly when no read does.
-/

namespace Ethnm

-----------------------------------------------------------------------------------------
-- Calls on a ring
-----------------------------------------------------------------------------------------

inductive Request
  | write (data : List UInt8) (dataSize : UInt16) (available : dataSize.toNat ≤ data.length)
  | read (dataSize : UInt16) (removeReadBytes : Bool)
  | reset

/-- The bytes a request needs in the caller's buffer. -/
def Request.room : Request → Nat
  | .read dataSize _ => dataSize.toNat
  | _ => 0

/-- A request together with what the caller's buffer holds before the call. -/
structure Call where
  request : Request
  buffer : List UInt8
  room : request.room ≤ buffer.length

structure Reply where
  bcb : ByteCircularBuffer
  buffer : List UInt8
  result : UInt16

def serve (bcb : ByteCircularBuffer) (call : Call) : Except Fault Reply :=
  match call.request with
  | .write data dataSize _ => do
      let (bcb, result) ← bcbWrite bcb data dataSize
      return ⟨bcb, call.buffer, result⟩
  | .read dataSize removeReadBytes => do
      let (bcb, buffer, result) ← bcbRead bcb call.buffer dataSize removeReadBytes
      return ⟨bcb, buffer, result⟩
  | .reset => .ok ⟨bcbReset bcb, call.buffer, 0⟩

-----------------------------------------------------------------------------------------
-- What a queue answers
-----------------------------------------------------------------------------------------

/-- The bytes accepted since the last reset and not yet removed, judged by the result that
each call reports.
-/
def Request.pending (queue : List UInt8) (result : UInt16) : Request → List UInt8
  | .write data _ _ => queue ++ data.take result.toNat
  | .read _ removeReadBytes => if removeReadBytes then queue.drop result.toNat else queue
  | .reset => []

/-- The bytes a read reports are the oldest pending ones, in order. -/
def Request.Delivers (queue : List UInt8) (reply : Reply) : Request → Prop
  | .read _ _ => reply.buffer.take reply.result.toNat = queue.take reply.result.toNat
  | _ => True

instance (queue : List UInt8) (reply : Reply) (request : Request)
    : Decidable (request.Delivers queue reply) := by
  cases request <;> unfold Request.Delivers <;> infer_instance

/-- Every call of the run returns, every read delivers the oldest pending bytes, and after
every call the live bytes of the ring are the pending ones.
-/
def FifoRun (bcb : ByteCircularBuffer) (queue : List UInt8) : List Call → Prop
  | [] => True
  | call :: rest =>
      match serve bcb call with
      | .error _ => False
      | .ok reply =>
          let pending := call.request.pending queue reply.result
          call.request.Delivers queue reply
          ∧ reply.bcb.live = pending
          ∧ FifoRun reply.bcb pending rest

instance decidableFifoRun
    : ∀ (bcb : ByteCircularBuffer) (queue : List UInt8) (calls : List Call),
        Decidable (FifoRun bcb queue calls)
  | _, _, [] => isTrue trivial
  | bcb, queue, call :: rest => by
      unfold FifoRun
      cases serve bcb call with
      | error fault => exact isFalse id
      | ok reply =>
          have := decidableFifoRun reply.bcb (call.request.pending queue reply.result) rest
          exact inferInstanceAs (Decidable (_ ∧ _ ∧ _))

-----------------------------------------------------------------------------------------
-- Where the live bytes lie
-----------------------------------------------------------------------------------------

/-- How far a run of requests has moved the oldest byte round the ring, and how many bytes
are pending.
-/
structure Occupancy where
  rear : Nat
  size : Nat

def Occupancy.after (capacity : Nat) (occupancy : Occupancy) : Request → Occupancy
  | .write _ dataSize _ =>
      if occupancy.size + dataSize.toNat ≤ capacity then
        { occupancy with size := occupancy.size + dataSize.toNat }
      else
        occupancy
  | .read dataSize removeReadBytes =>
      if dataSize.toNat ≤ occupancy.size ∧ removeReadBytes then
        {
          rear := (occupancy.rear + dataSize.toNat) % capacity
          size := occupancy.size - dataSize.toNat
        }
      else
        occupancy
  | .reset => { rear := 0, size := 0 }

/-- A read that is served and whose bytes pass the physical end of the ring. -/
def Request.Straddles (capacity : Nat) (occupancy : Occupancy) : Request → Prop
  | .read dataSize _ =>
      dataSize.toNat ≤ occupancy.size ∧ capacity < occupancy.rear + dataSize.toNat
  | _ => False

instance (capacity : Nat) (occupancy : Occupancy) (request : Request)
    : Decidable (request.Straddles capacity occupancy) := by
  cases request <;> unfold Request.Straddles <;> infer_instance

def NoReadStraddles (capacity : Nat) (occupancy : Occupancy) : List Request → Prop
  | [] => True
  | request :: rest =>
      ¬ request.Straddles capacity occupancy
      ∧ NoReadStraddles capacity (occupancy.after capacity request) rest

instance decidableNoReadStraddles (capacity : Nat)
    : ∀ (occupancy : Occupancy) (requests : List Request),
        Decidable (NoReadStraddles capacity occupancy requests)
  | _, [] => isTrue trivial
  | occupancy, request :: rest =>
      have := decidableNoReadStraddles capacity (occupancy.after capacity request) rest
      inferInstanceAs (Decidable (_ ∧ _))

def ByteCircularBuffer.occupancy (bcb : ByteCircularBuffer) : Occupancy :=
  { rear := bcb.rear.toNat, size := bcb.currentSize.toNat }

-----------------------------------------------------------------------------------------
-- One call
-----------------------------------------------------------------------------------------

namespace ByteCircularBuffer

variable {bcb : ByteCircularBuffer}

/-- The ring that a request leaves, whatever the caller's buffer holds. -/
def next (bcb : ByteCircularBuffer) : Request → ByteCircularBuffer
  | .write data dataSize _ =>
      if bcb.currentSize.toNat + dataSize.toNat ≤ bcb.bufferSize.toNat then
        bcb.appended (data.take dataSize.toNat)
      else
        bcb
  | .read dataSize removeReadBytes =>
      if dataSize.toNat ≤ bcb.currentSize.toNat ∧ removeReadBytes then
        bcb.removed dataSize.toNat
      else
        bcb
  | .reset => bcbReset bcb

/-- The value that a request returns. -/
def result (bcb : ByteCircularBuffer) : Request → UInt16
  | .write _ dataSize _ =>
      if bcb.currentSize.toNat + dataSize.toNat ≤ bcb.bufferSize.toNat then dataSize else 0
  | .read dataSize _ => if dataSize.toNat ≤ bcb.currentSize.toNat then dataSize else 0
  | .reset => 0

/-- The caller's buffer after a request. -/
def filled (bcb : ByteCircularBuffer) (buffer : List UInt8) : Request → List UInt8
  | .read dataSize _ =>
      if dataSize.toNat ≤ bcb.currentSize.toNat then
        copiedOut bcb.leading (bcb.live.take dataSize.toNat) buffer
      else
        buffer
  | _ => buffer

/-- Every call on a well-formed ring returns, with these three effects. -/
theorem WellFormed.serve_eq (wf : bcb.WellFormed) (call : Call)
    : serve bcb call
      = .ok ⟨bcb.next call.request, bcb.filled call.buffer call.request,
          bcb.result call.request⟩ := by
  obtain ⟨request, buffer, room⟩ := call
  unfold serve
  cases request with
  | reset => rfl
  | write data dataSize available =>
      simp only [next, filled, result]
      split
      · rw [wf.bcbWrite_accepted available (by assumption)]
        rfl
      · rw [wf.bcbWrite_refused (by omega)]
        rfl
  | read dataSize removeReadBytes =>
      simp only [next, filled, result]
      by_cases enough : dataSize.toNat ≤ bcb.currentSize.toNat
      · rw [wf.bcbRead_served removeReadBytes enough (copyFits_of_le room)]
        simp only [enough, true_and, if_true]
        rfl
      · rw [bcbRead_short (by omega), if_neg enough, if_neg (by simp [enough]), if_neg enough]
        rfl

/-- No request leaves the invariant, by its accepted and refused cases. -/
theorem WellFormed.next (wf : bcb.WellFormed) (request : Request)
    : (bcb.next request).WellFormed := by
  cases request with
  | reset => exact wf.reset
  | write data dataSize available =>
      by_cases fits : bcb.currentSize.toNat + dataSize.toNat ≤ bcb.bufferSize.toNat
      · simp only [ByteCircularBuffer.next, if_pos fits]
        exact wf.append (by rw [List.length_take]; omega)
      · simpa only [ByteCircularBuffer.next, if_neg fits] using wf
  | read dataSize removeReadBytes =>
      by_cases served : dataSize.toNat ≤ bcb.currentSize.toNat ∧ removeReadBytes
      · simp only [ByteCircularBuffer.next, if_pos served]
        exact wf.remove served.1
      · simpa only [ByteCircularBuffer.next, if_neg served] using wf

@[simp]
theorem bufferSize_next (bcb : ByteCircularBuffer) (request : Request)
    : (bcb.next request).bufferSize = bcb.bufferSize := by
  cases request <;> simp only [next] <;> first | rfl | (split <;> rfl)

/-- The live bytes after a request are the pending bytes that its result implies. -/
theorem WellFormed.live_next (wf : bcb.WellFormed) (request : Request)
    : (bcb.next request).live = request.pending bcb.live (bcb.result request) := by
  cases request with
  | reset => exact live_bcbReset bcb
  | write data dataSize available =>
      simp only [ByteCircularBuffer.next, result, Request.pending]
      split
      · rw [wf.live_appended (by rw [List.length_take]; omega)]
      · simp
  | read dataSize removeReadBytes =>
      simp only [ByteCircularBuffer.next, result, Request.pending]
      by_cases enough : dataSize.toNat ≤ bcb.currentSize.toNat
      · cases removeReadBytes
        · simp
        · simp [enough, wf.live_removed enough]
      · cases removeReadBytes <;> simp [enough]

/-- The place of the live bytes moves as the requests alone determine. -/
theorem WellFormed.occupancy_next (wf : bcb.WellFormed) (request : Request)
    : (bcb.next request).occupancy
      = bcb.occupancy.after bcb.bufferSize.toNat request := by
  cases request with
  | reset => rfl
  | write data dataSize available =>
      have width : (data.take dataSize.toNat).length = dataSize.toNat := by
        rw [List.length_take]
        omega
      by_cases fits : bcb.currentSize.toNat + dataSize.toNat ≤ bcb.bufferSize.toNat
      · have space : bcb.occupancy.size + dataSize.toNat ≤ bcb.bufferSize.toNat := fits
        simp only [ByteCircularBuffer.next, Occupancy.after, if_pos fits, if_pos space]
        rw [occupancy, currentSize_appended (by omega), width]
        rfl
      · have space : ¬ bcb.occupancy.size + dataSize.toNat ≤ bcb.bufferSize.toNat := fits
        simp only [ByteCircularBuffer.next, Occupancy.after, if_neg fits, if_neg space]
  | read dataSize removeReadBytes =>
      by_cases served : dataSize.toNat ≤ bcb.currentSize.toNat ∧ removeReadBytes
      · have taken : dataSize.toNat ≤ bcb.occupancy.size ∧ removeReadBytes := served
        simp only [ByteCircularBuffer.next, Occupancy.after, if_pos served, if_pos taken]
        rw [occupancy, wf.rear_removed, currentSize_removed]
        rfl
      · have taken : ¬ (dataSize.toNat ≤ bcb.occupancy.size ∧ removeReadBytes) := served
        simp only [ByteCircularBuffer.next, Occupancy.after, if_neg served, if_neg taken]

/-- A request that does not straddle delivers the oldest live bytes. -/
theorem WellFormed.delivers (wf : bcb.WellFormed) {call : Call}
    (whole : ¬ call.request.Straddles bcb.bufferSize.toNat bcb.occupancy)
    : call.request.Delivers bcb.live
        ⟨bcb.next call.request, bcb.filled call.buffer call.request,
          bcb.result call.request⟩ := by
  obtain ⟨request, buffer, room⟩ := call
  cases request with
  | reset | write => trivial
  | read dataSize removeReadBytes =>
      simp only [Request.Delivers, filled, result]
      by_cases enough : dataSize.toNat ≤ bcb.currentSize.toNat
      · have width : (bcb.live.take dataSize.toNat).length = dataSize.toNat := by
          rw [List.length_take, wf.length_live]
          omega
        have inside := wf.rear_lt
        simp only [Request.Straddles, occupancy, not_and, Nat.not_lt] at whole
        have near := whole enough
        rw [if_pos enough, if_pos enough,
          copiedOut_of_le (by rw [width]; unfold leading; omega), List.take_append_of_le_length
            (by rw [width]), List.take_take, Nat.min_self]
      · simp [enough]

/-- A straddling read fails for some contents of the caller's buffer: the last byte it
reports is the one that the buffer already held.
-/
theorem WellFormed.exists_not_delivers (wf : bcb.WellFormed) {request : Request}
    (straddles : request.Straddles bcb.bufferSize.toNat bcb.occupancy)
    : ∃ call : Call,
        call.request = request
        ∧ ¬ call.request.Delivers bcb.live
          ⟨bcb.next call.request, bcb.filled call.buffer call.request,
            bcb.result call.request⟩ := by
  cases request with
  | reset | write => exact straddles.elim
  | read dataSize removeReadBytes =>
      obtain ⟨enough, beyond⟩ := straddles
      simp only [occupancy] at enough beyond
      have inside := wf.rear_lt
      have bound := wf.current_le
      have width : (bcb.live.take dataSize.toNat).length = dataSize.toNat := by
        rw [List.length_take, wf.length_live]
        omega
      have last : dataSize.toNat - 1 < bcb.live.length := by
        rw [wf.length_live]
        omega
      -- A buffer filled with a byte that differs from the last one asked for.
      let stale := bcb.live[dataSize.toNat - 1] + 1
      let buffer := List.replicate dataSize.toNat stale
      have kept : (copiedOut bcb.leading (bcb.live.take dataSize.toNat)
          buffer)[dataSize.toNat - 1]? = some stale := by
        have unwritten := copiedOut_last_of_lt buffer
          (show bcb.leading < (bcb.live.take dataSize.toNat).length by
            rw [width]
            unfold leading
            omega) wf.leading_pos
        rw [width] at unwritten
        rw [unwritten, List.getElem?_replicate, if_pos (by omega)]
      refine ⟨⟨.read dataSize removeReadBytes, buffer, by simp [Request.room, buffer]⟩, rfl, ?_⟩
      simp only [Request.Delivers, filled, result, if_pos enough]
      intro same
      have equal := congrArg (fun bytes => bytes[dataSize.toNat - 1]?) same
      simp only [List.getElem?_take_of_lt (show dataSize.toNat - 1 < dataSize.toNat by omega),
        kept, List.getElem?_eq_getElem last, Option.some.injEq] at equal
      simp [stale] at equal

end ByteCircularBuffer

-----------------------------------------------------------------------------------------
-- Whole runs
-----------------------------------------------------------------------------------------

open ByteCircularBuffer in
/-- From a well-formed ring, all runs over given requests are first-in first-out exactly
when none of the reads straddles; by induction on the requests, since neither the ring nor
the results depend on the callers' buffers.
-/
theorem ByteCircularBuffer.WellFormed.fifoRun_iff {bcb : ByteCircularBuffer}
    (wf : bcb.WellFormed) (requests : List Request)
    : (∀ calls : List Call,
          calls.map Call.request = requests → FifoRun bcb bcb.live calls)
      ↔ NoReadStraddles bcb.bufferSize.toNat bcb.occupancy requests := by
  induction requests generalizing bcb with
  | nil =>
      refine ⟨fun _ => trivial, ?_⟩
      intro _ calls same
      rw [List.map_eq_nil_iff.mp same]
      trivial
  | cons request rest ih =>
      have step (call : Call) (calls : List Call) (same : call.request = request)
          : FifoRun bcb bcb.live (call :: calls)
            ↔ call.request.Delivers bcb.live
                ⟨bcb.next call.request, bcb.filled call.buffer call.request,
                  bcb.result call.request⟩
              ∧ FifoRun (bcb.next request) (bcb.next request).live calls := by
        subst same
        rw [FifoRun, wf.serve_eq, wf.live_next]
        exact and_congr_right fun _ => and_iff_right (wf.live_next call.request)
      have tail := ih (wf.next request)
      rw [wf.occupancy_next, bufferSize_next] at tail
      rw [NoReadStraddles, ← tail]
      constructor
      · intro all
        constructor
        · intro straddles
          obtain ⟨call, same, wrong⟩ := wf.exists_not_delivers straddles
          have idle : ∃ calls : List Call, calls.map Call.request = rest := by
            refine ⟨rest.map fun request =>
              ⟨request, List.replicate request.room 0, by simp⟩, ?_⟩
            simp [Function.comp_def]
          obtain ⟨calls, later⟩ := idle
          exact wrong ((step call calls same).mp
            (all (call :: calls) (by simp [same, later]))).1
        · intro calls later
          let call : Call := ⟨request, List.replicate request.room 0, by simp⟩
          exact ((step call calls rfl).mp (all (call :: calls) (by simp [call, later]))).2
      · rintro ⟨whole, later⟩ calls same
        cases calls with
        | nil => simp at same
        | cons call calls =>
            simp only [List.map_cons, List.cons.injEq] at same
            obtain ⟨first, others⟩ := same
            refine (step call calls first).mpr ⟨?_, later calls others⟩
            exact wf.delivers (by rw [first]; exact whole)

/-- A new ring is a first-in first-out queue over a run of requests, whatever the callers'
buffers hold.
-/
def IsFifo (capacity : UInt16) (requests : List Request) : Prop :=
  ∀ calls : List Call,
    calls.map Call.request = requests → FifoRun (bcbCreateNew capacity) [] calls

/-- A run of requests is first-in first-out exactly when no served read passes the physical
end of the storage.
-/
theorem isFifo_iff_noReadStraddles (capacity : UInt16) (positive : 0 < capacity)
    (requests : List Request)
    : IsFifo capacity requests
      ↔ NoReadStraddles capacity.toNat { rear := 0, size := 0 } requests := by
  have wf := ByteCircularBuffer.wellFormed_bcbCreateNew positive
  have runs := wf.fifoRun_iff requests
  rw [ByteCircularBuffer.live_bcbCreateNew] at runs
  exact runs

/-- Reads that end exactly at the physical end are served in order. -/
theorem isFifo_to_physical_end
    : IsFifo 4
        [.write [1, 2, 3] 3 (by decide), .read 2 true, .write [4] 1 (by decide),
          .read 2 true] :=
  (isFifo_iff_noReadStraddles 4 (by decide) _).mpr (by decide)

/-- Six bytes through a ring of four: the second read takes three bytes, one before the
physical end and two after it, and the caller receives them out of place.
-/
theorem not_isFifo_across_physical_end
    : ¬ IsFifo 4
        [.write [1, 2, 3] 3 (by decide), .read 3 true, .write [4, 5, 6] 3 (by decide),
          .read 3 true] := by
  intro all
  have run := all
    [
      ⟨.write [1, 2, 3] 3 (by decide), [], by decide⟩,
      ⟨.read 3 true, [0, 0, 0], by decide⟩,
      ⟨.write [4, 5, 6] 3 (by decide), [], by decide⟩,
      ⟨.read 3 true, [0, 0, 0], by decide⟩
    ] rfl
  exact absurd run (by decide +kernel)

end Ethnm
