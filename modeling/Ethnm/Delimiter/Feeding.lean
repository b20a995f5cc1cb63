import Ethnm.Delimiter.Tracking

/-! Runs of `Process` over the chunks of a stream: what one call keeps, every run keeps.
A run is also never undone: later turns only add to the record of the earlier ones.
-/

namespace Ethnm

/-- A call returned something good, or it stopped in an allowed way. -/
def Outcome.Meets (good : Progress → Prop) (bad : Stop × Progress → Prop) : Outcome → Prop
  | .ok progress => good progress
  | .error stopped => bad stopped

/-- Both parts of what an outcome meets can be weakened. -/
theorem Outcome.Meets.imp {good good' : Progress → Prop} {bad bad' : Stop × Progress → Prop}
    {outcome : Outcome} (meets : outcome.Meets good bad)
    (returned : ∀ progress, good progress → good' progress)
    (stopped : ∀ stop, bad stop → bad' stop)
    : outcome.Meets good' bad' := by
  cases outcome with
  | ok progress => exact returned progress meets
  | error stop => exact stopped stop meets

/-- What a call is known to meet holds of the progress it returns. -/
theorem Outcome.Meets.of_ok {good : Progress → Prop} {bad : Stop × Progress → Prop}
    {outcome : Outcome} {progress : Progress} (meets : outcome.Meets good bad)
    (returned : outcome = .ok progress)
    : good progress := by
  rw [returned] at meets
  exact meets

section Meeting

variable {framing : Framing} {fuel : Nat} {bytes : List UInt8}
  {good : List UInt8 → Progress → Prop} {bad : Stop × Progress → Prop}
  (expected : Arrival → Prop)
  (call : ∀ received progress arrival, received ++ arrival.chunk <+: bytes →
    expected arrival → good received progress →
    (process framing fuel arrival.around progress arrival.chunk
      (.ofNat arrival.chunk.length)).Meets (good (received ++ arrival.chunk)) bad)
include call

/-- If each call on the next chunk keeps what holds so far, a run keeps it; by induction on
the arrivals that are left.
-/
theorem feed_meets {received : List UInt8} {progress : Progress} {arrivals : List Arrival}
    (begins : received ++ stream arrivals <+: bytes)
    (environment : ∀ arrival ∈ arrivals, expected arrival)
    (initial : good received progress)
    : (feed framing fuel progress arrivals).Meets (good (received ++ stream arrivals))
        bad := by
  induction arrivals generalizing received progress with
  | nil =>
      rw [stream, List.flatMap_nil, List.append_nil]
      exact initial
  | cons arrival rest ih =>
      rw [stream, List.flatMap_cons, ← List.append_assoc] at begins ⊢
      have first := call received progress arrival
        ((List.prefix_append _ _).trans begins) (environment arrival List.mem_cons_self)
        initial
      rw [feed]
      cases result : process framing fuel arrival.around progress arrival.chunk
          (.ofNat arrival.chunk.length) with
      | error stop =>
          rw [result] at first
          exact first
      | ok next =>
          exact ih begins (fun other member => environment other (.tail _ member))
            (first.of_ok result)

/-- The rule for runs of a new delimiter on a prefix of a stream. -/
theorem feed_fresh_meets {arrivals : List Arrival} (begins : stream arrivals <+: bytes)
    (environment : ∀ arrival ∈ arrivals, expected arrival) (initial : good [] fresh)
    : (feed framing fuel fresh arrivals).Meets (good (stream arrivals)) bad := by
  have result : (feed framing fuel fresh arrivals).Meets (good ([] ++ stream arrivals)) bad :=
    feed_meets expected call begins environment initial
  exact result

end Meeting

/-- Chunks can be fed in two parts, by induction on the first. -/
theorem feed_append (framing : Framing) (fuel : Nat) (progress : Progress)
    (first second : List Arrival)
    : feed framing fuel progress (first ++ second)
      = (do
          let next ← feed framing fuel progress first
          feed framing fuel next second) := by
  induction first generalizing progress with
  | nil => rfl
  | cons arrival rest ih =>
      rw [List.cons_append, feed, feed]
      cases process framing fuel arrival.around progress arrival.chunk
          (.ofNat arrival.chunk.length) with
      | error stop => rfl
      | ok next => exact ih next

/-- Feeding one more chunk to a delimiter that returned is one more call. -/
theorem feed_concat {framing : Framing} {fuel : Nat} {progress next : Progress}
    {arrivals : List Arrival} (returned : feed framing fuel progress arrivals = .ok next)
    (arrival : Arrival)
    : feed framing fuel progress (arrivals ++ [arrival])
      = process framing fuel arrival.around next arrival.chunk
          (.ofNat arrival.chunk.length) := by
  rw [feed_append, returned]
  change feed framing fuel next [arrival] = _
  rw [feed]
  cases process framing fuel arrival.around next arrival.chunk
      (.ofNat arrival.chunk.length) with
  | error stop => rfl
  | ok last => rfl

-----------------------------------------------------------------------------------------
-- What every part of a call keeps
-----------------------------------------------------------------------------------------

/-- Neither a write to the ring, nor a read for `buf`, nor a delivery changes it. -/
structure Lasting (kept : Progress → Prop) : Prop where
  written : ∀ progress bcb msg size result, kept progress →
    bcbWrite progress.delimiter.bcb msg size = .ok (bcb, result) →
      kept { progress with delimiter := { progress.delimiter with bcb } }
  asked : ∀ progress size, kept progress →
    kept { progress with asked := progress.asked ++ [size] }
  taken : ∀ progress bcb buf size result, kept progress →
    bcbRead progress.delimiter.bcb progress.delimiter.buf size true = .ok (bcb, buf, result) →
      kept { progress with delimiter := { bcb, buf } }
  delivered : ∀ around turn before len progress, kept progress →
    kept (deliver around turn before len progress)

section Keeping

variable {kept : Progress → Prop} (keeps : Lasting kept)
include keeps

/-- Reading a message keeps it, whether or not the read succeeds. -/
theorem Lasting.readMessage (progress : Progress) (dataSize : UInt16) (before : kept progress)
    : match readMessage progress dataSize with
      | .ok (next, _) => kept next
      | .error (_, next) => kept next := by
  have asking := keeps.asked progress dataSize before
  rw [Ethnm.readMessage]
  cases taken : bcbRead progress.delimiter.bcb progress.delimiter.buf dataSize true with
  | error fault => exact asking
  | ok result => exact keeps.taken _ _ _ _ _ asking taken

/-- The variable-length drain loop keeps it, by induction on its fuel. -/
theorem Lasting.processMsg_var (around : Surroundings) (fuel turn : Nat) (readSize : UInt16)
    (progress : Progress) (before : kept progress)
    : kept (MsgDelimiterVar.processMsg around fuel turn readSize progress).progress := by
  induction fuel generalizing turn readSize progress with
  | zero => exact before
  | succ fuel ih =>
      rw [MsgDelimiterVar.processMsg]
      cases flushed : MsgDelimiterVar.isFlushable progress.delimiter.bcb
          (around.msgSize (turn + 1)) with
      | error fault => exact before
      | ok flushable =>
          cases flushable with
          | false => exact before
          | true =>
              cases peeked : bcbRead progress.delimiter.bcb (objectBytes readSize)
                  kHeaderMsgSize false with
              | error fault => exact before
              | ok header =>
                  have read := keeps.readMessage progress (hostOrder header.2.1) before
                  simp only [attempt, bind, Except.bind, Bool.not_true, Bool.false_eq_true,
                    if_false]
                  cases result : Ethnm.readMessage progress (hostOrder header.2.1) with
                  | error stop =>
                      rw [result] at read
                      exact read
                  | ok next =>
                      rw [result] at read
                      simp only
                      split
                      · exact read
                      · exact ih _ _ _ (keeps.delivered _ _ _ _ _ read)

/-- The fixed-size drain loop keeps it, by induction on its fuel. -/
theorem Lasting.drain (around : Surroundings) (fixedSize : UInt16) (fuel turn : Nat)
    (progress : Progress) (before : kept progress)
    : kept (MsgDelimiterFixed.drain around fixedSize fuel turn progress).progress := by
  induction fuel generalizing turn progress with
  | zero => exact before
  | succ fuel ih =>
      have read := keeps.readMessage progress fixedSize before
      rw [MsgDelimiterFixed.drain]
      cases result : Ethnm.readMessage progress fixedSize with
      | error stop =>
          rw [result] at read
          exact read
      | ok next =>
          rw [result] at read
          simp only [bind, Except.bind]
          split
          · exact read
          · exact ih _ _ (keeps.delivered _ _ _ _ _ read)

/-- Both drain loops keep it. -/
theorem Lasting.processMsg (framing : Framing) (around : Surroundings) (fuel : Nat)
    (progress : Progress) (before : kept progress)
    : kept (framing.processMsg around fuel progress).progress := by
  cases framing with
  | var => exact keeps.processMsg_var around fuel 0 around.readSize progress before
  | fixed fixedSize =>
      simp only [Framing.processMsg, MsgDelimiterFixed.processMsg]
      cases MsgDelimiterFixed.isFlushable progress.delimiter.bcb fixedSize with
      | error fault => exact before
      | ok flushable =>
          cases flushable with
          | false => exact before
          | true => exact keeps.drain around fixedSize fuel 0 progress before

/-- A call of `Process` keeps it. -/
theorem Lasting.process (framing : Framing) (fuel : Nat) (around : Surroundings)
    (progress : Progress) (msg : List UInt8) (size : UInt16) (before : kept progress)
    : kept (process framing fuel around progress msg size).progress := by
  rw [Ethnm.process]
  cases accepted : bcbWrite progress.delimiter.bcb msg size with
  | error fault => exact before
  | ok written =>
      have wrote := keeps.written _ _ _ _ _ before accepted
      simp only [attempt, bind, Except.bind]
      split
      · exact wrote
      · cases framing.isFlushable written.1 (around.msgSize 0) with
        | error fault => exact wrote
        | ok flushable =>
            cases flushable with
            | false => exact wrote
            | true => exact keeps.processMsg framing around fuel _ wrote

/-- Feeding chunks keeps it, by induction on the chunks. -/
theorem Lasting.feed (framing : Framing) (fuel : Nat) (arrivals : List Arrival)
    (progress : Progress) (before : kept progress)
    : kept (feed framing fuel progress arrivals).progress := by
  induction arrivals generalizing progress with
  | nil => exact before
  | cons arrival rest ih =>
      have first := keeps.process framing fuel arrival.around progress arrival.chunk
        (.ofNat arrival.chunk.length) before
      rw [Ethnm.feed]
      cases result : Ethnm.process framing fuel arrival.around progress arrival.chunk
          (.ofNat arrival.chunk.length) with
      | error stop =>
          rw [result] at first
          exact first
      | ok next =>
          rw [result] at first
          exact ih next first

end Keeping

-----------------------------------------------------------------------------------------
-- Records
-----------------------------------------------------------------------------------------

/-- Nothing that one progress records is missing from the other. -/
structure Progress.Extends (progress other : Progress) : Prop where
  asked : progress.asked <+: other.asked
  iterations : progress.iterations <+: other.iterations

theorem Progress.Extends.refl (progress : Progress) : progress.Extends progress :=
  ⟨List.prefix_rfl, List.prefix_rfl⟩

/-- Every part of a call only adds to the record. -/
theorem lasting_extends (progress : Progress) : Lasting progress.Extends where
  written := fun _ _ _ _ _ extended _ => ⟨extended.asked, extended.iterations⟩
  asked := fun _ _ extended =>
    ⟨extended.asked.trans (List.prefix_append _ _), extended.iterations⟩
  taken := fun _ _ _ _ _ extended _ => ⟨extended.asked, extended.iterations⟩
  delivered := fun _ _ _ _ _ extended =>
    ⟨extended.asked, extended.iterations.trans (List.prefix_append _ _)⟩

/-- The variable-length drain loop only adds to the record. -/
theorem extends_processMsg_var (around : Surroundings) (fuel turn : Nat) (readSize : UInt16)
    (progress : Progress)
    : progress.Extends
        (MsgDelimiterVar.processMsg around fuel turn readSize progress).progress :=
  (lasting_extends progress).processMsg_var around fuel turn readSize progress (.refl progress)

/-- The fixed-size drain loop only adds to the record. -/
theorem extends_drain (around : Surroundings) (fixedSize : UInt16) (fuel turn : Nat)
    (progress : Progress)
    : progress.Extends
        (MsgDelimiterFixed.drain around fixedSize fuel turn progress).progress :=
  (lasting_extends progress).drain around fixedSize fuel turn progress (.refl progress)

/-- A call of `Process` only adds to the record. -/
theorem extends_process (framing : Framing) (fuel : Nat) (around : Surroundings)
    (progress : Progress) (msg : List UInt8) (size : UInt16)
    : progress.Extends (process framing fuel around progress msg size).progress :=
  (lasting_extends progress).process framing fuel around progress msg size (.refl progress)

theorem stream_concat (arrivals : List Arrival) (arrival : Arrival)
    : stream (arrivals ++ [arrival]) = stream arrivals ++ arrival.chunk := by
  rw [stream, stream, List.flatMap_append, List.flatMap_singleton]

end Ethnm
