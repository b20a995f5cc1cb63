import Ethnm.Ring.ByteCircularBuffer

/-! Message delimiters: `MsgDelimiter::Process` with the variable-length and the fixed-size
`IsFlushable` and `ProcessMsg`. Both `while` loops run on fuel; what a call asked for and
delivered is kept also when the call aborts or is still looping.
-/

namespace Ethnm

def kBcbSize : UInt16 := 10240
def kBufferSize : Nat := 1024
def kHeaderMsgSize : UInt16 := 2

structure MsgDelimiter where
  bcb : ByteCircularBuffer
  buf : List UInt8

def MsgDelimiter.create (bufLen : UInt16) : MsgDelimiter :=
  { bcb := bcbCreateNew bufLen, buf := List.replicate kBufferSize 0 }

-----------------------------------------------------------------------------------------
-- What a call depends on besides its arguments, and what it leaves behind
-----------------------------------------------------------------------------------------

/-- The values that the code does not determine during one call of `Process`: the contents
of its uninitialised locals, and the bytes that the application's callback leaves in the
message buffer it is given.
-/
structure Surroundings where
  msgSize : Nat → UInt16
  readSize : UInt16
  received : Nat → List UInt8 → List UInt8
  length_received : ∀ turn buf, (received turn buf).length = buf.length

/-- Surroundings in which the high bytes of the two-byte locals hold the given values, and
the callback leaves the message buffer alone.
-/
def Surroundings.holding (seen stale : UInt8) : Surroundings where
  msgSize := fun _ => .ofNat (256 * seen.toNat)
  readSize := .ofNat (256 * stale.toNat)
  received := fun _ buf => buf
  length_received := fun _ _ => rfl

/-- A finished turn of a drain loop: `currentSize` around it, and the callback's arguments. -/
structure Iteration where
  before : UInt16
  after : UInt16
  msg : List UInt8
  len : UInt16
  deriving DecidableEq, Repr

/-- The delimiter together with every size asked of `BCBRead` for `buf`, and every finished
turn of the drain loop.
-/
structure Progress where
  delimiter : MsgDelimiter
  asked : List UInt16
  iterations : List Iteration

/-- Why a call has not returned. -/
inductive Stop
  | aborted (fault : Fault)
  | looping
  deriving DecidableEq, Repr

abbrev Outcome := Except (Stop × Progress) Progress

/-- What has happened so far, whether or not the call has returned. -/
def Outcome.progress : Outcome → Progress
  | .ok progress => progress
  | .error (_, progress) => progress

def attempt {α : Type} (progress : Progress) : Except Fault α → Except (Stop × Progress) α
  | .ok value => .ok value
  | .error fault => .error (.aborted fault, progress)

/-- `BCBRead(bcb, buf, dataSize, true)`. -/
def readMessage (progress : Progress) (dataSize : UInt16)
    : Except (Stop × Progress) (Progress × UInt16) := do
  let progress := { progress with asked := progress.asked ++ [dataSize] }
  let (bcb, buf, read) ←
    attempt progress (bcbRead progress.delimiter.bcb progress.delimiter.buf dataSize true)
  return ({ progress with delimiter := { bcb, buf } }, read)

/-- `received(server, client, buf, len)`, which ends a turn that began with `before` bytes. -/
def deliver (around : Surroundings) (turn : Nat) (before len : UInt16) (progress : Progress)
    : Progress :=
  let ⟨bcb, buf⟩ := progress.delimiter
  let iteration := { before, after := bcb.currentSize, msg := buf.take len.toNat, len }
  {
    progress with
    delimiter := { bcb, buf := around.received turn buf }
    iterations := progress.iterations ++ [iteration]
  }

-----------------------------------------------------------------------------------------
-- Variable-length messages
-----------------------------------------------------------------------------------------

/-- The two bytes of a sixteen-bit object on a little-endian host. -/
def objectBytes (value : UInt16) : List UInt8 :=
  [.ofNat value.toNat, .ofNat (value.toNat / 256)]

/-- The sixteen-bit object with the given two bytes. -/
def hostOrder (bytes : List UInt8) : UInt16 :=
  .ofNat ((bytes.getD 0 0).toNat + 256 * (bytes.getD 1 0).toNat)

namespace MsgDelimiterVar

/-- `msgSize` is what the uninitialised local of that name holds. -/
def isFlushable (bcb : ByteCircularBuffer) (msgSize : UInt16) : Except Fault Bool :=
  if bcb.currentSize ≤ kHeaderMsgSize then
    .ok false
  else do
    let (_, header, _) ← bcbRead bcb (objectBytes msgSize) kHeaderMsgSize false
    return decide (hostOrder header ≤ bcb.currentSize)

/-- `readSize` is uninitialised at first, and keeps its value from turn to turn. -/
def processMsg (around : Surroundings)
    : (fuel turn : Nat) → (readSize : UInt16) → Progress → Outcome
  | 0, _, _, progress => throw (.looping, progress)
  | fuel + 1, turn, readSize, progress => do
      let bcb := progress.delimiter.bcb
      let flushable ← attempt progress (isFlushable bcb (around.msgSize (turn + 1)))
      if !flushable then
        return progress
      let (_, header, _) ←
        attempt progress (bcbRead bcb (objectBytes readSize) kHeaderMsgSize false)
      let readSize := hostOrder header
      let (progress, read) ← readMessage progress readSize
      if readSize ≠ read then
        throw (.aborted .assertionFailed, progress)
      processMsg around fuel (turn + 1) readSize
        (deliver around turn bcb.currentSize readSize progress)

end MsgDelimiterVar

-----------------------------------------------------------------------------------------
-- Fixed-size messages
-----------------------------------------------------------------------------------------

namespace MsgDelimiterFixed

def isFlushable (bcb : ByteCircularBuffer) (fixedSize : UInt16) : Except Fault Bool :=
  if fixedSize = 0 then
    .error .divisionByZero
  else
    .ok (decide (bcb.currentSize / fixedSize > 0))

/-- `while (read_size = BCBRead(bcb, buf, fixed_size, true))`. -/
def drain (around : Surroundings) (fixedSize : UInt16)
    : (fuel turn : Nat) → Progress → Outcome
  | 0, _, progress => throw (.looping, progress)
  | fuel + 1, turn, progress => do
      let before := progress.delimiter.bcb.currentSize
      let (progress, readSize) ← readMessage progress fixedSize
      if readSize = 0 then
        return progress
      drain around fixedSize fuel (turn + 1) (deliver around turn before readSize progress)

def processMsg (around : Surroundings) (fixedSize : UInt16) (fuel : Nat)
    (progress : Progress)
    : Outcome := do
  let flushable ← attempt progress (isFlushable progress.delimiter.bcb fixedSize)
  if !flushable then
    return progress
  drain around fixedSize fuel 0 progress

end MsgDelimiterFixed

-----------------------------------------------------------------------------------------
-- The common part
-----------------------------------------------------------------------------------------

/-- The two subclasses of `MsgDelimiter`. -/
inductive Framing
  | var
  | fixed (fixedSize : UInt16)
  deriving DecidableEq, Repr

def Framing.isFlushable (bcb : ByteCircularBuffer) (msgSize : UInt16)
    : Framing → Except Fault Bool
  | .var => MsgDelimiterVar.isFlushable bcb msgSize
  | .fixed fixedSize => MsgDelimiterFixed.isFlushable bcb fixedSize

def Framing.processMsg (around : Surroundings) (fuel : Nat) (progress : Progress)
    : Framing → Outcome
  | .var => MsgDelimiterVar.processMsg around fuel 0 around.readSize progress
  | .fixed fixedSize => MsgDelimiterFixed.processMsg around fixedSize fuel progress

/-- `MsgDelimiter::Process`. The ring is written inside an `assert`. -/
def process (framing : Framing) (fuel : Nat) (around : Surroundings) (progress : Progress)
    (msg : List UInt8) (size : UInt16)
    : Outcome := do
  let (bcb, written) ← attempt progress (bcbWrite progress.delimiter.bcb msg size)
  let progress := { progress with delimiter := { progress.delimiter with bcb } }
  if written = 0 then
    throw (.aborted .assertionFailed, progress)
  let flushable ← attempt progress (framing.isFlushable bcb (around.msgSize 0))
  if !flushable then
    return progress
  framing.processMsg around fuel progress

-----------------------------------------------------------------------------------------
-- Chunks arriving in order
-----------------------------------------------------------------------------------------

/-- A received chunk and the surroundings of the call that processes it. -/
structure Arrival where
  chunk : List UInt8
  around : Surroundings
  nonempty : 0 < chunk.length
  sized : chunk.length ≤ kBufferSize

/-- The bytes received by a list of calls. -/
def stream (arrivals : List Arrival) : List UInt8 :=
  arrivals.flatMap Arrival.chunk

/-- Each chunk is handed over once the call before has returned. -/
def feed (framing : Framing) (fuel : Nat) : Progress → List Arrival → Outcome
  | progress, [] => .ok progress
  | progress, arrival :: rest => do
      let progress ←
        process framing fuel arrival.around progress arrival.chunk
          (.ofNat arrival.chunk.length)
      feed framing fuel progress rest

/-- A delimiter as both subclasses construct it, before any call. -/
def fresh : Progress :=
  { delimiter := .create kBcbSize, asked := [], iterations := [] }

end Ethnm
