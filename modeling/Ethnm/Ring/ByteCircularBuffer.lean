import Ethnm.Memory

/-! The byte ring of `ByteCircularBuffer.cpp`, field by field and branch by branch.
Sizes and positions are `uint16_t` and wrap as in C; every `memcpy` checks its ranges.
-/

namespace Ethnm

structure ByteCircularBuffer where
  buffer : List UInt8
  bufferSize : UInt16
  front : UInt16
  rear : UInt16
  currentSize : UInt16
  deriving DecidableEq, Repr

/-- Both allocations are `calloc`ed, so every cell starts at zero. -/
def bcbCreateNew (size : UInt16) : ByteCircularBuffer :=
  {
    buffer := List.replicate size.toNat 0
    bufferSize := size
    front := 0
    rear := 0
    currentSize := 0
  }

def bcbAvailableSize (bcb : ByteCircularBuffer) : UInt16 :=
  bcb.bufferSize - bcb.currentSize

def bcbIsFull (bcb : ByteCircularBuffer) : Bool :=
  bcb.currentSize == bcb.bufferSize

/-- Append `dataSize` bytes of `data`, or return zero and leave the ring alone. -/
def bcbWrite (bcb : ByteCircularBuffer) (data : List UInt8) (dataSize : UInt16)
    : Except Fault (ByteCircularBuffer × UInt16) :=
  if bcbIsFull bcb then
    .ok (bcb, 0)
  else if bcbAvailableSize bcb < dataSize then
    .ok (bcb, 0)
  else if bcb.front < bcb.rear then do
    let buffer ← memcpy bcb.buffer bcb.front.toNat data 0 dataSize.toNat
    let front := bcb.front + dataSize
    let front := if front = bcb.bufferSize then 0 else front
    return ({ bcb with buffer, front, currentSize := bcb.currentSize + dataSize }, dataSize)
  else
    let leadingSpace := bcb.bufferSize - bcb.front
    if dataSize ≤ leadingSpace then do
      let buffer ← memcpy bcb.buffer bcb.front.toNat data 0 dataSize.toNat
      let front := bcb.front + dataSize
      let front := if front = bcb.bufferSize then 0 else front
      return ({ bcb with buffer, front, currentSize := bcb.currentSize + dataSize }, dataSize)
    else do
      let buffer ← memcpy bcb.buffer bcb.front.toNat data 0 leadingSpace.toNat
      let buffer ←
        memcpy buffer 0 data leadingSpace.toNat (dataSize.toNat - leadingSpace.toNat)
      let front := dataSize - leadingSpace
      return ({ bcb with buffer, front, currentSize := bcb.currentSize + dataSize }, dataSize)

/-- Copy the `dataSize` oldest bytes into the caller's `buffer`, and drop them from the ring
when `removeReadBytes` is set. The result is the ring, the caller's buffer and the return
value.
-/
def bcbRead (bcb : ByteCircularBuffer) (buffer : List UInt8) (dataSize : UInt16)
    (removeReadBytes : Bool)
    : Except Fault (ByteCircularBuffer × List UInt8 × UInt16) :=
  if bcb.currentSize < dataSize then
    .ok (bcb, buffer, 0)
  else if bcb.rear < bcb.front then do
    let buffer ← memcpy buffer 0 bcb.buffer bcb.rear.toNat dataSize.toNat
    if removeReadBytes then
      let rear := bcb.rear + dataSize
      let rear := if rear = bcb.bufferSize then 0 else rear
      return ({ bcb with rear, currentSize := bcb.currentSize - dataSize }, buffer, dataSize)
    else
      return (bcb, buffer, dataSize)
  else
    let leadingSpace := bcb.bufferSize - bcb.rear
    if dataSize ≤ leadingSpace then do
      let buffer ← memcpy buffer 0 bcb.buffer bcb.rear.toNat dataSize.toNat
      if removeReadBytes then
        let rear := bcb.rear + dataSize
        let rear := if rear = bcb.bufferSize then 0 else rear
        return ({ bcb with rear, currentSize := bcb.currentSize - dataSize }, buffer, dataSize)
      else
        return (bcb, buffer, dataSize)
    else do
      let buffer ← memcpy buffer 0 bcb.buffer bcb.rear.toNat leadingSpace.toNat
      -- The second piece also goes to the start of the caller's buffer.
      let buffer ← memcpy buffer 0 bcb.buffer 0 (dataSize.toNat - leadingSpace.toNat)
      if removeReadBytes then
        let rear := dataSize - leadingSpace
        return ({ bcb with rear, currentSize := bcb.currentSize - dataSize }, buffer, dataSize)
      else
        return (bcb, buffer, dataSize)

def bcbReset (bcb : ByteCircularBuffer) : ByteCircularBuffer :=
  { bcb with currentSize := 0, front := 0, rear := 0 }

end Ethnm
