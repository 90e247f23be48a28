import Drv.Base.Slices

/-!
# The byte buffers of a TCP socket

A receive buffer keeps the bytes the client may read, and behind them
bytes that came out of order. A send buffer keeps what the client wrote
and the peer did not acknowledge; sealing it hands over a last remainder.

The deque shows its bytes as two slices. Where it is split depends on its
history, so each use takes the split as an argument. A failed assertion is
`none`. Sums of lengths are those of 64 bits where a caller's number can
make them overflow.
-/

namespace Drv.Net

def tcpTerminalAllowance : Nat := 256 * 1024 + 16384

/-- Errors of the core. -/
inductive RuntimeError where
  | invalidCapacity
  | invalidMac
  | invalidMtu
  | invalidAddress
  | addressInUse
  | socketLimit
  | unknownSocket
  | invalidState
  | wouldBlock
  | sendFailed
  | payloadTooLarge
  | networkUnreachable
  | hostUnreachable
  | connectionRefused
  | connectionPending
  | alreadyConnected
  | timedOut
  | permissionDenied
  | notSupported
  | invalidLease
  deriving DecidableEq

namespace TcpBuffers

def tcpBufferCapacity : Nat := 256 * 1024

structure TcpStorage where
  bytes : Bytes
  readable : Nat
  capacity : Nat
  targetCapacity : Nat

def asSlices (split : Nat) (bytes : Bytes) : Bytes × Bytes := (bytes.take split, bytes.drop split)

namespace TcpStorage

def ofSize (size : Nat) : TcpStorage := ⟨[], 0, size, size⟩

variable (s : TcpStorage)

def requestCapacity (size : Nat) : TcpStorage :=
  let size := min size tcpBufferCapacity
  { s with
    targetCapacity := size
    -- space that holds bytes is never given up
    capacity := if size ≥ s.capacity ∨ s.bytes = [] then size else s.capacity }

def consume (count : Nat) : TcpStorage :=
  { s with
    bytes := s.bytes.drop count
    readable := s.readable - count
    capacity := if s.bytes.drop count = [] then s.targetCapacity else s.capacity }

/-! ### The receive side -/

/-- The bytes of a deque with `data` copied over them from `start` on. -/
def copySlices (split start count : Nat) (data bytes : Bytes) : Bytes :=
  let (a, b) := asSlices split bytes
  let first := min count (a.length - start)
  let a := if first ≠ 0 then Bytes.copyAt a start (data.take first) else a
  let b := if first ≠ count then
      Bytes.copyAt b (start - a.length) ((data.drop first).take (count - first))
    else b
  a ++ b

/-- How much is taken of a payload, and from where on it is stored. -/
def writable (offset len : Nat) : Nat × Nat :=
  let start := (s.readable + offset) % 2 ^ 64
  (start, min len (s.capacity - start))

def writeAt (offset : Nat) (data : Bytes) (split : Nat) : Nat × TcpStorage :=
  let (start, count) := s.writable offset data.length
  if count = 0 then (0, s)
  else
    let len := max s.bytes.length (start + count)
    let bytes := s.bytes ++ List.replicate (len - s.bytes.length) 0
    (count, { s with bytes := copySlices split start count data bytes })

def makeReadable (count : Nat) : Option TcpStorage :=
  if s.readable + count ≤ s.capacity then some { s with readable := s.readable + count } else none

def read (len split : Nat) : Bytes × TcpStorage :=
  let n := min len s.readable
  let (a, b) := asSlices split s.bytes
  let first := min n a.length
  (a.take first ++ b.take (n - first), s.consume n)

end TcpStorage

/-! ## The send side -/

inductive SendBufferState where
  | running (s : TcpStorage)
  | shuttingDown (s : TcpStorage)

namespace SendBufferState

def storage : SendBufferState → TcpStorage
  | .running s => s
  | .shuttingDown s => s

def onStorage (f : TcpStorage → TcpStorage) : SendBufferState → SendBufferState
  | .running s => .running (f s)
  | .shuttingDown s => .shuttingDown (f s)

variable (b : SendBufferState)

def markRead (count : Nat) : Option SendBufferState :=
  if count ≤ b.storage.readable then some (b.onStorage (·.consume count)) else none

/-- The bytes of the payload at `offset`, sliced to a range of it. The
range of a payload is converted to 32 bits. -/
def peekWith (offset start stop split : Nat) : Option Bytes :=
  let s := b.storage
  if offset ≤ s.readable ∧ start ≤ stop ∧ stop ≤ s.readable - offset then
    let (x, y) := asSlices split s.bytes
    some (((x ++ y).take ((offset + stop) % 2 ^ 32)).drop ((offset + start) % 2 ^ 32))
  else none

def write (bytes : Bytes) : Nat × SendBufferState :=
  match b with
  | .shuttingDown _ => (0, b)
  | .running s =>
    let n := min bytes.length (s.capacity - s.readable)
    (n, .running { s with bytes := s.bytes ++ bytes.take n, readable := s.readable + n })

/-- `reserved` is whether the memory was found. -/
def finishWrite (admitted : Bytes) (reserved : Bool) : Except RuntimeError SendBufferState :=
  if admitted.length > tcpTerminalAllowance then .error .socketLimit
  else
    match b with
    | .shuttingDown _ => if admitted = [] then .ok b else .error .invalidState
    | .running s =>
      if !reserved then .error .socketLimit
      else
        let readable := s.readable + admitted.length
        .ok (.shuttingDown { s with
          bytes := s.bytes ++ admitted, readable, capacity := max s.capacity readable })

end SendBufferState

end TcpBuffers

end Drv.Net
