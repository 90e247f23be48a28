import Drv.Base.Bytes
import Drv.Base.Effect

/-!
# Hardware backends

What a driver's typed views are made over. A backend owns the raw
resources behind tokens of its own; `Method` is its interface, one
constructor per method with that method's arguments, and `Method.Ret`
the type of each answer.

A `Backend` is any interpretation of these methods over any state.
Whatever is proved of the views for all backends holds of the
deterministic test backend and of the Linux one alike.

`usize` is a natural number; the additions the source does not check are
`usizeAdd`, which wraps as the release build does.
-/

namespace Drv.Hardware

inductive Error where
  | invalid | outOfBounds | staleHandle | limit | deviceFault | timeout | unsupported

inductive DmaDirection where
  | toDevice | fromDevice | bidirectional
  deriving DecidableEq

def usizeMax : Nat := 2 ^ 64 - 1

/-- An addition of two `usize` values without an overflow check. -/
def usizeAdd (a b : Nat) : Nat := (a + b) % 2 ^ 64

def isPowerOfTwo (n : Nat) : Bool := n == 2 ^ n.log2

structure DmaConstraints where
  alignment : Nat
  maxDeviceAddress : Nat
  maxSegmentSize : Nat
  maxSegments : Nat

def DmaConstraints.new (alignment : Nat) : DmaConstraints :=
  { alignment, maxDeviceAddress := 2 ^ 64 - 1, maxSegmentSize := usizeMax, maxSegments := usizeMax }

/-- A half-open range of byte offsets. -/
structure Range where
  start : Nat
  stop : Nat

def Range.len (r : Range) : Nat := r.stop - r.start

structure IrqEvent where
  vector : UInt32
  count : UInt64
  atNs : UInt64

/-- The methods of a backend with the region, DMA and interrupt tokens
`R`, `D` and `I`. -/
inductive Method (R D I : Type) where
  | openRegion (index : UInt8)
  | readU32 (region : R) (offset : Nat)
  | writeU32 (region : R) (offset : Nat) (value : UInt32)
  | writeDmaAddress (region : R) (low : Nat) (high : Option Nat) (dma : D) (offset : Nat)
  | dmaDeviceAddress (dma : D) (offset : Nat)
  | allocDmaConstrained (size : Nat) (constraints : DmaConstraints) (direction : DmaDirection)
      (coherent : Bool)
  | dmaRead (dma : D) (range : Range)
  | dmaWrite (dma : D) (range : Range) (bytes : Bytes)
  | streamingCpuDirty (dma : D) (range : Range)
  | streamingCpuRead (dma : D) (range : Range)
  | dmaReadOnceU32 (dma : D) (offset : Nat)
  | dmaWriteOnceU32 (dma : D) (offset : Nat) (value : UInt32)
  | syncForCpu (dma : D) (range : Range)
  | syncForDevice (dma : D) (range : Range)
  | openInterrupt (vector : UInt32)
  | waitInterrupt (interrupt : I) (deadlineNs : UInt64)
  | pollInterrupt (interrupt : I)
  | waitAny (interrupts : List I) (deadlineNs : UInt64)
  | disableInterrupt (interrupt : I)
  | disableInterruptVector (vector : UInt32)
  | reset
  | releaseRegion (region : R)
  | releaseDma (dma : D)
  | releaseInterrupt (interrupt : I)

/-- What each method answers. A read fills a buffer of the range's own
length; a poll answers `none` while it is pending. -/
def Method.Ret {R D I : Type} : Method R D I → Type
  | openRegion _ => R
  | readU32 .. => UInt32
  | dmaDeviceAddress .. => UInt64
  | allocDmaConstrained .. => D
  | dmaRead _ range => List.Vector UInt8 range.len
  | dmaReadOnceU32 .. => UInt32
  | openInterrupt _ => I
  | waitInterrupt .. => Option IrqEvent
  | pollInterrupt _ => Option IrqEvent
  | waitAny .. => List IrqEvent
  | reset => UInt64
  | _ => Unit

/-- Any interpretation of the methods over the state `β`. -/
structure Backend (β R D I : Type) where
  generation : β → UInt64
  isCacheCoherent : β → Bool
  regionLen : β → R → UInt64
  exec : (m : Method R D I) → β → Except Error m.Ret × β

namespace Backend

variable {β R D I : Type} (B : Backend β R D I)

/-- The same backend beside a value its callers hold. -/
def beside (S : Type) : Backend (β × S) R D I where
  generation s := B.generation s.1
  isCacheCoherent s := B.isCacheCoherent s.1
  regionLen s := B.regionLen s.1
  exec m s := ((B.exec m s.1).1, ((B.exec m s.1).2, s.2))

/-- Call a method. -/
def perform (m : Method R D I) : Eff β (Method R D I) Error m.Ret := Eff.call m (B.exec m)

/-- A handle of another generation is stale. -/
def current (generation : UInt64) : Eff β (Method R D I) Error Unit := do
  if (← Eff.look B.generation) = generation then pure () else Eff.fail .staleHandle

/-- A cache operation that a coherent device does without. -/
def unlessCoherent (x : Eff β (Method R D I) Error Unit) : Eff β (Method R D I) Error Unit := do
  if ← Eff.look B.isCacheCoherent then pure () else x

end Backend

def checkedRange (offset length total : Nat) : Except Error Range :=
  if offset + length < 2 ^ 64 ∧ offset + length ≤ total then .ok ⟨offset, offset + length⟩
  else .error .outOfBounds

end Drv.Hardware
