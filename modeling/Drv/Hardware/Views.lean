import Drv.Hardware.Backend

/-!
# Typed views of hardware resources

The handles a driver holds: MMIO windows, DMA buffers and interrupts,
each bounded and tied to the device generation it was issued in. Every
method is written as the crate has it, with its checks in its order; a
method that writes through `&mut self` runs beside the buffer it may
change, so a shadow updated before a failing call stays updated.

Handles share their allocation by reference. `id` is the identity of that
shared allocation, `shared` that of the backend behind it; `size` records
how much the backend handed out, which the source leaves to the first
view's length.
-/

namespace Drv.Hardware

open Eff (fail look ofExcept)

abbrev Hw (β R D I α : Type) := Eff β (Method R D I) Error α

/-! ## MMIO windows -/

structure RegionAllocation (R : Type) where
  shared : Nat
  id : Nat
  token : R
  size : Nat

structure MmioRegion (R : Type) where
  allocation : RegionAllocation R
  generation : UInt64
  offset : Nat
  len : Nat
  offsetMapper : Option (Nat → Option Nat)

structure DmaAllocation (D : Type) where
  shared : Nat
  id : Nat
  token : D
  size : Nat

/-- One view of a DMA allocation with its CPU shadow. -/
structure DmaBuffer (D : Type) where
  allocation : DmaAllocation D
  generation : UInt64
  offset : Nat
  alignment : Nat
  bytes : Bytes

/-- A device address obtained from a buffer, which it borrows. -/
structure DeviceAddress (D : Type) where
  dma : DmaBuffer D
  offset : Nat
  bits : UInt64

structure Interrupt (I : Type) where
  shared : Nat
  token : I
  generation : UInt64

section
variable {β R D I : Type} (B : Backend β R D I)

namespace MmioRegion

/-- Map a region; the view covers all of it. -/
def openRegion (shared id : Nat) (index : UInt8) : Hw β R D I (MmioRegion R) := do
  let generation ← look B.generation
  let token ← B.perform (.openRegion index)
  let len ← look (fun s => B.regionLen s token)
  return { allocation := ⟨shared, id, token, len.toNat⟩, generation, offset := 0,
           len := len.toNat, offsetMapper := none }

def openRegionSized (shared id : Nat) (index : UInt8) (expectedSize : Nat) :
    Hw β R D I (MmioRegion R) :=
  if expectedSize = 0 then fail .invalid
  else do
    let region ← openRegion B shared id index
    if region.len ≠ expectedSize then do
      -- the only view is dropped with the error
      let _ ← (B.perform (.releaseRegion region.allocation.token)).attempt
      fail .outOfBounds
    else return region

variable (r : MmioRegion R)

def slice (offset len : Nat) : Hw β R D I (MmioRegion R) :=
  if r.offsetMapper.isSome then fail .invalid
  else do
    let range ← ofExcept (checkedRange offset len r.len)
    B.current r.generation
    if r.offset + range.start < 2 ^ 64 then
      return { r with offset := r.offset + range.start, len := range.len, offsetMapper := none }
    else fail .outOfBounds

def mapOffsets (mapper : Nat → Option Nat) : Except Error (MmioRegion R) :=
  if r.offsetMapper.isSome then .error .invalid
  else .ok { r with offsetMapper := some mapper }

/-- The view's address translation. -/
def translate (offset : Nat) : Except Error Nat :=
  match r.offsetMapper with
  | some mapper => match mapper offset with
    | some mapped => .ok mapped
    | none => .error .outOfBounds
  | none => .ok offset

def mappedOffset (offset width : Nat) : Hw β R D I Nat := do
  B.current r.generation
  if offset % 4 ≠ 0 then fail .invalid
  else do
    let mapped ← ofExcept (r.translate offset)
    if mapped % 4 ≠ 0 then fail .invalid
    else do
      let _ ← ofExcept (checkedRange mapped width r.len)
      return mapped

def readU32 (offset : Nat) : Hw β R D I UInt32 := do
  let offset ← mappedOffset B r offset 4
  B.perform (.readU32 r.allocation.token (usizeAdd r.offset offset))

def writeU32 (offset : Nat) (value : UInt32) : Hw β R D I Unit := do
  let offset ← mappedOffset B r offset 4
  B.perform (.writeU32 r.allocation.token (usizeAdd r.offset offset) value)

def mappedHigh : Option Nat → Hw β R D I (Option Nat)
  | some offset => do return some (← mappedOffset B r offset 4)
  | none => return none

def writeDeviceAddress (low : Nat) (high : Option Nat) (address : DeviceAddress D) :
    Hw β R D I Unit := do
  let low ← mappedOffset B r low 4
  let high ← mappedHigh B r high
  if r.allocation.shared ≠ address.dma.allocation.shared then fail .invalid
  else do
    B.current address.dma.generation
    B.perform (.writeDmaAddress r.allocation.token (usizeAdd r.offset low)
      (high.map (usizeAdd r.offset)) address.dma.allocation.token address.offset)

end MmioRegion

/-! ## DMA buffers -/

namespace DmaBuffer

variable (b : DmaBuffer D)

def len : Nat := b.bytes.length

/-- Zero the storage through the backend, for the device too. -/
def zeroFill (token : D) (size : Nat) (coherent : Bool) : Hw β R D I Unit := do
  let _ ← B.perform (.dmaWrite token ⟨0, size⟩ (List.replicate size 0))
  if coherent then return ()
  else B.unlessCoherent (B.perform (.syncForDevice token ⟨0, size⟩))

/-- Allocate and zero-fill. A failure after the allocation releases it. -/
def allocate (shared id size : Nat) (constraints : DmaConstraints) (dir : DmaDirection)
    (coherent : Bool) : Hw β R D I (DmaBuffer D) :=
  if size = 0 ∨ constraints.alignment = 0 ∨ ¬ isPowerOfTwo constraints.alignment then
    fail .invalid
  else do
    let generation ← look B.generation
    let token ← B.perform (.allocDmaConstrained size constraints dir coherent)
    match ← (zeroFill B token size coherent).attempt with
    | .error e => do
      let _ ← (B.perform (.releaseDma token)).attempt
      fail e
    | .ok _ => return { allocation := ⟨shared, id, token, size⟩, generation, offset := 0,
                        alignment := constraints.alignment, bytes := List.replicate size 0 }

def range (o n : Nat) : Hw β R D I Range := do
  B.current b.generation
  ofExcept (checkedRange o n b.len)

def backendRange (r : Range) : Range := ⟨usizeAdd b.offset r.start, usizeAdd b.offset r.stop⟩

def splitAt (offset : Nat) : Hw β R D I (DmaBuffer D × DmaBuffer D) := do
  B.current b.generation
  if offset = 0 ∨ b.len ≤ offset ∨ offset % b.alignment ≠ 0 then fail .invalid
  else return ({ b with bytes := b.bytes.take offset },
    { b with offset := usizeAdd b.offset offset, bytes := b.bytes.drop offset })

/-- The range of a plain value of the given size and alignment. -/
def podRange (size align offset : Nat) : Hw β R D I Range :=
  if size = 0 ∨ usizeAdd b.offset offset % align ≠ 0 then fail .invalid
  else b.range B offset size

def deviceAddressAt (offset : Nat) : Hw β R D I (DeviceAddress D) :=
  if b.len ≤ offset then fail .outOfBounds
  else do
    let bits ← B.perform (.dmaDeviceAddress b.allocation.token (usizeAdd b.offset offset))
    return { dma := b, offset := usizeAdd b.offset offset, bits }

/-- Overwrite part of the CPU shadow, which keeps its length. -/
def store (start : Nat) (data : Bytes) : DmaBuffer D :=
  { b with bytes := b.bytes.take start ++ data.take (b.len - start) ++
      b.bytes.drop (start + data.length) }

/-- The shadow bytes of a range. -/
def load (r : Range) : Bytes := (b.bytes.drop r.start).take r.len

end DmaBuffer

/-- An operation through `&mut self`: it runs beside the buffer. -/
abbrev Mut (β R D I α : Type) := Eff (β × DmaBuffer D) (Method R D I) Error α

namespace Mut

def self : Mut β R D I (DmaBuffer D) := look Prod.snd

def store (start : Nat) (data : Bytes) : Mut β R D I Unit :=
  Eff.modify fun s => (s.1, s.2.store start data)

end Mut

open Mut

/-- A 32-bit value in the byte order of the host. -/
def u32Bytes (value : UInt32) : Bytes := Bytes.ofNatLE 4 value.toNat

namespace CoherentDma

def write (offset : Nat) (bytes : Bytes) : Mut β R D I Unit := do
  let b ← self
  let r ← b.range (B.beside _) offset bytes.length
  store r.start bytes
  (B.beside _).perform (.dmaWrite b.allocation.token (b.backendRange r) bytes)

def writePod (align offset : Nat) (value : Bytes) : Mut β R D I Unit := do
  let b ← self
  let r ← b.podRange (B.beside _) value.length align offset
  store r.start value
  (B.beside _).perform (.dmaWrite b.allocation.token (b.backendRange r) value)

def writeOnce (offset : Nat) (value : UInt32) : Mut β R D I Unit := do
  let b ← self
  let r ← b.podRange (B.beside _) 4 4 offset
  (B.beside _).perform (.dmaWriteOnceU32 b.allocation.token (b.backendRange r).start value)
  store r.start (u32Bytes value)

def read (offset len : Nat) : Mut β R D I Bytes := do
  let b ← self
  let r ← b.range (B.beside _) offset len
  let out ← (B.beside _).perform (.dmaRead b.allocation.token (b.backendRange r))
  store r.start out.toList
  return out.toList

def readPod (size align offset : Nat) : Mut β R D I Bytes := do
  let b ← self
  let r ← b.podRange (B.beside _) size align offset
  let out ← (B.beside _).perform (.dmaRead b.allocation.token (b.backendRange r))
  store r.start out.toList
  return (← self).load r

def readOnce (offset : Nat) : Mut β R D I UInt32 := do
  let b ← self
  let r ← b.podRange (B.beside _) 4 4 offset
  let value ← (B.beside _).perform
    (.dmaReadOnceU32 b.allocation.token (b.backendRange r).start)
  store r.start (u32Bytes value)
  return value

end CoherentDma

namespace StreamingDma

def write (offset : Nat) (bytes : Bytes) : Mut β R D I Unit := do
  let b ← self
  let r ← b.range (B.beside _) offset bytes.length
  store r.start bytes
  (B.beside _).perform (.streamingCpuDirty b.allocation.token (b.backendRange r))

def writePod (align offset : Nat) (value : Bytes) : Mut β R D I Unit := do
  let b ← self
  let r ← b.podRange (B.beside _) value.length align offset
  store r.start value
  (B.beside _).perform (.streamingCpuDirty b.allocation.token (b.backendRange r))

def writeOnce (offset : Nat) (value : UInt32) : Mut β R D I Unit := do
  let b ← self
  let r ← b.podRange (B.beside _) 4 4 offset
  (B.beside _).perform (.dmaWriteOnceU32 b.allocation.token (b.backendRange r).start value)
  (B.beside _).unlessCoherent
    ((B.beside _).perform (.syncForDevice b.allocation.token (b.backendRange r)))
  store r.start (u32Bytes value)

variable (offset length : Nat)

def syncForDevice : Mut β R D I Unit := do
  let b ← self
  let r ← b.range (B.beside _) offset length
  (B.beside _).perform (.dmaWrite b.allocation.token (b.backendRange r) (b.load r))
  (B.beside _).unlessCoherent
    ((B.beside _).perform (.syncForDevice b.allocation.token (b.backendRange r)))

def acquireForCpu : Mut β R D I Unit := do
  let b ← self
  let r ← b.range (B.beside _) offset length
  (B.beside _).unlessCoherent
    ((B.beside _).perform (.syncForCpu b.allocation.token (b.backendRange r)))

def refreshForCpu : Mut β R D I Unit := do
  let b ← self
  let r ← b.range (B.beside _) offset length
  let out ← (B.beside _).perform (.dmaRead b.allocation.token (b.backendRange r))
  store r.start out.toList

def syncForCpu : Mut β R D I Unit := do
  acquireForCpu B offset length
  refreshForCpu B offset length

def read (offset len : Nat) : Mut β R D I Bytes := do
  let b ← self
  let r ← b.range (B.beside _) offset len
  (B.beside _).perform (.streamingCpuRead b.allocation.token (b.backendRange r))
  return b.load r

def readPod (size align offset : Nat) : Mut β R D I Bytes := do
  let b ← self
  let r ← b.podRange (B.beside _) size align offset
  (B.beside _).perform (.streamingCpuRead b.allocation.token (b.backendRange r))
  return b.load r

def readOnce (offset : Nat) : Mut β R D I UInt32 := do
  let b ← self
  let r ← b.podRange (B.beside _) 4 4 offset
  (B.beside _).unlessCoherent
    ((B.beside _).perform (.syncForCpu b.allocation.token (b.backendRange r)))
  let value ← (B.beside _).perform
    (.dmaReadOnceU32 b.allocation.token (b.backendRange r).start)
  store r.start (u32Bytes value)
  return value

def prepareForDevice : Mut β R D I Unit := do
  let b ← self
  let r ← b.range (B.beside _) offset length
  (B.beside _).unlessCoherent
    ((B.beside _).perform (.syncForDevice b.allocation.token (b.backendRange r)))

end StreamingDma

/-! ## Interrupts -/

namespace Interrupt

variable (i : Interrupt I)

def disable : Hw β R D I Unit := do
  B.current i.generation
  B.perform (.disableInterrupt i.token)

def waitUntil (deadlineNs : UInt64) : Hw β R D I (Option IrqEvent) := do
  B.current i.generation
  B.perform (.waitInterrupt i.token deadlineNs)

/-- One poll of the future `next` answers. -/
def next : Hw β R D I (Option IrqEvent) := do
  B.current i.generation
  B.perform (.pollInterrupt i.token)

/-- The checks of `waitAny`, one interrupt after the other. -/
def checkAll (shared : Nat) : List (Interrupt I) → Hw β R D I Unit
  | [] => return ()
  | i :: rest => do
    if shared ≠ i.shared then fail .invalid
    else do
      B.current i.generation
      checkAll shared rest

def waitAny (interrupts : List (Interrupt I)) (deadlineNs : UInt64) : Hw β R D I (List IrqEvent) :=
  match interrupts with
  | [] => fail .invalid
  | first :: _ => do
    checkAll B first.shared interrupts
    B.perform (.waitAny (interrupts.map token) deadlineNs)

end Interrupt

end

end Drv.Hardware
