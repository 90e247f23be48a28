import Drv.Hardware.World

/-!
# Operations on handles

Every operation of the typed views as one type, with the handles it is
asked of. Drops are left out: they answer nothing.
-/

namespace Drv.Hardware

/-- What a backend knows of a handle: its token, and the generation it
was issued in. -/
inductive Handle (R D I : Type) where
  | region (token : R) (generation : UInt64)
  | dma (token : D) (generation : UInt64)
  | interrupt (token : I) (generation : UInt64)

section
variable {R D I : Type}

def Handle.generation : Handle R D I → UInt64
  | region _ g | dma _ g | interrupt _ g => g

def MmioRegion.handle (r : MmioRegion R) : Handle R D I := .region r.allocation.token r.generation
def DmaBuffer.handle (b : DmaBuffer D) : Handle R D I := .dma b.allocation.token b.generation
def Interrupt.handle (i : Interrupt I) : Handle R D I := .interrupt i.token i.generation

end

inductive ViewOp (R D I : Type) where
  | slice (r : MmioRegion R) (offset len : Nat)
  | mapOffsets (r : MmioRegion R) (mapper : Nat → Option Nat)
  | readU32 (r : MmioRegion R) (offset : Nat)
  | writeU32 (r : MmioRegion R) (offset : Nat) (value : UInt32)
  | writeDeviceAddress (r : MmioRegion R) (low : Nat) (high : Option Nat)
      (address : DeviceAddress D)
  | splitAt (b : DmaBuffer D) (offset : Nat)
  | deviceAddressAt (b : DmaBuffer D) (offset : Nat)
  | access (b : DmaBuffer D) (op : DmaOp)
  | disable (i : Interrupt I)
  | waitUntil (i : Interrupt I) (deadlineNs : UInt64)
  | next (i : Interrupt I)
  | waitAny (interrupts : List (Interrupt I)) (deadlineNs : UInt64)

namespace ViewOp

variable {β R D I : Type}

def handles : ViewOp R D I → List (Handle R D I)
  | slice r .. | mapOffsets r _ | readU32 r _ | writeU32 r .. => [r.handle]
  | writeDeviceAddress r _ _ address => [r.handle, address.dma.handle]
  | splitAt b _ | deviceAddressAt b _ | access b _ => [b.handle]
  | disable i | waitUntil i _ | next i => [i.handle]
  | waitAny interrupts _ => interrupts.map Interrupt.handle

/-- Run an operation; its answer is of no concern here. -/
def run (B : Backend β R D I) : ViewOp R D I → Hw β R D I Unit
  | slice r offset len => do let _ ← r.slice B offset len
  | mapOffsets r mapper => do let _ ← Eff.ofExcept (r.mapOffsets mapper)
  | readU32 r offset => do let _ ← r.readU32 B offset
  | writeU32 r offset value => r.writeU32 B offset value
  | writeDeviceAddress r low high address => r.writeDeviceAddress B low high address
  | splitAt b offset => do let _ ← b.splitAt B offset
  | deviceAddressAt b offset => do let _ ← b.deviceAddressAt B offset
  | access b op => fun s =>
    let o := op.run B (s, b)
    ⟨o.result, o.state.1, o.calls⟩
  | disable i => i.disable B
  | waitUntil i deadlineNs => do let _ ← i.waitUntil B deadlineNs
  | next i => do let _ ← i.next B
  | waitAny interrupts deadlineNs => do let _ ← Interrupt.waitAny B interrupts deadlineNs

end ViewOp

end Drv.Hardware
