import Mathlib.Data.List.AList
import Drv.Vfio.Kernel

/-!
# State of the Linux VFIO backend

`LinuxVfio` as the crate has it: tables from handles to owned mappings,
one per kind of resource, a quarantine for DMA mappings whose release
failed, and the counters that number handles and device addresses. The
three flavours differ in how DMA memory is given to the device: two map
it in an IOAS, one asks a broker in the kernel.

A method that fails keeps what it changed; a value that goes out of scope
on the way is dropped where the source drops it. Hash maps are walked in
the platform's order. Descriptors, diagnostics and fences are left out.
-/

namespace Drv.Vfio

open Drv.Hardware (Error DmaDirection)

def firstIova : Nat := 0x01000000

inductive Flavor where
  | coherent | pciCoherent | broker
  deriving DecidableEq

inductive DmaMemory where
  | ioas (mapping : DmaMapping)
  | brokerCoherent (mapping : Mapping)
  | brokerStreaming (mapping : Mapping)

structure Dma where
  memory : DmaMemory
  iova : Nat
  len : Nat
  direction : DmaDirection
  brokerHandle : Option Nat

/-- A hash map keyed by handles. -/
abbrev Table (V : Type) := AList (fun _ : Nat => V)

structure LinuxVfio where
  flavor : Flavor
  pciIrq : Option IrqCapability
  generation : UInt64
  nextId : Nat
  nextIova : Nat
  regions : Table RegionMapping
  dmas : Table Dma
  quarantinedDmas : Table Dma
  interrupts : Table (UInt32 × VfioIrq)
  interruptWaiters : List Nat
  ambiguousIrqIndices : List UInt32
  preparedIrqs : Option (List InterruptEvent)
  trace : Trace

abbrev Vf (α : Type) := Eff LinuxVfio Empty Error α

/-- Ask the kernel from the backend. -/
def sys {α : Type} (x : Sys α) : Vf α := fun s =>
  ⟨.ok (x s.trace).1, { s with trace := (x s.trace).2 }, []⟩

namespace DmaMemory

/-- The mapping behind an allocation, for the CPU. -/
def view : DmaMemory → Mapping
  | ioas m => ⟨m.memory, m.len, m.mapped⟩
  | brokerCoherent m | brokerStreaming m => m

/-- The drop of the memory of an allocation. -/
def drop (P : Platform) : DmaMemory → Sys Unit
  | ioas m => do
    let _ ← m.teardown P
  | brokerCoherent m | brokerStreaming m => do
    let _ ← m.teardown P

end DmaMemory

namespace LinuxVfio

def new (flavor : Flavor) (pciIrq : Option IrqCapability)
    (preparedIrqs : Option (List InterruptEvent)) : LinuxVfio where
  flavor
  pciIrq
  generation := 1
  nextId := 1
  nextIova := firstIova
  regions := ∅
  dmas := ∅
  quarantinedDmas := ∅
  interrupts := ∅
  interruptWaiters := []
  ambiguousIrqIndices := []
  preparedIrqs
  trace := []

/-- The next handle. -/
def id : Vf Nat := do
  let id ← Eff.look nextId
  if id + 1 < 2 ^ 64 then do
    Eff.modify fun s => { s with nextId := id + 1 }
    return id
  else Eff.fail .limit

def dma (id : Nat) : Vf Dma := do
  match (← Eff.look dmas).lookup id with
  | some dma => return dma
  | none => Eff.fail .staleHandle

/-- A broker command whose failure is a device fault. -/
def broker (P : Platform) (command : DmaBrokerCommand) : Vf DmaBrokerCommand := do
  match ← sys (ask P (.broker command)) with
  | some reply => return reply
  | none => Eff.fail .deviceFault

end LinuxVfio

end Drv.Vfio
