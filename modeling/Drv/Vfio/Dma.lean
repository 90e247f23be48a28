import Drv.Vfio.State

/-!
# DMA memory of the VFIO backend

How an allocation is made, used and released in each flavour. A release
that fails answers the allocation with whatever part of it is already
done, so that it can be tried again.
-/

namespace Drv.Vfio

open Eff (fail look)
open Drv.Hardware (Error DmaDirection DmaConstraints Range isPowerOfTwo)

namespace LinuxVfio

variable (P : Platform)

/-! ## Release -/

/-- Tell the broker that a handle is no longer used, if there is one. -/
def forgetHandle (operation : BrokerOp) (dma : Dma) : Sys (Bool × Dma) :=
  match dma.brokerHandle with
  | none => return (true, dma)
  | some handle => do
    match ← ask P (.broker { operation, handle }) with
    | none => return (false, dma)
    | some _ => return (true, { dma with brokerHandle := none })

/-- Release what is behind an allocation; it may have to be tried again. -/
def releaseDmaResource (dma : Dma) : Sys (Bool × Dma) :=
  match dma.memory with
  | .ioas mapping => do
    let (ok, mapping) ← mapping.teardown P
    return (ok, { dma with memory := .ioas mapping })
  | .brokerCoherent mapping => do
    -- FREE is required to fail while the shared mapping exists
    match ← mapping.teardown P with
    | (false, mapping) => return (false, { dma with memory := .brokerCoherent mapping })
    | (true, mapping) => forgetHandle P .free { dma with memory := .brokerCoherent mapping }
  | .brokerStreaming mapping => do
    match ← forgetHandle P .unmap dma with
    | (false, dma) => return (false, dma)
    | (true, dma) =>
      let (ok, mapping) ← mapping.teardown P
      return (ok, { dma with memory := .brokerStreaming mapping })

/-- Release each of these allocations and answer those that are left. -/
def releaseEach : List (Sigma fun _ : Nat => Dma) → Table Dma → Sys (Table Dma)
  | [], failed => return failed
  | ⟨id, dma⟩ :: rest, failed => do
    match ← releaseDmaResource P dma with
    | (true, _) => releaseEach rest failed
    | (false, dma) => releaseEach rest (failed.insert id dma)

def revokeDmas : Vf Unit := do
  let s ← look fun s => s
  let all := s.dmas ∪ s.quarantinedDmas
  let failed ← sys (releaseEach P (P.order s.trace _ all.entries) ∅)
  Eff.modify fun s => { s with dmas := ∅, quarantinedDmas := failed }
  if failed.entries = [] then return () else fail .deviceFault

/-- After a broker reset nothing has to be given back; only the mappings
go. The drop tries a failed one again. -/
def discardEach : List (Sigma fun _ : Nat => Dma) → Sys Unit
  | [] => return ()
  | ⟨_, dma⟩ :: rest => do
    match dma.memory with
    | .brokerCoherent mapping | .brokerStreaming mapping =>
      let (_, mapping) ← mapping.teardown P
      let _ ← mapping.teardown P
      discardEach rest
    | memory@(.ioas _) =>
      -- a broker backend owns none
      memory.drop P
      discardEach rest

def discardResetBrokerDmas : Vf Unit := do
  let s ← look fun s => s
  let all := s.dmas ∪ s.quarantinedDmas
  let _ ← sys (discardEach P (P.order s.trace _ all.entries))
  Eff.modify fun s => { s with dmas := ∅, quarantinedDmas := ∅ }

/-! ## Allocation -/

def checkedAllocation (size : Nat) (constraints : DmaConstraints) : Except Error Nat :=
  if size = 0 ∨ constraints.alignment = 0 ∨ ¬ isPowerOfTwo constraints.alignment then
    .error .invalid
  else
    let mappedLen := (size + (page - 1)) / page * page
    if 2 ^ 64 ≤ mappedLen then .error .limit
    else if constraints.maxSegments = 0 ∨ constraints.maxSegmentSize < size then .error .limit
    else .ok mappedLen

/-- Round up to the alignment, at least a page. -/
def aligned (value alignment : Nat) : Except Error Nat :=
  let mask := max alignment page - 1
  if value + mask < 2 ^ 64 then .ok ((value + mask) &&& (2 ^ 64 - 1 - mask))
  else .error .limit

def deviceReads : DmaDirection → Bool
  | .toDevice | .bidirectional => true
  | .fromDevice => false

def deviceWrites : DmaDirection → Bool
  | .fromDevice | .bidirectional => true
  | .toDevice => false

def directionNumber : DmaDirection → Nat
  | .toDevice => 1
  | .fromDevice => 2
  | .bidirectional => 3

section
variable (size mappedLen : Nat) (constraints : DmaConstraints) (direction : DmaDirection)

/-- An allocation in the IOAS flavours. -/
def allocIoas : Vf Dma := do
  let nextIova ← look nextIova
  let iova ← Eff.ofExcept (aligned nextIova constraints.alignment)
  let last := iova + (mappedLen - 1)
  if 2 ^ 64 ≤ last ∨ constraints.maxDeviceAddress < last then fail .limit
  else do
    match ← sys (DmaMapping.mapWithFlags P iova mappedLen (deviceReads direction)
      (deviceWrites direction)) with
    | none => fail .deviceFault
    | some mapping =>
      if last + 1 < 2 ^ 64 then do
        Eff.modify fun s => { s with nextIova := last + 1 }
        return { memory := .ioas mapping, iova, len := size, direction, brokerHandle := none }
      else do
        let _ ← sys (mapping.teardown P)
        fail .limit

/-- A broker reply that cannot be used. -/
def malformed (reply : DmaBrokerCommand) : Prop :=
  reply.handle = 0 ∨ 2 ^ 64 ≤ reply.iova + (size - 1) ∨
    constraints.maxDeviceAddress < reply.iova + (size - 1) ∨
    reply.iova % constraints.alignment ≠ 0

instance (reply : DmaBrokerCommand) : Decidable (malformed size constraints reply) :=
  inferInstanceAs (Decidable (_ ∨ _))

/-- A coherent allocation of the broker, viewed through a mapping. -/
def allocCoherent : Vf Dma := do
  let reply ← broker P { operation := .allocCoherent, size, alignment := constraints.alignment,
                         maxDeviceAddress := constraints.maxDeviceAddress }
  if malformed size constraints reply then do
    let _ ← sys (ask P (.broker { operation := .free, handle := reply.handle }))
    fail .deviceFault
  else do
    match ← sys (Mapping.device P reply.mmapOffset size) with
    | some mapping =>
      return { memory := .brokerCoherent mapping, iova := reply.iova, len := size, direction,
               brokerHandle := some reply.handle }
    | none => do
      let _ ← sys (ask P (.broker { operation := .free, handle := reply.handle }))
      fail .deviceFault

/-- A streaming allocation: memory of the process given to the broker. -/
def allocStreaming : Vf Dma := do
  match ← sys (Mapping.anonymous P mappedLen) with
  | none => fail .deviceFault
  | some arena =>
    match ← sys (ask P (.broker { operation := .mapStreaming, size,
                                  alignment := constraints.alignment,
                                  maxDeviceAddress := constraints.maxDeviceAddress,
                                  userAddress := arena.memory,
                                  direction := directionNumber direction })) with
    | none => do
      let _ ← sys (arena.teardown P)
      fail .deviceFault
    | some reply =>
      if malformed size constraints reply then do
        let _ ← sys (ask P (.broker { operation := .unmap, handle := reply.handle }))
        let _ ← sys (arena.teardown P)
        fail .deviceFault
      else
        return { memory := .brokerStreaming arena, iova := reply.iova, len := size, direction,
                 brokerHandle := some reply.handle }

def allocDma (coherent : Bool) : Vf Dma := do
  match ← look flavor with
  | .coherent | .pciCoherent => allocIoas P size mappedLen constraints direction
  | .broker =>
    if coherent then allocCoherent P size constraints direction
    else allocStreaming P size mappedLen constraints direction

def allocDmaConstrained (coherent : Bool) : Vf Nat := do
  let mappedLen ← Eff.ofExcept (checkedAllocation size constraints)
  let id ← id
  let dma ← allocDma P size mappedLen constraints direction coherent
  Eff.modify fun s => { s with dmas := s.dmas.insert id dma }
  return id

end

/-! ## Access -/

def dmaDeviceAddress (id offset : Nat) : Vf UInt64 := do
  let dma ← dma id
  if dma.len ≤ offset then fail .outOfBounds
  else if dma.iova + offset < 2 ^ 64 then return UInt64.ofNat (dma.iova + offset)
  else fail .outOfBounds

/-- The range check that every access makes. -/
def outside (range : Range) (dma : Dma) : Prop := range.stop < range.start ∨ dma.len < range.stop

instance (range : Range) (dma : Dma) : Decidable (outside range dma) :=
  inferInstanceAs (Decidable (_ ∨ _))

def dmaRead (id : Nat) (range : Range) : Vf (List.Vector UInt8 range.len) := do
  let dma ← dma id
  if dma.direction = .toDevice then fail .invalid
  else if outside range dma then fail .outOfBounds
  else if checkedMemoryRange range.start range.len dma.memory.view.len then
    sys (ask P (.load dma.memory.view.memory range.start range.len))
  else fail .outOfBounds

def dmaWrite (id : Nat) (range : Range) (bytes : Bytes) : Vf Unit := do
  let dma ← dma id
  if range.len ≠ bytes.length then fail .invalid
  else if outside range dma then fail .outOfBounds
  else if checkedMemoryRange range.start bytes.length dma.memory.view.len then
    sys (ask P (.store dma.memory.view.memory range.start bytes))
  else fail .outOfBounds

def dmaReadOnceU32 (id offset : Nat) : Vf UInt32 := do
  let dma ← dma id
  if checkedMemoryRange offset 4 dma.memory.view.len ∧ offset % 4 = 0 then
    sys (ask P (.loadWord dma.memory.view.memory offset))
  else fail .outOfBounds

def dmaWriteOnceU32 (id offset : Nat) (value : UInt32) : Vf Unit := do
  let dma ← dma id
  if checkedMemoryRange offset 4 dma.memory.view.len ∧ offset % 4 = 0 then
    sys (ask P (.storeWord dma.memory.view.memory offset value))
  else fail .outOfBounds

/-- A cache operation on a broker allocation. -/
def sync (operation : BrokerOp) (range : Range) (dma : Dma) : Vf Unit := do
  match ← look flavor with
  | .broker =>
    match dma.brokerHandle with
    | none => fail .deviceFault
    | some handle => do
      let _ ← broker P { operation, handle, offset := range.start, length := range.len }
  | .coherent | .pciCoherent => return ()

def syncForCpu (id : Nat) (range : Range) : Vf Unit := do
  let dma ← dma id
  if dma.direction = .toDevice then fail .invalid
  else if outside range dma then fail .outOfBounds
  else sync P .syncCpu range dma

def syncForDevice (id : Nat) (range : Range) : Vf Unit := do
  let dma ← dma id
  if outside range dma then fail .outOfBounds
  else sync P .syncDevice range dma

def releaseDma (id : Nat) : Vf Unit := do
  match (← look dmas).lookup id with
  | none => return ()
  | some dma => do
    Eff.modify fun s => { s with dmas := s.dmas.erase id }
    let (ok, dma) ← sys (releaseDmaResource P dma)
    if ok then return ()
    else Eff.modify fun s => { s with quarantinedDmas := s.quarantinedDmas.insert id dma }

end LinuxVfio

end Drv.Vfio
