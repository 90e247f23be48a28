import Drv.Vfio.Dma
import Drv.Vfio.Interrupts

/-!
# The Linux VFIO backend

The remaining methods: register windows, the reset and the drop. A reset
moves the generation before anything that can fail, so that no handle of
the old generation is accepted again.

`linuxVfio` is the backend of the typed views; `LinuxVfio.run` is a whole
life of it.
-/

namespace Drv.Vfio

open Eff (fail look)
open Drv.Hardware (Error Method Backend)

namespace LinuxVfio

variable (P : Platform)

/-! ## Register windows -/

def openRegion (index : UInt8) : Vf Nat := do
  let flavor ← look flavor
  if flavor = .pciCoherent ∧ 5 < index then fail .invalid
  else do
    match ← sys (ask P (.regionInfo index.toUInt32)) with
    | none => fail .deviceFault
    | some info =>
      if 2 ^ 64 ≤ info.size then fail .limit
      else if info.size = 0 then fail .invalid
      else do
        match ← sys (RegionMapping.map P info info.size) with
        | none => fail .deviceFault
        | some mapping =>
          match ← id.attempt with
          | .error e => do
            let _ ← sys (mapping.teardown P)
            fail e
          | .ok id => do
            Eff.modify fun s => { s with regions := s.regions.insert id mapping }
            return id

def regionLen (s : LinuxVfio) (region : Nat) : Nat :=
  match s.regions.lookup region with
  | some mapping => mapping.len
  | none => 0

/-- A register word inside its window. -/
def register (region offset : Nat) : Vf RegionMapping := do
  match (← look regions).lookup region with
  | none => fail .staleHandle
  | some mapping =>
    if offset % 4 = 0 ∧ checkedMemoryRange offset 4 mapping.len then return mapping
    else fail .outOfBounds

def readU32 (region offset : Nat) : Vf UInt32 := do
  let mapping ← register region offset
  sys (ask P (.loadWord mapping.memory offset))

def writeU32 (region offset : Nat) (value : UInt32) : Vf Unit := do
  let mapping ← register region offset
  sys (ask P (.storeWord mapping.memory offset value))

def writeDmaAddress (region low : Nat) (high : Option Nat) (dma offset : Nat) : Vf Unit := do
  let address ← dmaDeviceAddress dma offset
  if high = none ∧ 2 ^ 32 ≤ address.toNat then fail .limit
  else do
    writeU32 P region low address.toUInt32
    match high with
    | none => return ()
    | some high => writeU32 P region high (address >>> 32).toUInt32

/-- Drop these mappings. -/
def dropEach : List (Sigma fun _ : Nat => RegionMapping) → Sys Unit
  | [] => return ()
  | ⟨_, mapping⟩ :: rest => do
    let _ ← mapping.teardown P
    dropEach rest

def releaseRegion (region : Nat) : Vf Unit := do
  match (← look regions).lookup region with
  | none => return ()
  | some mapping => do
    Eff.modify fun s => { s with regions := s.regions.erase region }
    let _ ← sys (mapping.teardown P)

def clearRegions : Vf Unit := do
  let s ← look fun s => s
  Eff.modify fun s => { s with regions := ∅ }
  sys (dropEach P (P.order s.trace _ s.regions.entries))

/-! ## Reset and drop -/

/-- The bit of the device flags that promises a reset. -/
def resetFlag : UInt32 := 1

def resetDevice : Vf Unit := do
  if ← sys (ask P .reset) then return () else fail .deviceFault

/-- What a reset does to the DMA mappings, before or after the device is
reset. -/
def resetDmas : Vf Unit := do
  match ← look flavor with
  | .broker => do
    resetDevice P
    discardResetBrokerDmas P
  | .coherent | .pciCoherent => do
    revokeDmas P
    resetDevice P

def reset : Vf UInt64 := do
  match ← sys (ask P .deviceInfo) with
  | none => fail .deviceFault
  | some flags =>
    if flags &&& resetFlag = 0 then fail .unsupported
    else do
      let generation ← look generation
      if generation.toNat + 1 < 2 ^ 64 then do
        -- all issued handles must become stale even if the rest fails
        Eff.modify fun s => { s with generation := generation + 1, interruptWaiters := [] }
        revokeInterrupts P
        clearRegions P
        resetDmas P
        return generation + 1
      else fail .limit

/-- Drop the allocations left in quarantine. -/
def dropQuarantined : List (Sigma fun _ : Nat => Dma) → Sys Unit
  | [] => return ()
  | ⟨_, dma⟩ :: rest => do
    dma.memory.drop P
    dropQuarantined rest

/-- Drop the interrupts that could not be disabled; each tries again. -/
def dropInterrupts : List (Sigma fun _ : Nat => UInt32 × VfioIrq) → Sys Unit
  | [] => return ()
  | ⟨_, (_, irq)⟩ :: rest => do
    let _ ← irq.disable P
    dropInterrupts rest

/-- The drop of the backend: revoke what it can, then drop its fields. -/
def drop : Vf Unit := do
  let _ ← (revokeInterrupts P).attempt
  let _ ← (revokeDmas P).attempt
  clearRegions P
  let s ← look fun s => s
  sys (dropQuarantined P (P.order s.trace _ s.quarantinedDmas.entries))
  let s ← look fun s => s
  sys (dropInterrupts P (P.order s.trace _ s.interrupts.entries))
  Eff.modify fun s => { s with quarantinedDmas := ∅, interrupts := ∅ }

/-! ## The backend -/

def method : (m : Method Nat Nat Nat) → Vf m.Ret
  | .openRegion index => openRegion P index
  | .readU32 region offset => readU32 P region offset
  | .writeU32 region offset value => writeU32 P region offset value
  | .writeDmaAddress region low high dma offset => writeDmaAddress P region low high dma offset
  | .dmaDeviceAddress dma offset => dmaDeviceAddress dma offset
  | .allocDmaConstrained size constraints direction coherent =>
    allocDmaConstrained P size constraints direction coherent
  | .dmaRead dma range => dmaRead P dma range
  | .dmaWrite dma range bytes => dmaWrite P dma range bytes
  | .streamingCpuDirty .. | .streamingCpuRead .. => (return () : Vf Unit)
  | .dmaReadOnceU32 dma offset => dmaReadOnceU32 P dma offset
  | .dmaWriteOnceU32 dma offset value => dmaWriteOnceU32 P dma offset value
  | .syncForCpu dma range => syncForCpu P dma range
  | .syncForDevice dma range => syncForDevice P dma range
  | .openInterrupt vector => openInterrupt P vector
  | .waitInterrupt interrupt deadlineNs => waitInterrupt P interrupt deadlineNs
  | .pollInterrupt interrupt => pollInterrupt P interrupt
  | .waitAny interrupts deadlineNs => waitAny P interrupts deadlineNs
  | .disableInterrupt interrupt => disableInterrupt P interrupt
  | .disableInterruptVector vector => disableInterruptVector P vector
  | .reset => reset P
  | .releaseRegion region => releaseRegion P region
  | .releaseDma dma => releaseDma P dma
  | .releaseInterrupt interrupt => releaseInterrupt P interrupt

end LinuxVfio

/-- The backend of the typed views. -/
def linuxVfio (P : Platform) : Backend LinuxVfio Nat Nat Nat where
  generation := LinuxVfio.generation
  isCacheCoherent s := s.flavor ≠ .broker
  regionLen s region := UInt64.ofNat (s.regionLen region)
  exec m s := ((LinuxVfio.method P m s).result, (LinuxVfio.method P m s).state)

/-- One call of a run: the states around it and its answer. -/
structure Step where
  before : LinuxVfio
  method : Method Nat Nat Nat
  result : Except Error method.Ret
  after : LinuxVfio

/-- Any sequence of calls. -/
def LinuxVfio.run (P : Platform) : LinuxVfio → List (Method Nat Nat Nat) → LinuxVfio × List Step
  | s, [] => (s, [])
  | s, m :: ms =>
    let o := method P m s
    let (last, steps) := o.state.run P ms
    (last, ⟨s, m, o.result, o.state⟩ :: steps)

end Drv.Vfio
