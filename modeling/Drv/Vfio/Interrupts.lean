import Drv.Vfio.State

/-!
# Interrupts of the VFIO backend

Vectors are installed on event descriptors and disabled again. An index
whose state in the kernel is not known stays marked as ambiguous, so
that a later revocation disables it whatever became of it. A level
interrupt that was read is unmasked before the next wait.
-/

namespace Drv.Vfio

open Eff (fail look)
open Drv.Hardware (Error IrqEvent)

namespace LinuxVfio

variable (P : Platform)

/-- Disable these vectors by index and answer those that are left. -/
def disableIndices : List UInt32 → Sys (List UInt32)
  | [] => return []
  | index :: rest => do
    let ok ← ask P (.setIrqs (.disableAll index))
    let left ← disableIndices rest
    return if ok then left else index :: left

/-- Disable each of these interrupts and answer those that are left. -/
def disableEach : List (Sigma fun _ : Nat => UInt32 × VfioIrq) → Table (UInt32 × VfioIrq) →
    Sys (Table (UInt32 × VfioIrq))
  | [], failed => return failed
  | ⟨id, (vector, irq)⟩ :: rest, failed => do
    match ← irq.disable P with
    | (true, _) => disableEach rest failed
    | (false, irq) => disableEach rest (failed.insert id (vector, irq))

def revokeInterrupts : Vf Unit := do
  let s ← look fun s => s
  let indices ← sys (disableIndices P (P.order s.trace _ s.ambiguousIrqIndices))
  let t ← look trace
  let failed ← sys (disableEach P (P.order t _ s.interrupts.entries) ∅)
  Eff.modify fun s => { s with ambiguousIrqIndices := indices, interrupts := failed }
  if indices = [] ∧ failed.entries = [] then return () else fail .deviceFault

/-- Go on with an interrupt the kernel may have changed. -/
def keepIrq (id : Nat) (vector : UInt32) (irq : VfioIrq) : Vf Unit :=
  Eff.modify fun s => { s with interrupts := s.interrupts.insert id (vector, irq) }

def interrupt (id : Nat) : Vf (UInt32 × VfioIrq) := do
  match (← look interrupts).lookup id with
  | some entry => return entry
  | none => fail .staleHandle

/-- The capability behind a vector, and the place of the vector in it. -/
def vectorCapability (vector : UInt32) : Vf (IrqCapability × UInt32) := do
  match ← look pciIrq with
  | some capability =>
    if capability.count ≤ vector then fail .limit else return (capability, vector)
  | none =>
    match ← sys (irqCapability P vector) with
    | some capability => return (capability, 0)
    | none => fail .deviceFault

/-- Take the next prepared descriptor, if descriptors are prepared. -/
def preparedEvent : Vf (Option InterruptEvent) := do
  match ← look preparedIrqs with
  | none => return none
  | some [] => fail .limit
  | some (event :: rest) => do
    Eff.modify fun s => { s with preparedIrqs := some rest }
    return some event

/-- The descriptor of a new interrupt, made now unless it is prepared. -/
def irqEvent : Option InterruptEvent → Vf InterruptEvent
  | some event => return event
  | none => do
    match ← sys (ask P .eventfd) with
    | some fd => return { fd, registered := false }
    | none => fail .deviceFault

def openInterrupt (vector : UInt32) : Vf Nat := do
  let (capability, start) ← vectorCapability P vector
  let prepared ← preparedEvent
  Eff.modify fun s =>
    { s with ambiguousIrqIndices := s.ambiguousIrqIndices.insert capability.index }
  let event ← irqEvent P prepared
  match ← sys (VfioIrq.installPreparedAt P capability start event) with
  | none => fail .deviceFault
  | some irq =>
    match ← id.attempt with
    | .error e => do
      let _ ← sys (irq.disable P)
      fail e
    | .ok id => do
      keepIrq id vector irq
      Eff.modify fun s =>
        { s with ambiguousIrqIndices := s.ambiguousIrqIndices.erase capability.index }
      return id

/-- The time of an event; it may not be readable. -/
def now : Vf UInt64 := do
  match ← sys (ask P .clock) with
  | some atNs => return atNs
  | none => fail .deviceFault

def waitInterrupt (id : Nat) (deadlineNs : UInt64) : Vf (Option IrqEvent) := do
  let (vector, irq) ← interrupt id
  let (answer, irq) ← sys (irq.waitUntil P deadlineNs)
  keepIrq id vector irq
  match answer with
  | none => fail .deviceFault
  | some count => do
    let atNs ← now P
    return count.map fun count => { vector, count, atNs }

def pollInterrupt (id : Nat) : Vf (Option IrqEvent) := do
  Eff.modify fun s => { s with interruptWaiters := s.interruptWaiters.erase id }
  let (vector, irq) ← interrupt id
  if irq.event.registered then do
    let (ok, irq) ← sys (irq.prepareWait P)
    keepIrq id vector irq
    if ok then do
      match ← sys (ask P (.pollRead irq.event.fd)) with
      | .pending => do
        Eff.modify fun s => { s with interruptWaiters := s.interruptWaiters.insert id }
        return none
      | .failed => fail .deviceFault
      | .ready count => do
        keepIrq id vector { irq with pendingUnmask := irq.automasked || irq.pendingUnmask }
        let atNs ← now P
        return some { vector, count, atNs }
    else fail .deviceFault
  else fail .unsupported

/-- Prepare the waits on these interrupts and answer their descriptors. -/
def prepareAll : List Nat → Vf (List Nat)
  | [] => return []
  | id :: rest => do
    let (vector, irq) ← interrupt id
    let (ok, irq) ← sys (irq.prepareWait P)
    keepIrq id vector irq
    if ok then do
      let fds ← prepareAll rest
      return irq.event.fd :: fds
    else fail .deviceFault

/-- Read the interrupts found ready. -/
def readReady (atNs : UInt64) : List Nat → Vf (List IrqEvent)
  | [] => return []
  | id :: rest => do
    let (vector, irq) ← interrupt id
    let (answer, irq) ← sys (irq.tryRead P)
    keepIrq id vector irq
    match answer with
    | none => fail .deviceFault
    | some none => readReady atNs rest
    | some (some count) => do
      let events ← readReady atNs rest
      return { vector, count, atNs } :: events

def waitAny (ids : List Nat) (deadlineNs : UInt64) : Vf (List IrqEvent) :=
  if ids = [] then fail .invalid
  else do
    let fds ← prepareAll P ids
    match ← sys (ask P (.pollEvents fds deadlineNs)) with
    | none => fail .deviceFault
    | some ready => do
      let atNs ← now P
      readReady P atNs (ready.filterMap fun index => ids[index.val]?)

def disableInterrupt (id : Nat) : Vf Unit := do
  let (vector, irq) ← interrupt id
  let (ok, irq) ← sys (irq.disable P)
  keepIrq id vector irq
  if ok then return () else fail .deviceFault

def disableInterruptVector (vector : UInt32) : Vf Unit := do
  let (capability, _) ← vectorCapability P vector
  Eff.modify fun s =>
    { s with ambiguousIrqIndices := s.ambiguousIrqIndices.insert capability.index }
  if ← sys (ask P (.setIrqs (.disableAll capability.index))) then
    Eff.modify fun s =>
      { s with ambiguousIrqIndices := s.ambiguousIrqIndices.erase capability.index }
  else fail .deviceFault

def releaseInterrupt (id : Nat) : Vf Unit := do
  Eff.modify fun s => { s with interruptWaiters := s.interruptWaiters.erase id }
  match (← look interrupts).lookup id with
  | none => return ()
  | some (vector, irq) => do
    Eff.modify fun s => { s with interrupts := s.interrupts.erase id }
    let (ok, irq) ← sys (irq.disable P)
    if ok then return () else keepIrq id vector irq

end LinuxVfio

end Drv.Vfio
