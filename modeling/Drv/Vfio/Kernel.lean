import Drv.Hardware.Backend

/-!
# The kernel behind a VFIO device

Everything the userspace driver asks of Linux, and the owned mappings it
keeps. A `Syscall` is one request with its arguments, `Syscall.Answer`
what comes back; the record of all requests and answers so far is the
`Trace`.

A `Platform` answers each request from the trace before it, so it stands
for every pattern of failing ioctls and odd replies. It also decides the
order in which a hash map is walked. A mapping of memory is known by the
place of its `mmap` in the trace: like the address the kernel picks, that
is never the place of another mapping that is still there.

Memory accesses go through the trace too. The texts of failures are left
out; every caller replaces them by one error.
-/

namespace Drv.Vfio

open Drv.Hardware (IrqEvent)

def page : Nat := 4096

inductive BrokerOp where
  | allocCoherent | mapStreaming | syncCpu | syncDevice | free | unmap
  deriving DecidableEq

structure DmaBrokerCommand where
  operation : BrokerOp
  handle : Nat := 0
  size : Nat := 0
  alignment : Nat := 0
  maxDeviceAddress : Nat := 0
  userAddress : Nat := 0
  offset : Nat := 0
  length : Nat := 0
  mmapOffset : Nat := 0
  iova : Nat := 0
  direction : Nat := 0

structure RegionInfo where
  flags : UInt32
  size : Nat
  offset : Nat

structure IrqInfo where
  flags : UInt32
  count : UInt32

/-- What is mapped as DMA memory. -/
inductive Backing where
  | anonymous
  | device (offset : Nat)

inductive IrqSet where
  | install (index start : UInt32) (fd : Nat)
  | unmask (index start : UInt32)
  | disable (index start : UInt32)
  | disableAll (index : UInt32)

/-- One poll of an event descriptor, together with its read. -/
inductive PollRead where
  | pending
  | failed
  | ready (count : UInt64)

inductive Syscall where
  | regionInfo (index : UInt32)
  | mmapRegion (offset len : Nat)
  | munmapRegion (memory len : Nat)
  | mmap (backing : Backing) (len : Nat)
  | munmap (memory len : Nat)
  | ioasMap (iova length userVa : Nat) (readable writeable : Bool)
  | ioasUnmap (iova length : Nat)
  | broker (command : DmaBrokerCommand)
  | deviceInfo
  | reset
  | irqInfo (index : UInt32)
  | eventfd
  | setIrqs (set : IrqSet)
  | readEvent (fd : Nat)
  | pollRead (fd : Nat)
  | pollEvents (fds : List Nat) (deadlineNs : UInt64)
  | clock
  | loadWord (memory offset : Nat)
  | storeWord (memory offset : Nat) (value : UInt32)
  | load (memory offset len : Nat)
  | store (memory offset : Nat) (bytes : Bytes)

/-- What comes back. `none` and `false` are failures. -/
@[reducible]
def Syscall.Answer : Syscall → Type
  | regionInfo _ => Option RegionInfo
  | mmapRegion .. | munmapRegion .. | mmap .. | munmap .. => Bool
  | ioasMap .. => Option Nat
  | ioasUnmap .. => Option Nat
  | broker _ => Option DmaBrokerCommand
  | deviceInfo => Option UInt32
  | reset => Bool
  | irqInfo _ => Option IrqInfo
  | eventfd => Option Nat
  | setIrqs _ => Bool
  | readEvent _ => Option (Option UInt64)
  | pollRead _ => PollRead
  | pollEvents fds _ => Option (List (Fin fds.length))
  | clock => Option UInt64
  | loadWord .. => UInt32
  | load _ _ len => List.Vector UInt8 len
  | storeWord .. | store .. => Unit

structure Event where
  call : Syscall
  answer : call.Answer

abbrev Trace := List Event

/-- An environment: any answers, and any order for walking a hash map. -/
structure Platform where
  answer : Trace → (c : Syscall) → c.Answer
  order : Trace → (α : Type) → List α → List α
  order_perm : ∀ t α l, (order t α l).Perm l

/-- A computation that only asks the kernel. -/
abbrev Sys := StateM Trace

variable (P : Platform)

def ask (c : Syscall) : Sys c.Answer := fun t => (P.answer t c, t ++ [⟨c, P.answer t c⟩])

/-- Map memory; it is known by the place of this call. -/
def mmap (backing : Backing) (len : Nat) : Sys (Option Nat) := do
  let memory ← StateT.get
  if ← ask P (.mmap backing len) then return some memory.length else return none

/-- A range check against a mapping. -/
def checkedMemoryRange (offset len total : Nat) : Bool :=
  offset + len < 2 ^ 64 && offset + len ≤ total

/-! ## Memory given to the device -/

/-- Anonymous memory pinned into the IOAS. -/
structure DmaMapping where
  memory : Nat
  len : Nat
  iova : Nat
  mapped : Bool

namespace DmaMapping

def mapWithFlags (iova len : Nat) (deviceReads deviceWrites : Bool) : Sys (Option DmaMapping) :=
  if len = 0 ∨ len % page ≠ 0 ∨ iova % page ≠ 0 then return none
  else do
    match ← mmap P .anonymous len with
    | none => return none
    | some memory =>
      match ← ask P (.ioasMap iova len memory deviceReads deviceWrites) with
      | none => do
        let _ ← ask P (.munmap memory len)
        return none
      | some given =>
        if given ≠ iova then do
          let _ ← ask P (.ioasUnmap given len)
          let _ ← ask P (.munmap memory len)
          return none
        else return some { memory, len, iova, mapped := true }

/-- Take the memory from the device, then from the process. -/
def teardown (m : DmaMapping) : Sys (Bool × DmaMapping) :=
  if m.mapped then do
    match ← ask P (.ioasUnmap m.iova m.len) with
    | none => return (false, m)
    | some length =>
      if length ≠ m.len then return (false, m)
      else do
        let ok ← ask P (.munmap m.memory m.len)
        return (ok, { m with mapped := false })
  else return (true, m)

end DmaMapping

/-- Memory of the process given to the broker, or a view of memory the
broker allocated. -/
structure Mapping where
  memory : Nat
  len : Nat
  mapped : Bool

namespace Mapping

def anonymous (len : Nat) : Sys (Option Mapping) :=
  if len = 0 ∨ len % page ≠ 0 then return none
  else do
    match ← mmap P .anonymous len with
    | none => return none
    | some memory => return some { memory, len, mapped := true }

def device (offset len : Nat) : Sys (Option Mapping) :=
  if len = 0 ∨ offset % page ≠ 0 ∨ 2 ^ 63 ≤ offset then return none
  else do
    match ← mmap P (.device offset) len with
    | none => return none
    | some memory => return some { memory, len, mapped := true }

def teardown (m : Mapping) : Sys (Bool × Mapping) :=
  if m.mapped then do
    if ← ask P (.munmap m.memory m.len) then return (true, { m with mapped := false })
    else return (false, m)
  else return (true, m)

end Mapping

/-! ## Register windows -/

structure RegionMapping where
  memory : Nat
  len : Nat
  mapped : Bool

namespace RegionMapping

/-- The permissions a register window needs: read, write and mmap. -/
def required : UInt32 := 7

def map (info : RegionInfo) (len : Nat) : Sys (Option RegionMapping) :=
  if info.size < len ∨ info.flags &&& required ≠ required ∨ 2 ^ 63 ≤ info.offset then return none
  else do
    let memory ← StateT.get
    if ← ask P (.mmapRegion info.offset len) then
      return some { memory := memory.length, len, mapped := true }
    else return none

def teardown (r : RegionMapping) : Sys (Bool × RegionMapping) :=
  if r.mapped then do
    if ← ask P (.munmapRegion r.memory r.len) then return (true, { r with mapped := false })
    else return (false, r)
  else return (true, r)

end RegionMapping

/-! ## Interrupts -/

structure IrqCapability where
  index : UInt32
  count : UInt32
  eventfd : Bool
  automasked : Bool

def irqCapability (index : UInt32) : Sys (Option IrqCapability) := do
  match ← ask P (.irqInfo index) with
  | none => return none
  | some info =>
    return some { index, count := info.count, eventfd := info.flags &&& 1 ≠ 0,
                  automasked := info.flags &&& 4 ≠ 0 }

/-- An event descriptor, registered with the reactor or not. -/
structure InterruptEvent where
  fd : Nat
  registered : Bool

structure VfioIrq where
  event : InterruptEvent
  index : UInt32
  start : UInt32
  installed : Bool
  automasked : Bool
  pendingUnmask : Bool

namespace VfioIrq

def installPreparedAt (capability : IrqCapability) (start : UInt32) (event : InterruptEvent) :
    Sys (Option VfioIrq) :=
  if capability.count = 0 ∨ ¬ capability.eventfd ∨ capability.count ≤ start then return none
  else do
    if ← ask P (.setIrqs (.install capability.index start event.fd)) then
      return some { event, index := capability.index, start, installed := true,
                    automasked := capability.automasked, pendingUnmask := false }
    else return none

variable (i : VfioIrq)

/-- Undo the masking of a delivered level interrupt. -/
def prepareWait : Sys (Bool × VfioIrq) :=
  if i.pendingUnmask then do
    let ok ← ask P (.setIrqs (.unmask i.index i.start))
    return (ok, { i with pendingUnmask := !ok })
  else return (true, i)

def tryRead : Sys (Option (Option UInt64) × VfioIrq) := do
  match ← ask P (.readEvent i.event.fd) with
  | some (some count) =>
    return (some (some count), { i with pendingUnmask := i.automasked || i.pendingUnmask })
  | other => return (other, i)

def waitUntil (deadlineNs : UInt64) : Sys (Option (Option UInt64) × VfioIrq) := do
  match ← prepareWait P i with
  | (false, i) => return (none, i)
  | (true, i) =>
    match ← ask P (.pollEvents [i.event.fd] deadlineNs) with
    | none => return (none, i)
    | some [] => return (some none, i)
    | some _ => tryRead P i

def disable : Sys (Bool × VfioIrq) :=
  if i.installed then do
    match ← prepareWait P i with
    | (false, i) => return (false, i)
    | (true, i) =>
      let ok ← ask P (.setIrqs (.disable i.index i.start))
      return (ok, { i with installed := !ok })
  else return (true, i)

end VfioIrq

end Drv.Vfio
