import Drv.Base.Bytes
import Drv.Ath11k.State

/-!
# Scatter/gather rings

A ring (SRNG) lies in coherent memory and is shared with the device. The
host owns one pointer of it and the device the other, which the host only
ever sees as a number that the device wrote; nothing checks that number.
Pointers count dwords, as in the HAL that this is a port of, and what an
operation answers is a byte offset into the memory.

Register addresses and the programming of a ring are left out: `setup`
is told whether the programming succeeded. The 32-bit sums of the source
do not overflow (`Srng.Sound.next_lt`), so pointers are naturals here.
-/

namespace Drv.Ath11k

open Eff (fail look)

inductive RingDirection where
  | source | destination
  deriving DecidableEq

inductive RingType where
  | reoDestination | reoException | reoReinject | reoCommand | reoStatus
  | tclData | tclCommand | tclStatus
  | ceSource | ceDestination | ceDestinationStatus
  | wbmIdleLink | swToWbmRelease | wbmToSwRelease
  | rxdmaBuffer | rxdmaDestination | rxdmaMonitorBuffer | rxdmaMonitorStatus
  | rxdmaMonitorDestination | rxdmaMonitorDescriptor | rxdmaDirectBuffer

structure Config where
  startId : Nat
  maxRings : Nat
  entryWords : Nat
  direction : RingDirection
  maxSizeWords : Nat
  lmac : Bool

def config : RingType → Config
  | .reoDestination => ⟨0, 4, 16, .destination, 0xfffff, false⟩
  | .reoException => ⟨4, 1, 16, .destination, 0xfffff, false⟩
  | .reoReinject => ⟨5, 1, 8, .source, 0xffff, false⟩
  | .reoCommand => ⟨8, 1, 10, .source, 0xffff, false⟩
  | .reoStatus => ⟨9, 1, 26, .destination, 0xffff, false⟩
  | .tclData => ⟨16, 3, 8, .source, 0xfffff, false⟩
  | .tclCommand => ⟨24, 1, 8, .source, 0xfffff, false⟩
  | .tclStatus => ⟨25, 1, 9, .destination, 0xffff, false⟩
  | .ceSource => ⟨32, 12, 4, .source, 0xffff, false⟩
  | .ceDestination => ⟨56, 12, 2, .source, 0xffff, false⟩
  | .ceDestinationStatus => ⟨80, 12, 4, .destination, 0xffff, false⟩
  | .wbmIdleLink => ⟨104, 1, 2, .source, 0xffff, false⟩
  | .swToWbmRelease => ⟨105, 1, 8, .source, 0xffff, false⟩
  | .wbmToSwRelease => ⟨106, 5, 8, .destination, 0xfffff, false⟩
  | .rxdmaBuffer => ⟨128, 2, 2, .source, 0xffff, true⟩
  | .rxdmaDestination => ⟨133, 1, 8, .destination, 0xffff, true⟩
  | .rxdmaMonitorBuffer => ⟨130, 1, 2, .source, 0xffff, true⟩
  | .rxdmaMonitorStatus => ⟨132, 1, 2, .source, 0xffff, true⟩
  | .rxdmaMonitorDestination => ⟨134, 1, 8, .destination, 0xffff, true⟩
  | .rxdmaMonitorDescriptor => ⟨135, 1, 2, .source, 0xffff, true⟩
  | .rxdmaDirectBuffer => ⟨136, 2, 2, .source, 0xffff, true⟩

namespace RingType

def entrySize (t : RingType) : Nat := (config t).entryWords * 4

def maxEntries (t : RingType) : Nat := (config t).maxSizeWords / (config t).entryWords

def ringId (t : RingType) (ringNumber macId : UInt8) : Option Nat :=
  if ringNumber.toNat ≥ (config t).maxRings then none
  else
    let lmac := if (config t).lmac then macId.toNat * 15 else 0
    let id := (config t).startId + ringNumber.toNat + lmac
    if id ≥ 172 then none else some id

end RingType

/-- `dmaLen` is the length of the DMA memory. -/
structure RingMemory where
  dmaLen : Nat
  entries : UInt16
  entryBytes : UInt16

/-- `allocate_ring` of the copy engines, for a ring with entries. -/
def allocateCeRing (entries entryBytes : UInt16) : RingMemory where
  dmaLen := entries.toNat * entryBytes.toNat + 8
  entries
  entryBytes

def ringBaseAlign : Nat := 8

/-- The memory that `allocate_ring` of the data path gives a ring. -/
def allocateDpRing (ringType : RingType) (specEntries : UInt16) : RingMemory :=
  let entries := min specEntries.toNat ringType.maxEntries
  { dmaLen := entries * ringType.entrySize + (ringBaseAlign - 1)
    entries := UInt16.ofNat entries
    entryBytes := UInt16.ofNat ringType.entrySize }

structure Srng where
  id : Nat
  ringType : RingType
  direction : RingDirection
  memory : RingMemory
  entryWords : Nat
  ringWords : Nat
  head : Nat
  tail : Nat
  cachedHardwarePointer : Nat
  reapHead : Nat
  loopCount : UInt16

structure SrngCursor where
  head : Nat
  tail : Nat
  reapHead : Nat
  loopCount : UInt16

namespace Srng

/-- `programmed` is whether the registers were written; those of an LMAC
ring are the firmware's. -/
def setup (ringType : RingType) (ringNumber macId : UInt8) (memory : RingMemory)
    (programmed : Except HalError Unit) : Except HalError Srng := do
  let some id := ringType.ringId ringNumber macId | throw .noResources
  let entryWords := (config ringType).entryWords
  let ringWords := entryWords * memory.entries.toNat
  let ring : Srng :=
    { id, ringType, direction := (config ringType).direction, memory, entryWords, ringWords
      head := 0, tail := 0, cachedHardwarePointer := 0, reapHead := ringWords - entryWords
      loopCount := 1 }
  if (config ringType).lmac then return ring
  else do
    programmed
    return ring

variable (r : Srng)

def checkpoint : SrngCursor := ⟨r.head, r.tail, r.reapHead, r.loopCount⟩

def restore (cursor : SrngCursor) : Srng :=
  { r with head := cursor.head, tail := cursor.tail, reapHead := cursor.reapHead
           loopCount := cursor.loopCount }

def entrySize : Nat := r.entryWords * 4

/-- The entry after the one at a pointer. -/
def following (pointer : Nat) : Nat := (pointer + r.entryWords) % r.ringWords

def peek : Option Nat :=
  match r.direction with
  | .source => if r.following r.head ≠ r.cachedHardwarePointer then some (r.head * 4) else none
  | .destination => if r.tail ≠ r.cachedHardwarePointer then some (r.tail * 4) else none

def sourceNext : Option Nat × Srng :=
  if r.direction ≠ .source then (none, r)
  else
    let next := r.following r.head
    if next = r.cachedHardwarePointer then (none, r)
    else (some (r.head * 4), { r with head := next, reapHead := next })

def sourceReapNext : Option Nat × Srng :=
  if r.direction ≠ .source then (none, r)
  else
    let next := r.following r.reapHead
    if next = r.cachedHardwarePointer then (none, r)
    else (some (next * 4), { r with reapHead := next })

def sourceNextReaped : Option Nat × Srng :=
  if r.direction ≠ .source ∨ r.head = r.reapHead then (none, r)
  else (some (r.head * 4), { r with head := r.following r.head })

def sourceNextPeek : Option Nat :=
  if r.direction ≠ .source then none
  else
    let next := r.following r.head
    if next ≠ r.cachedHardwarePointer then some (next * 4) else none

def destinationNext : Option Nat × Srng :=
  if r.direction ≠ .destination ∨ r.tail = r.cachedHardwarePointer then (none, r)
  else
    let tail := r.tail + r.entryWords
    if tail = r.ringWords then
      (some (r.tail * 4), { r with tail := 0, loopCount := r.loopCount + 1 })
    else (some (r.tail * 4), { r with tail })

def numberFree : Nat :=
  let hw := r.cachedHardwarePointer
  match r.direction with
  | .source =>
    if hw > r.head then (hw - r.head) / r.entryWords - 1
    else (r.ringWords - r.head + hw) / r.entryWords - 1
  | .destination =>
    if hw ≥ r.tail then (hw - r.tail) / r.entryWords
    else (r.ringWords - r.tail + hw) / r.entryWords

/-- `access_begin` reads the pointer of the device from a register and
`access_begin_remote` from the array that the device writes; either way
it is taken as it is. -/
def accessBegin (pointer : UInt32) : Srng :=
  { r with cachedHardwarePointer := pointer.toNat }

/-- The pointer that `access_end` publishes. -/
def accessEnd : Nat := if r.direction = .source then r.head else r.tail

end Srng

/-! ## The rings of the data path -/

/-- A stretch of ring memory. -/
structure Access where
  offset : Nat
  length : Nat

/-- What the device answers to the parts of `publish` or `consume`: its
pointer, the access to the entry, the publication of the host's. -/
structure RingAnswers where
  pointer : Except HalError UInt32
  entry : Except HalError Unit
  publication : Except HalError Unit

namespace HalDpRings

abbrev OnRing (α : Type) := Eff Srng Access HalError α

/-- A step of the cursor. -/
def cursorStep (f : Srng → Option Nat × Srng) : OnRing (Option Nat) := fun r =>
  ⟨.ok (f r).1, (f r).2, []⟩

variable (answers : RingAnswers)

def accessBeginRemote : OnRing Unit := do
  let pointer ← Eff.ofExcept answers.pointer
  Eff.modify (·.accessBegin pointer)

/-- Move the cursor over the entry at `offset` and publish it; the cursor
goes back if either fails. -/
def advance (next : Srng → Option Nat × Srng) (offset : Nat) : OnRing Unit := do
  let cursor ← look Srng.checkpoint
  let moved ← cursorStep next
  if moved ≠ some offset then do
    Eff.modify (·.restore cursor)
    fail .deviceFault
  else
    match answers.publication with
    | .ok () => return ()
    | .error e => do
      Eff.modify (·.restore cursor)
      fail e

/-- `Rings::publish`, on the ring that was found. -/
def publish (descriptor : Bytes) : OnRing Unit := do
  let ring ← look id
  if ring.direction ≠ .source then fail .unsupported
  else if descriptor.length ≠ ring.entrySize then fail .wrongDescriptorLength
  else do
    accessBeginRemote answers
    match ← look Srng.peek with
    | none => fail .noResources
    | some offset => do
      Eff.call ⟨offset, descriptor.length⟩ fun r => (answers.entry, r)
      advance answers Srng.sourceNext offset

/-- `Rings::consume`, on the ring that was found; `true` when an entry was
read. -/
def consume : OnRing Bool := do
  let ring ← look id
  if ring.direction ≠ .destination then fail .unsupported
  else do
    accessBeginRemote answers
    match ← look Srng.peek with
    | none => return false
    | some offset => do
      Eff.call ⟨offset, ring.entrySize⟩ fun r => (answers.entry, r)
      advance answers Srng.destinationNext offset
      return true

end HalDpRings

/-! ## Runs -/

/-- What can be asked of a ring. A cursor is restored by its place among
those that were taken; a pointer is whatever the device wrote. -/
inductive SrngOp where
  | sourceNext | sourceReapNext | sourceNextReaped | destinationNext
  | peek | sourceNextPeek
  | checkpoint | restore (place : Nat)
  | accessBegin (pointer : UInt32)
  | publish (answers : RingAnswers) (descriptor : Bytes)
  | consume (answers : RingAnswers)

structure SrngRun where
  ring : Srng
  cursors : List SrngCursor

namespace SrngOp

/-- The entry that an answered offset is for. -/
def answered (ring : Srng) (offset : Option Nat) : List Access :=
  offset.toList.map (⟨·, ring.entrySize⟩)

/-- The entries answered or accessed, and the state after. -/
def exec (s : SrngRun) : SrngOp → List Access × SrngRun
  | .sourceNext => step Srng.sourceNext
  | .sourceReapNext => step Srng.sourceReapNext
  | .sourceNextReaped => step Srng.sourceNextReaped
  | .destinationNext => step Srng.destinationNext
  | .peek => (answered s.ring s.ring.peek, s)
  | .sourceNextPeek => (answered s.ring s.ring.sourceNextPeek, s)
  | .checkpoint => ([], { s with cursors := s.cursors ++ [s.ring.checkpoint] })
  | .restore place =>
    match s.cursors[place]? with
    | some cursor => ([], { s with ring := s.ring.restore cursor })
    | none => ([], s)
  | .accessBegin pointer => ([], { s with ring := s.ring.accessBegin pointer })
  | .publish answers descriptor =>
    let o := HalDpRings.publish answers descriptor s.ring
    (o.calls, { s with ring := o.state })
  | .consume answers =>
    let o := HalDpRings.consume answers s.ring
    (o.calls, { s with ring := o.state })
where
  step (f : Srng → Option Nat × Srng) : List Access × SrngRun :=
    (answered s.ring (f s.ring).1, { s with ring := (f s.ring).2 })

end SrngOp

/-- All entries answered or accessed, and the state at the end. -/
def srngRun (s : SrngRun) : List SrngOp → List Access × SrngRun
  | [] => ([], s)
  | op :: rest =>
    let (accesses, s') := op.exec s
    let (later, last) := srngRun s' rest
    (accesses ++ later, last)

end Drv.Ath11k
