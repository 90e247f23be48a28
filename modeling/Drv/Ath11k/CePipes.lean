import Drv.Ath11k.Srng

/-!
# Copy engine pipes

A copy engine (CE) has up to three rings. Packets are sent through its
source ring, one slot of which the driver keeps for each descriptor that
the hardware may still read. Buffers for received packets are posted on
its destination ring, and what was received into them is told, in the
same order, on its status ring.

What the device and the DMA layer answer during a call is an argument of
the call. Every failure of theirs is a `DeviceFault` here. The rings of a
pipe that are created together are one side of it, and the contents of
the status ring, which the device writes, are kept with it.
-/

namespace Drv.Ath11k

open Eff (fail look ofExcept)

inductive CeError where
  | noCredits | invalidFrame | deviceFault
  deriving DecidableEq

def ceAttrByteSwapData : UInt32 := 2
def ceAttrDisableIntr : UInt32 := 8

structure HostPipeConfig where
  flags : UInt32
  sourceEntries : UInt16
  sourceSizeMax : UInt16
  destinationEntries : UInt16

def wcn6750HostCeConfig : List HostPipeConfig :=
  [⟨0, 16, 2048, 0⟩, ⟨0, 0, 2048, 512⟩, ⟨0, 0, 2048, 512⟩, ⟨0, 32, 2048, 0⟩,
    ⟨ceAttrDisableIntr, 2048, 256, 0⟩, ⟨0, 0, 2048, 512⟩, ⟨ceAttrDisableIntr, 0, 0, 0⟩,
    ⟨0, 32, 2048, 0⟩, ⟨0, 0, 0, 0⟩]

/-- A call that succeeded, or failed. -/
abbrev Answered (succeeded : Bool) : Except CeError Unit :=
  if succeeded then .ok () else .error .deviceFault

/-! ## The source side -/

structure CeTxBuffer where
  address : UInt64
  bytes : Bytes

/-- The length and the transfer id keep their low 16 bits. -/
structure CeSourceDescriptor where
  address : UInt64
  length : UInt16
  transferId : UInt16
  byteSwap : Bool

structure SourceSide where
  ring : Srng
  slots : List (Option CeTxBuffer)
  flags : UInt32

/-- What reaches the device: a descriptor written at an offset, or a
pointer. -/
inductive CeCall where
  | write (offset : Nat) (descriptor : CeSourceDescriptor)
  | publish (pointer : Nat)

structure SendAnswers where
  address : Bool
  pointer : Option UInt32
  descriptor : Bool
  sync : Bool
  publication : Bool

namespace SourceSide

abbrev OnSource (α : Type) := Eff SourceSide CeCall CeError α

def modifyRing (f : Srng → Srng) : OnSource Unit := Eff.modify fun p => { p with ring := f p.ring }

def accessBeginRemote (pointer : Option UInt32) : OnSource Unit :=
  match pointer with
  | some pointer => modifyRing (·.accessBegin pointer)
  | none => fail .deviceFault

def accessEnd (succeeded : Bool) : OnSource Unit := do
  let pointer ← look fun p => p.ring.accessEnd
  Eff.call (.publish pointer) fun p => (Answered succeeded, p)

def cursorStep (f : Srng → Option Nat × Srng) : OnSource (Option Nat) := fun p =>
  ⟨.ok (f p.ring).1, { p with ring := (f p.ring).2 }, []⟩

def setSlot (slot : Nat) (buffer : Option CeTxBuffer) : OnSource Unit :=
  Eff.modify fun p => { p with slots := p.slots.set slot buffer }

variable (answers : SendAnswers)

/-- The packet is synced between the descriptor and the pointer. -/
def place (buffer : CeTxBuffer) (descriptor : CeSourceDescriptor) (offset slot : Nat) :
    OnSource Unit := do
  Eff.call (.write offset descriptor) fun p => (Answered answers.descriptor, p)
  ofExcept (Answered answers.sync)
  setSlot slot (some buffer)
  accessEnd answers.publication

def descriptorFor (p : SourceSide) (buffer : CeTxBuffer) (transferId : UInt16) :
    CeSourceDescriptor :=
  ⟨buffer.address, UInt16.ofNat buffer.bytes.length, transferId, p.flags &&& ceAttrByteSwapData ≠ 0⟩

/-- The end of `send`, once the cursor was asked for an entry. -/
def settle (buffer : CeTxBuffer) (descriptor : CeSourceDescriptor) (checkpoint : SrngCursor)
    (entrySize : Nat) : Option Nat → OnSource Unit
  | none => do
    accessEnd answers.publication
    fail .noCredits
  | some offset => do
    match ← (place answers buffer descriptor offset (offset / entrySize)).attempt with
    | .ok () => return ()
    | .error e => do
      modifyRing (·.restore checkpoint)
      setSlot (offset / entrySize) none
      fail e

def send (buffer : CeTxBuffer) (transferId : UInt16) : OnSource Unit := do
  ofExcept (Answered answers.address)
  let descriptor ← look (·.descriptorFor buffer transferId)
  accessBeginRemote answers.pointer
  let checkpoint ← look fun p => p.ring.checkpoint
  let entrySize ← look fun p => p.ring.entrySize
  let offset ← cursorStep Srng.sourceNextReaped
  settle answers buffer descriptor checkpoint entrySize offset

def completedSendNext (pointer : Option UInt32) : OnSource (Option CeTxBuffer) := do
  accessBeginRemote pointer
  let entrySize ← look fun p => p.ring.entrySize
  match ← cursorStep Srng.sourceReapNext with
  | none => return none
  | some offset => do
    let slot := offset / entrySize
    let buffer ← look fun p => (p.slots[slot]?).join
    setSlot slot none
    return buffer

end SourceSide

/-! ## The receive side -/

/-- `memory` is what the device has written. -/
structure CeRxBuffer where
  memory : Bytes
  cpuOwned : Bool

def CeRxBuffer.capacity (buffer : CeRxBuffer) : Nat := buffer.memory.length

/-- The first word of a status entry; its other words are not read. -/
structure CeDestinationStatusDescriptor where
  flags : UInt16
  length : UInt16

/-- Return and clear the length. -/
def CeDestinationStatusDescriptor.takeLength (d : CeDestinationStatusDescriptor) :
    UInt16 × CeDestinationStatusDescriptor :=
  (d.length, { d with length := 0 })

structure PendingReceive where
  statusOffset : Nat
  payload : Bytes
  clearedWord : CeDestinationStatusDescriptor
  lenCleared : Bool

structure ReceiveSide where
  destination : Srng
  status : Srng
  statusMemory : List CeDestinationStatusDescriptor
  destinationSlots : List (Option CeRxBuffer)
  destinationSoftwareIndex : Nat
  pendingReceive : Option PendingReceive
  rxBuffersNeeded : UInt16
  sourceSizeMax : UInt16

/-- `allocation` is what the memory of a new buffer reads. -/
structure PostAnswers where
  allocation : Option (Nat → UInt8)
  address : Bool
  pointer : Option UInt32
  descriptor : Bool
  publication : Bool

/-- A failed clearing leaves some word in the entry. -/
structure RecvAnswers where
  pointer : Option UInt32
  statusRead : Bool
  acquire : Bool
  refresh : Bool
  payloadRead : Bool
  clear : Except CeDestinationStatusDescriptor Unit
  publication : Bool

namespace ReceiveSide

abbrev OnReceive (α : Type) := Eff ReceiveSide Empty CeError α

def onDestination (f : Srng → Srng) : OnReceive Unit :=
  Eff.modify fun p => { p with destination := f p.destination }

def onStatus (f : Srng → Srng) : OnReceive Unit :=
  Eff.modify fun p => { p with status := f p.status }

def refreshPointer (on : (Srng → Srng) → OnReceive Unit) (pointer : Option UInt32) :
    OnReceive Unit :=
  match pointer with
  | some pointer => on (·.accessBegin pointer)
  | none => fail .deviceFault

def setSlot (slot : Nat) (buffer : Option CeRxBuffer) : OnReceive Unit :=
  Eff.modify fun p => { p with destinationSlots := p.destinationSlots.set slot buffer }

def setPending (pending : Option PendingReceive) : OnReceive Unit :=
  Eff.modify fun p => { p with pendingReceive := pending }

def setStatus (entry : Nat) (word : CeDestinationStatusDescriptor) : OnReceive Unit :=
  Eff.modify fun p => { p with statusMemory := p.statusMemory.set entry word }

def destinationStep : OnReceive (Option Nat) := fun p =>
  ⟨.ok p.destination.sourceNext.1, { p with destination := p.destination.sourceNext.2 }, []⟩

def statusStep : OnReceive (Option Nat) := fun p =>
  ⟨.ok p.status.destinationNext.1, { p with status := p.status.destinationNext.2 }, []⟩

variable (answers : PostAnswers)

def placeReceive (buffer : CeRxBuffer) (slot : Nat) : OnReceive Unit := do
  ofExcept (Answered answers.descriptor)
  setSlot slot (some buffer)
  ofExcept (Answered answers.publication)

/-- The end of `post_receive`, once the cursor was asked for an entry. -/
def settlePost (buffer : CeRxBuffer) (checkpoint : SrngCursor) (entrySize : Nat) :
    Option Nat → OnReceive Unit
  | none => do
    ofExcept (Answered answers.publication)
    fail .noCredits
  | some offset => do
    match ← (placeReceive answers buffer (offset / entrySize)).attempt with
    | .ok () => Eff.modify fun p => { p with rxBuffersNeeded := p.rxBuffersNeeded - 1 }
    | .error e => do
      onDestination (·.restore checkpoint)
      setSlot (offset / entrySize) none
      fail e

def postReceive (buffer : CeRxBuffer) : OnReceive Unit := do
  ofExcept (Answered answers.address)
  refreshPointer onDestination answers.pointer
  let checkpoint ← look fun p => p.destination.checkpoint
  let entrySize ← look fun p => p.destination.entrySize
  let offset ← destinationStep
  settlePost answers buffer checkpoint entrySize offset

/-- Allocate a buffer and post it. -/
def postFresh : OnReceive Unit :=
  match answers.allocation with
  | none => fail .deviceFault
  | some memory => do
    let size ← look sourceSizeMax
    postReceive answers ⟨(List.range size.toNat).map memory, false⟩

/-- The loop of `rx_post_pipe`; a round that succeeds needs one less. -/
def rxPostLoop (answers : Nat → PostAnswers) : Nat → OnReceive Unit
  | 0 => return ()
  | needed + 1 => do
    postFresh (answers needed)
    rxPostLoop answers needed

def rxPostPipe (answers : Nat → PostAnswers) : OnReceive Unit := do
  let needed ← look rxBuffersNeeded
  rxPostLoop answers needed.toNat

variable (answers : RecvAnswers)

/-- The CPU acquires the buffer once, however often the refresh fails. -/
def syncForCpu (slot : Nat) (buffer : CeRxBuffer) : OnReceive Unit :=
  if buffer.cpuOwned then ofExcept (Answered answers.refresh)
  else do
    ofExcept (Answered answers.acquire)
    setSlot slot (some { buffer with cpuOwned := true })
    ofExcept (Answered answers.refresh)

/-- Read the completion at `offset` into a pending record. -/
def readCompletion (offset entry slot : Nat) : OnReceive Unit := do
  ofExcept (Answered answers.statusRead)
  match ← look fun p => p.statusMemory[entry]? with
  | none => fail .deviceFault
  | some descriptor => do
    let length := descriptor.takeLength.1.toNat
    match ← look fun p => (p.destinationSlots[slot]?).join with
    | none => fail .deviceFault
    | some buffer =>
      if length = 0 ∨ length > buffer.capacity then fail .invalidFrame
      else do
        syncForCpu answers slot buffer
        ofExcept (Answered answers.payloadRead)
        setPending (some ⟨offset, buffer.memory.take length, descriptor.takeLength.2, false⟩)

/-- The pending record is that of this entry; it is made if there is none. -/
def pend (offset entry slot : Nat) : OnReceive Unit := do
  match ← look pendingReceive with
  | some pending =>
    if pending.statusOffset ≠ offset then fail .deviceFault else return ()
  | none => readCompletion answers offset entry slot

/-- The length is cleared at most once for a record. -/
def clearLength (entry : Nat) : OnReceive Unit := do
  match ← look pendingReceive with
  | none => fail .deviceFault
  | some pending =>
    if pending.lenCleared then return ()
    else
      match answers.clear with
      | .error left => do
        setStatus entry left
        fail .deviceFault
      | .ok () => do
        setStatus entry pending.clearedWord
        setPending (some { pending with lenCleared := true })

def completeAt (offset entry slot : Nat) : OnReceive Unit := do
  pend answers offset entry slot
  clearLength answers entry
  ofExcept (Answered answers.publication)

/-- Hand the pending record out. -/
def deliver (slot : Nat) : OnReceive (Option Bytes) := do
  match ← look pendingReceive with
  | none => fail .deviceFault
  | some pending => do
    setPending none
    Eff.modify fun p => { p with
      destinationSoftwareIndex := (slot + 1) &&& (p.destinationSlots.length - 1)
      rxBuffersNeeded := p.rxBuffersNeeded + 1 }
    match ← look fun p => (p.destinationSlots[slot]?).join with
    | none => fail .deviceFault
    | some _ => do
      setSlot slot none
      return some pending.payload

/-- The end of `completed_recv_next`, once the cursor was asked for an
entry. -/
def settleReceive (checkpoint : SrngCursor) (entrySize : Nat) :
    Option Nat → OnReceive (Option Bytes)
  | none => do
    ofExcept (Answered answers.publication)
    return none
  | some offset => do
    let slot ← look destinationSoftwareIndex
    match ← (completeAt answers offset (offset / entrySize) slot).attempt with
    | .error e => do
      onStatus (·.restore checkpoint)
      fail e
    | .ok () => deliver slot

def completedRecvNext : OnReceive (Option Bytes) := do
  refreshPointer onStatus answers.pointer
  let checkpoint ← look fun p => p.status.checkpoint
  let entrySize ← look fun p => p.status.entrySize
  let offset ← statusStep
  settleReceive answers checkpoint entrySize offset

end ReceiveSide

/-! ## Pipes -/

structure InitializedPipe where
  source : Option SourceSide
  receive : Option ReceiveSide

namespace InitializedPipe

/-- `setup_ring` of a ring with entries, programmed without a fault. -/
def setupRing (ringType : RingType) (entries entryBytes : UInt16) (pipeNumber : UInt8) :
    Except HalError Srng :=
  Srng.setup ringType pipeNumber 0 (allocateCeRing entries entryBytes) (.ok ())

def initSource (config : HostPipeConfig) (pipeNumber : UInt8) :
    Except HalError (Option SourceSide) :=
  if config.sourceEntries = 0 then return none
  else do
    let ring ← setupRing .ceSource config.sourceEntries 16 pipeNumber
    return some
      { ring, slots := List.replicate config.sourceEntries.toNat none, flags := config.flags }

/-- The status ring's memory holds whatever it does at first. -/
def initReceive (config : HostPipeConfig) (pipeNumber : UInt8)
    (statusMemory : Nat → CeDestinationStatusDescriptor) :
    Except HalError (Option ReceiveSide) :=
  if config.destinationEntries = 0 then return none
  else do
    let destination ← setupRing .ceDestination config.destinationEntries 8 pipeNumber
    let status ← setupRing .ceDestinationStatus config.destinationEntries 16 pipeNumber
    return some
      { destination, status
        statusMemory := (List.range config.destinationEntries.toNat).map statusMemory
        destinationSlots := List.replicate config.destinationEntries.toNat none
        destinationSoftwareIndex := 0
        pendingReceive := none
        rxBuffersNeeded := config.destinationEntries - 2
        sourceSizeMax := config.sourceSizeMax }

def init (config : HostPipeConfig) (pipeNumber : UInt8)
    (statusMemory : Nat → CeDestinationStatusDescriptor) : Except HalError InitializedPipe := do
  let source ← initSource config pipeNumber
  let receive ← initReceive config pipeNumber statusMemory
  return ⟨source, receive⟩

end InitializedPipe

namespace CePipes

/-- `init_pipes` of the pipes of a table, from a first number on. -/
def initPipes (statusMemory : Nat → CeDestinationStatusDescriptor) :
    List HostPipeConfig → Nat → Except HalError (List InitializedPipe)
  | [], _ => return []
  | config :: rest, pipeNumber => do
    let pipe ← InitializedPipe.init config (UInt8.ofNat pipeNumber) statusMemory
    let later ← initPipes statusMemory rest (pipeNumber + 1)
    return pipe :: later

variable {C α : Type} (pipe : Nat)

/-- Run on the source side of a pipe. -/
def onSource (x : Eff SourceSide C CeError α) :
    Eff (List InitializedPipe) C CeError α := fun pipes =>
  match pipes[pipe]? with
  | none => ⟨.error .invalidFrame, pipes, []⟩
  | some p =>
    match p.source with
    | none => ⟨.error .deviceFault, pipes, []⟩
    | some side =>
      let o := x side
      ⟨o.result, pipes.set pipe { p with source := some o.state }, o.calls⟩

/-- Run on the receive side of a pipe. -/
def onReceive (x : Eff ReceiveSide C CeError α) :
    Eff (List InitializedPipe) C CeError α := fun pipes =>
  match pipes[pipe]? with
  | none => ⟨.error .invalidFrame, pipes, []⟩
  | some p =>
    match p.receive with
    | none => ⟨.error .deviceFault, pipes, []⟩
    | some side =>
      let o := x side
      ⟨o.result, pipes.set pipe { p with receive := some o.state }, o.calls⟩

def send (answers : SendAnswers) (buffer : CeTxBuffer) (transferId : UInt16) :
    Eff (List InitializedPipe) CeCall CeError Unit :=
  onSource pipe (SourceSide.send answers buffer transferId)

def completedSendNext (pointer : Option UInt32) :
    Eff (List InitializedPipe) CeCall CeError (Option CeTxBuffer) :=
  onSource pipe (SourceSide.completedSendNext pointer)

/-- A pipe without a receive side needs no buffers. -/
def rxPostPipe (answers : Nat → PostAnswers) :
    Eff (List InitializedPipe) Empty CeError Unit := fun pipes =>
  match pipes[pipe]? with
  | some ⟨_, none⟩ => ⟨.ok (), pipes, []⟩
  | _ => onReceive pipe (ReceiveSide.rxPostPipe answers) pipes

def completedRecvNext (answers : RecvAnswers) :
    Eff (List InitializedPipe) Empty CeError (Option Bytes) :=
  onReceive pipe (ReceiveSide.completedRecvNext answers)

end CePipes

end Drv.Ath11k
