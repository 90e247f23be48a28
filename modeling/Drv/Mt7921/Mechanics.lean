import Drv.Base.Effect
import Drv.Mt7921.Encode

/-!
# The MCU command engine

`LoaderMechanics` as the crate has it: the cursors of the command ring,
of the two MCU receive rings and of the firmware download ring, the
command and the scatter chunk that the device may still own, and the
response a deferred command waits for.

The engine reaches the hardware through a transport, one `Request` for
each method of the trait; what a transport does with a request is up to
it, and it may refuse any. `LoaderMechanics.Op` are the public
operations, and `run` is any sequence of them. Where the source waits in
a loop for as long as the transport lets it, the number of turns is a
parameter, and an operation that is still waiting answers `none`.
-/

namespace Drv.Mt7921

open Eff (fail look ofExcept)

/-! ## Constants -/

def loaderResponseIrqMask : UInt32 := ((1 : UInt32) <<< 0) ||| ((1 : UInt32) <<< 22)
def loaderCommandMaxBytes : Nat := 4096
def mcuTxRingCount : UInt16 := 256
def mcuRxRingCount : UInt16 := 8
def mcuRxBufferBytes : Nat := 2048
def fwdlRingCount : UInt16 := 128
def fwdlChunkBytes : Nat := 4096

/-- `next(index, count)` -/
def next (index count : UInt16) : UInt16 := (index + 1) % count

/-- One value for each MCU receive ring. -/
structure PerRing (α : Type) where
  wm : α
  wm2 : α
  deriving DecidableEq

namespace PerRing

variable {α : Type} (p : PerRing α)

def get : McuRxIrqRing → α
  | .wm => p.wm
  | .wm2 => p.wm2

def set (ring : McuRxIrqRing) (a : α) : PerRing α :=
  match ring with
  | .wm => { p with wm := a }
  | .wm2 => { p with wm2 := a }

@[simp] theorem get_set_self (ring : McuRxIrqRing) (a : α) : (p.set ring a).get ring = a := by
  cases ring <;> rfl

theorem get_set_of_ne {ring other : McuRxIrqRing} (a : α) (h : other ≠ ring) :
    (p.set ring a).get other = p.get other := by
  cases ring <;> cases other <;> first | rfl | exact absurd rfl h

end PerRing

/-! ## The transport -/

/-- The methods of the transport that can fail. -/
inductive Request where
  | commandPayloadAddress (slot : UInt16)
  | writeCommandPayload (slot : UInt16) (bytes : Bytes)
  | writeCommandDescriptor (slot : UInt16) (descriptor : DmaDescriptor)
  | enableResponseInterrupts (mask : UInt32)
  | publishCommandProducer (producer : UInt16)
  | commandDmaIndex
  | readCommandDescriptor (slot : UInt16)
  | reclaimCommand (slot : UInt16)
  | waitForInterrupt (deadline : UInt64)
  | waitForProgress (deadline : UInt64)
  | maskResponseInterrupts
  | responseInterruptStatus
  | acknowledgeResponseInterrupts (status : UInt32)
  | readRxDescriptor (ring : McuRxIrqRing) (slot : UInt16)
  | readRxBuffer (ring : McuRxIrqRing) (slot : UInt16) (length : Nat)
  | rxBufferAddress (ring : McuRxIrqRing) (slot : UInt16)
  | repostRxDescriptor (ring : McuRxIrqRing) (slot : UInt16) (descriptor : DmaDescriptor)
  | publishRxProducer (ring : McuRxIrqRing) (producer : UInt16)
  | prepareRxResult (ring : McuRxIrqRing) (slot posted : UInt16) (raw : Bytes)
      (routed : Except McuRxRouteError McuRxRoute) (disposition : Option FirmwareRxDisposition)
  | completeRxResult (ring : McuRxIrqRing) (slot : UInt16)
  | abortRx
  | scatterPayloadAddress
  | writeScatterPayload (bytes : Bytes)
  | writeScatterDescriptor (slot : UInt16) (descriptor : DmaDescriptor)
  | publishScatterProducer (producer : UInt16)
  | scatterDmaIndex
  | readScatterDescriptor (slot : UInt16)
  | reclaimScatter (slot : UInt16)

/-- What a method answers when it does not fail. -/
@[reducible] def Request.Answer : Request → Type
  | .commandPayloadAddress _ | .rxBufferAddress .. | .scatterPayloadAddress => UInt64
  | .commandDmaIndex | .responseInterruptStatus | .scatterDmaIndex => UInt32
  | .readCommandDescriptor _ | .readRxDescriptor .. | .readScatterDescriptor _ => DmaDescriptor
  | .waitForInterrupt _ | .waitForProgress _ => Bool
  | .readRxBuffer .. => Bytes
  | _ => Unit

structure LoaderMechanicsTransport (τ ε : Type) where
  commandPayloadCapacity : UInt16 → τ → Nat
  handle : (r : Request) → τ → Except ε r.Answer × τ

/-! ## State -/

inductive FirmwareImagePart where
  | patch | ram
  deriving DecidableEq

inductive LoaderCommandCompletion where
  | response | noResponse

def LoaderCommandCompletion.forDownload : DownloadCommand → LoaderCommandCompletion
  | .nicPowerControl | .firmwareLogToHost => .noResponse
  | _ => .response

inductive LoaderCompletion where
  | response (response : FirmwareRx)
  | noResponse
  deriving DecidableEq

inductive LoaderCommandProgress where
  | pending (progressed : Bool)
  | complete (completion : LoaderCompletion)

inductive LoaderMechanicsError (ε : Type) where
  | encode (error : DownloadCommandError)
  | invalidCommandLength
  | invalidReservedSequence (reserved current : UInt8)
  | invalidCommandDmaIndex (index : UInt32)
  | invalidScatterDmaIndex (index : UInt32)
  | descriptor (error : DescriptorError)
  | txDescriptorNotDone (slot : UInt16)
  | scatterDescriptorNotDone (slot : UInt16)
  | route (error : McuRxRouteError)
  | duplicateResponse
  | timeout
  | commandPending (slot : UInt16)
  | noCommandPending
  | commandFailed
  | scatterPending
  | noScatterPending
  | scatterMismatch
  | invalidScatterLength
  | transport (error : ε)
  | containmentRequired (error : ε)

structure PendingScatter where
  part : FirmwareImagePart
  sequence : UInt8
  slot : UInt16
  producer : UInt16

structure DeferredCommand where
  slot : UInt16
  sequence : UInt8
  completion : Option LoaderCompletion
  failed : Bool

structure LoaderMechanics where
  sequence : UInt8
  commandProducer : UInt16
  pendingCommand : Option UInt16
  deferredCommand : Option DeferredCommand
  rxHead : PerRing UInt16
  fwdlProducer : UInt16
  pendingScatter : Option PendingScatter

/-- The engine and the transport it is given. -/
structure Session (τ : Type) where
  mechanics : LoaderMechanics
  transport : τ

/-- An operation of the engine. -/
abbrev Mcu (τ ε α : Type) := Eff (Session τ) Empty (LoaderMechanicsError ε) α

namespace LoaderMechanics

def new (sequence : UInt8) : LoaderMechanics where
  sequence := sequence
  commandProducer := 0
  pendingCommand := none
  deferredCommand := none
  rxHead := ⟨0, 0⟩
  fwdlProducer := 0
  pendingScatter := none

def activeCommandSlot (m : LoaderMechanics) : Option UInt16 :=
  m.pendingCommand <|> m.deferredCommand.map DeferredCommand.slot

section
variable {τ ε : Type} (T : LoaderMechanicsTransport τ ε)

/-- Make a request; the answer may be a failure. -/
def ask (r : Request) : Mcu τ ε (Except ε r.Answer) := fun s =>
  ⟨.ok (T.handle r s.transport).1, { s with transport := (T.handle r s.transport).2 }, []⟩

/-- Make a request, and fail with what `wrap` makes of its failure. -/
def demand (wrap : ε → LoaderMechanicsError ε) (r : Request) : Mcu τ ε r.Answer := do
  match ← ask T r with
  | .ok answer => return answer
  | .error error => fail (wrap error)

/-- Make a request whose failure leaves it unknown what the device has. -/
abbrev contain (r : Request) : Mcu τ ε r.Answer := demand T .containmentRequired r

def commandPayloadCapacity (slot : UInt16) : Mcu τ ε Nat :=
  look fun s => T.commandPayloadCapacity slot s.transport

def mechanics : Mcu τ ε LoaderMechanics := look Session.mechanics

def update (f : LoaderMechanics → LoaderMechanics) : Mcu τ ε Unit :=
  Eff.modify fun s => { s with mechanics := f s.mechanics }

/-! ## Sequence numbers -/

def reserveSequenceUnchecked : Mcu τ ε UInt8 := do
  update fun m => { m with sequence := m.sequence % 15 + 1 }
  return (← mechanics).sequence

def reserveSequence : Mcu τ ε UInt8 := do
  match (← mechanics).activeCommandSlot with
  | some slot => fail (.commandPending slot)
  | none => reserveSequenceUnchecked

/-- The caller publishes the command itself. -/
def commitCandidateCommand (sequence : UInt8) : Mcu τ ε (UInt16 × UInt16) := do
  let m ← mechanics
  match m.activeCommandSlot with
  | some slot => fail (.commandPending slot)
  | none =>
    let expected := m.sequence % 15 + 1
    if sequence ≠ expected then fail (.invalidReservedSequence sequence expected)
    else do
      let producer := next m.commandProducer mcuTxRingCount
      update fun m => { m with sequence := sequence, commandProducer := producer }
      return (m.commandProducer, producer)

/-! ## Publication and reclaim of a command -/

/-- Only a command with a response needs the interrupts. -/
def enableFor : LoaderCommandCompletion → Mcu τ ε Unit
  | .response => demand T .transport (.enableResponseInterrupts loaderResponseIrqMask)
  | .noResponse => return ()

def publishReservedTemplate (sequence : UInt8) (template : Bytes)
    (completion : LoaderCommandCompletion) : Mcu τ ε Unit := do
  let m ← mechanics
  match m.pendingCommand with
  | some slot => fail (.commandPending slot)
  | none =>
    if sequence = 0 ∨ sequence ≠ m.sequence then
      fail (.invalidReservedSequence sequence m.sequence)
    else if template.length < 48 ∨ template.length > loaderCommandMaxBytes then
      fail .invalidCommandLength
    else do
      let slot := m.commandProducer
      if template.length > (← commandPayloadCapacity T slot) then fail .invalidCommandLength
      else do
        let encoded := template.set 39 sequence
        let address ← demand T .transport (.commandPayloadAddress slot)
        let descriptor ← ofExcept
          ((mt7921DmaTx ⟨address, UInt16.ofNat encoded.length⟩ none 0).mapError .descriptor)
        let _ ← demand T .transport (.writeCommandPayload slot encoded)
        let _ ← demand T .transport (.writeCommandDescriptor slot descriptor)
        enableFor T completion
        let producer := next slot mcuTxRingCount
        -- a failed publication may have reached the device, so the slot is kept
        update fun m => { m with commandProducer := producer, pendingCommand := some slot }
        contain T (.publishCommandProducer producer)

def commandConsumed (producer : UInt16) : Mcu τ ε Bool := do
  let didx ← contain T .commandDmaIndex
  if didx ≥ mcuTxRingCount.toUInt32 then fail (.invalidCommandDmaIndex didx)
  else return didx = producer.toUInt32

def tryReclaimCommand : Mcu τ ε Bool := do
  let m ← mechanics
  match m.pendingCommand with
  | none => return true
  | some slot => do
    if ← commandConsumed T m.commandProducer then
      let descriptor ← contain T (.readCommandDescriptor slot)
      if descriptor.isDmaDone then do
        let _ ← contain T (.reclaimCommand slot)
        update fun m => { m with pendingCommand := none }
        return true
      else fail (.txDescriptorNotDone slot)
    else return false

def waitCommandReclaim (deadline : UInt64) : Nat → Mcu τ ε (Option Unit)
  | 0 => return none
  | turns + 1 => do
    if ← tryReclaimCommand T then return some ()
    else if ← contain T (.waitForProgress deadline) then
      waitCommandReclaim deadline turns
    else if ← tryReclaimCommand T then return some ()
    else fail .timeout

/-! ## Receive -/

def ringNumber : McuRxIrqRing → UInt8
  | .wm => 0
  | .wm2 => 4

/-- The descriptor before the consumed one, which was vacant. -/
def posted (consumed : UInt16) : UInt16 := (consumed + mcuRxRingCount - 1) % mcuRxRingCount

def disposition (sequence : Option UInt8) :
    Except McuRxRouteError McuRxRoute → Option FirmwareRxDisposition
  | .ok (.firmware response) => some (classifyFirmwareRx sequence response.response)
  | _ => none

/-- Give the vacant descriptor to the device in place of the consumed
one. -/
def repostRx (ring : McuRxIrqRing) (consumed : UInt16) : Mcu τ ε Unit := do
  let address ← contain T (.rxBufferAddress ring (posted consumed))
  let fresh ← ofExcept
    ((mt7921DmaRx ⟨address, UInt16.ofNat mcuRxBufferBytes⟩).mapError .descriptor)
  let _ ← contain T (.repostRxDescriptor ring (posted consumed) fresh)
  update fun m => { m with rxHead := m.rxHead.set ring (next consumed mcuRxRingCount) }
  contain T (.publishRxProducer ring consumed)

/-- Take one completed descriptor: the response it carries, if it is the
awaited one. -/
def receiveRx (ring : McuRxIrqRing) (sequence : Option UInt8) (consumed : UInt16)
    (descriptor : DmaDescriptor) : Mcu τ ε (Option FirmwareRx) := do
  match ← ask T (.readRxBuffer ring consumed (min descriptor.length mcuRxBufferBytes)) with
  | .error error => do
    -- the descriptor is replaced before the failure is told
    repostRx T ring consumed
    fail (.containmentRequired error)
  | .ok bytes => do
    let routed := routeMcuRxDescriptor (ringNumber ring) consumed descriptor.ctrl bytes
    let _ ← contain T
      (.prepareRxResult ring consumed (posted consumed) bytes routed (disposition sequence routed))
    repostRx T ring consumed
    let _ ← contain T (.completeRxResult ring consumed)
    match routed with
    | .error error => fail (.route error)
    | .ok (.firmware response) =>
      if classifyFirmwareRx sequence response.response = .matched then return some response
      else return none
    | .ok _ => return none

def drainRx (ring : McuRxIrqRing) (sequence : Option UInt8) :
    Nat → Option FirmwareRx → Mcu τ ε (Option FirmwareRx)
  | 0, found => return found
  | budget + 1, found => do
    let consumed := (← mechanics).rxHead.get ring
    let descriptor ← contain T (.readRxDescriptor ring consumed)
    if descriptor.isDmaDone then do
      match ← receiveRx T ring sequence consumed descriptor with
      | none => drainRx ring sequence budget found
      | some response =>
        if found.isSome then fail .duplicateResponse
        else drainRx ring sequence budget (some response)
    else return found

/-- Acknowledge the interrupt and drain both rings. -/
def drainRings (sequence : Option UInt8) (budget : Nat) : Mcu τ ε (Option FirmwareRx) := do
  let status ← contain T .responseInterruptStatus
  let _ ← contain T
    (.acknowledgeResponseInterrupts (status &&& loaderResponseIrqMask))
  let first ← drainRx T .wm sequence budget none
  let second ← drainRx T .wm2 sequence budget none
  match first, second with
  | some _, some _ => fail .duplicateResponse
  | some response, none => return some response
  | none, second => return second

def pollResponse (sequence : Option UInt8) (budget : Nat) : Mcu τ ε (Option FirmwareRx) := do
  match ← ask T .maskResponseInterrupts with
  | .error source => do
    let _ ← contain T .abortRx
    fail (.containmentRequired source)
  | .ok _ => do
    let operation ← (drainRings T sequence budget).attempt
    let unmask ← ask T (.enableResponseInterrupts loaderResponseIrqMask)
    match operation, unmask with
    | .ok found, .ok _ => return found
    | _, .error error => do
      -- a mask that was not restored is told before any other failure
      let _ ← contain T .abortRx
      fail (.containmentRequired error)
    | .error error, .ok _ => do
      let _ ← contain T .abortRx
      fail error

def pollEvents : Mcu τ ε Bool := do
  let m ← mechanics
  match m.activeCommandSlot with
  | some slot => fail (.commandPending slot)
  | none => do
    let _ ← pollResponse T none 7
    return m.rxHead ≠ (← mechanics).rxHead

def waitResponse (sequence : UInt8) (deadline : UInt64) : Nat → Mcu τ ε (Option FirmwareRx)
  | 0 => return none
  | turns + 1 => do
    if ← contain T (.waitForInterrupt deadline) then
      match ← pollResponse T (some sequence) (2 ^ 64 - 1) with
      | some response => return some response
      | none => waitResponse sequence deadline turns
    else fail .timeout

/-! ## Commands -/

def beginCommand (template : Bytes) (completion : LoaderCommandCompletion) : Mcu τ ε Unit := do
  let m ← mechanics
  if m.pendingScatter.isSome then fail .scatterPending
  else
    match m.activeCommandSlot with
    | some slot => fail (.commandPending slot)
    | none =>
      if template.length < 48 ∨ template.length > loaderCommandMaxBytes then
        fail .invalidCommandLength
      else do
        if template.length > (← commandPayloadCapacity T m.commandProducer) then
          fail .invalidCommandLength
        else do
          let sequence ← reserveSequenceUnchecked
          let settled := match completion with
            | .response => none
            | .noResponse => some LoaderCompletion.noResponse
          update fun m => { m with
            deferredCommand := some ⟨m.commandProducer, sequence, settled, true⟩ }
          publishReservedTemplate T sequence template completion
          update fun m => { m with
            deferredCommand := m.deferredCommand.map fun c => { c with failed := false } }

/-- Keep the response of a deferred command. -/
def keepResponse : Option FirmwareRx → Mcu τ ε Unit
  | none => return ()
  | some response => do
    if ((← mechanics).deferredCommand.bind DeferredCommand.completion).isSome then
      fail .duplicateResponse
    else
      update fun m => { m with
        deferredCommand := m.deferredCommand.map fun c =>
          { c with completion := some (.response response) } }

/-- One turn of a deferred command. -/
def pumpCommand (sequence : UInt8) (before : LoaderMechanics) (expectsResponse : Bool) :
    Mcu τ ε LoaderCommandProgress := do
  keepResponse (← pollResponse T (if expectsResponse then some sequence else none) 7)
  let reclaimed ← tryReclaimCommand T
  let m ← mechanics
  match reclaimed, m.deferredCommand.bind DeferredCommand.completion with
  | true, some completion => do
    update fun m => { m with deferredCommand := none }
    return .complete completion
  | _, _ =>
    return .pending (before.rxHead ≠ m.rxHead ∨ before.pendingCommand ≠ m.pendingCommand)

def pollCommand : Mcu τ ε LoaderCommandProgress := do
  let m ← mechanics
  match m.deferredCommand with
  | none => fail .noCommandPending
  | some command =>
    if command.failed then fail .commandFailed
    else do
      match ← (pumpCommand T command.sequence m
          (command.completion ≠ some .noResponse)).attempt with
      | .ok progress => return progress
      | .error error => do
        update fun m => { m with
          deferredCommand := m.deferredCommand.map fun c => { c with failed := true } }
        fail error

/-- Wait for the response that a command asks for. -/
def awaitCompletion (sequence : UInt8) (completion : LoaderCommandCompletion) (deadline : UInt64)
    (turns : Nat) : Mcu τ ε (Option LoaderCompletion) :=
  match completion with
  | .noResponse => return some .noResponse
  | .response => do
    match ← waitResponse T sequence deadline turns with
    | none => return none
    | some response => return some (.response response)

def executeReservedTemplate (sequence : UInt8) (template : Bytes)
    (completion : LoaderCommandCompletion) (deadline : UInt64) (turns : Nat) :
    Mcu τ ε (Option LoaderCompletion) := do
  match (← mechanics).activeCommandSlot with
  | some slot => fail (.commandPending slot)
  | none => do
    publishReservedTemplate T sequence template completion
    match ← (awaitCompletion T sequence completion deadline turns).attempt with
    | .ok none => return none
    | result => do
      -- the slot is reclaimed before a failure of the response is told
      match ← waitCommandReclaim T deadline turns with
      | none => return none
      | some () => ofExcept result

def executeTemplate (template : Bytes) (completion : LoaderCommandCompletion) (deadline : UInt64)
    (turns : Nat) : Mcu τ ε (Option LoaderCompletion) := do
  let m ← mechanics
  match m.activeCommandSlot with
  | some slot => fail (.commandPending slot)
  | none =>
    if template.length < 48 ∨ template.length > loaderCommandMaxBytes then
      fail .invalidCommandLength
    else do
      if template.length > (← commandPayloadCapacity T m.commandProducer) then
        fail .invalidCommandLength
      else do
        let sequence ← reserveSequenceUnchecked
        executeReservedTemplate T sequence template completion deadline turns

def executeDownload (command : DownloadCommand) (deadline : UInt64) (turns : Nat) :
    Mcu τ ε (Option LoaderCompletion) := do
  match (← mechanics).activeCommandSlot with
  | some slot => fail (.commandPending slot)
  | none => do
    let sequence ← reserveSequenceUnchecked
    let encoded ← ofExcept ((encodeDownloadCommand command sequence).mapError .encode)
    executeReservedTemplate T sequence encoded (.forDownload command) deadline turns

/-! ## Firmware scatter -/

variable (part : FirmwareImagePart)

def publishReservedScatter (sequence : UInt8) (chunk : Bytes) : Mcu τ ε Unit := do
  let m ← mechanics
  match m.deferredCommand with
  | some command => fail (.commandPending command.slot)
  | none =>
    if sequence = 0 ∨ sequence ≠ m.sequence then
      fail (.invalidReservedSequence sequence m.sequence)
    else if m.pendingScatter.isSome then fail .scatterPending
    else if chunk = [] ∨ chunk.length > fwdlChunkBytes then fail .invalidScatterLength
    else do
      let slot := m.fwdlProducer
      let address ← demand T .transport .scatterPayloadAddress
      let descriptor ← ofExcept
        ((mt7921DmaTx ⟨address, UInt16.ofNat chunk.length⟩ none 0).mapError .descriptor)
      let _ ← demand T .transport (.writeScatterPayload chunk)
      let _ ← demand T .transport (.writeScatterDescriptor slot descriptor)
      let producer := next slot fwdlRingCount
      -- here the chunk is kept only after the publication was answered
      let _ ← contain T (.publishScatterProducer producer)
      update fun m => { m with
        fwdlProducer := producer
        pendingScatter := some ⟨part, sequence, slot, producer⟩ }

def publishScatter (chunk : Bytes) : Mcu τ ε UInt8 := do
  let m ← mechanics
  match m.deferredCommand with
  | some command => fail (.commandPending command.slot)
  | none =>
    if m.pendingScatter.isSome then fail .scatterPending
    else if chunk = [] ∨ chunk.length > fwdlChunkBytes then fail .invalidScatterLength
    else do
      let sequence ← reserveSequenceUnchecked
      publishReservedScatter T part sequence chunk
      return sequence

/-- One look at the consumer of the download ring. -/
def scatterConsumed (producer : UInt16) : Mcu τ ε Bool := do
  let didx ← contain T .scatterDmaIndex
  if didx ≥ fwdlRingCount.toUInt32 then fail (.invalidScatterDmaIndex didx)
  else return didx = producer.toUInt32

def waitScatter (producer : UInt16) (deadline : UInt64) : Nat → Mcu τ ε (Option Unit)
  | 0 => return none
  | turns + 1 => do
    if ← scatterConsumed T producer then return some ()
    else if ← contain T (.waitForProgress deadline) then
      waitScatter producer deadline turns
    else if ← scatterConsumed T producer then return some ()
    else fail .timeout

def completeScatter (sequence : UInt8) (deadline : UInt64) (turns : Nat) :
    Mcu τ ε (Option Unit) := do
  match (← mechanics).pendingScatter with
  | none => fail .noScatterPending
  | some pending =>
    if (pending.part, pending.sequence) ≠ (part, sequence) then fail .scatterMismatch
    else do
      match ← waitScatter T pending.producer deadline turns with
      | none => return none
      | some () => do
        let descriptor ← contain T (.readScatterDescriptor pending.slot)
        if descriptor.isDmaDone then do
          let _ ← contain T (.reclaimScatter pending.slot)
          update fun m => { m with pendingScatter := none }
          return some ()
        else fail (.scatterDescriptorNotDone pending.slot)

/-! ## Reset -/

def rebaseAfterWpdmaReset : Mcu τ ε Unit := do
  let m ← mechanics
  match m.activeCommandSlot with
  | some slot => fail (.commandPending slot)
  | none =>
    if m.pendingScatter.isSome then fail .scatterPending
    else
      update fun m => { m with commandProducer := 0, rxHead := ⟨0, 0⟩, fwdlProducer := 0 }

end

/-! ## Runs -/

/-- The public operations. -/
inductive Op where
  | beginCommand (template : Bytes) (completion : LoaderCommandCompletion)
  | pollCommand
  | commitCandidateCommand (sequence : UInt8)
  | reserveSequence
  | executeDownload (command : DownloadCommand) (deadline : UInt64) (turns : Nat)
  | executeTemplate (template : Bytes) (completion : LoaderCommandCompletion) (deadline : UInt64)
      (turns : Nat)
  | executeReservedTemplate (sequence : UInt8) (template : Bytes)
      (completion : LoaderCommandCompletion) (deadline : UInt64) (turns : Nat)
  | pollEvents
  | publishScatter (part : FirmwareImagePart) (chunk : Bytes)
  | publishReservedScatter (part : FirmwareImagePart) (sequence : UInt8) (chunk : Bytes)
  | completeScatter (part : FirmwareImagePart) (sequence : UInt8) (deadline : UInt64) (turns : Nat)
  | rebaseAfterWpdmaReset

def Op.Ret : Op → Type
  | .pollCommand => LoaderCommandProgress
  | .commitCandidateCommand _ => UInt16 × UInt16
  | .reserveSequence | .publishScatter .. => UInt8
  | .executeDownload .. | .executeTemplate .. | .executeReservedTemplate .. =>
    Option LoaderCompletion
  | .pollEvents => Bool
  | .completeScatter .. => Option Unit
  | .beginCommand .. | .publishReservedScatter .. | .rebaseAfterWpdmaReset => Unit

def Op.exec {τ ε : Type} (T : LoaderMechanicsTransport τ ε) : (op : Op) → Mcu τ ε op.Ret
  | .beginCommand template completion => LoaderMechanics.beginCommand T template completion
  | .pollCommand => LoaderMechanics.pollCommand T
  | .commitCandidateCommand sequence => LoaderMechanics.commitCandidateCommand sequence
  | .reserveSequence => LoaderMechanics.reserveSequence
  | .executeDownload command deadline turns =>
    LoaderMechanics.executeDownload T command deadline turns
  | .executeTemplate template completion deadline turns =>
    LoaderMechanics.executeTemplate T template completion deadline turns
  | .executeReservedTemplate sequence template completion deadline turns =>
    LoaderMechanics.executeReservedTemplate T sequence template completion deadline turns
  | .pollEvents => LoaderMechanics.pollEvents T
  | .publishScatter part chunk => LoaderMechanics.publishScatter T part chunk
  | .publishReservedScatter part sequence chunk =>
    LoaderMechanics.publishReservedScatter T part sequence chunk
  | .completeScatter part sequence deadline turns =>
    LoaderMechanics.completeScatter T part sequence deadline turns
  | .rebaseAfterWpdmaReset => LoaderMechanics.rebaseAfterWpdmaReset

/-- An operation of a run. -/
structure Step (τ ε : Type) where
  before : Session τ
  op : Op
  result : Except (LoaderMechanicsError ε) op.Ret
  after : Session τ

/-- Any sequence of operations. -/
def run {τ ε : Type} (T : LoaderMechanicsTransport τ ε) (s : Session τ) :
    List Op → List (Step τ ε) × Session τ
  | [] => ([], s)
  | op :: rest =>
    let o := op.exec T s
    let (steps, last) := run T o.state rest
    (⟨s, op, o.result, o.state⟩ :: steps, last)

end LoaderMechanics

end Drv.Mt7921
