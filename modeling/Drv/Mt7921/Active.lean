import Drv.Mt7921.Routing

/-!
# The command engine over the hardware

`Board` is the hardware behind the owned resources: registers of the
first BAR, the memory shared with the device, the interrupt and the
clock, each call answered in any way. `activeMcu` is the transport that
`ActiveMcuViews` gives the command engine: the board, with the receive
rings behind `RxRouting`.
-/

namespace Drv.Mt7921

open Drv.Hardware (Error)

/-! ## The board -/

/-- The memory shared with the device. -/
inductive Memory where
  | mcuTxRing | commandPayloads | fwdlRing | fwdlPayload
  | rxRing (ring : McuRxIrqRing)
  | rxBuffers (ring : McuRxIrqRing)
  | dataRxRing | dataRxBuffers
  | managementTxRing | managementTxwi | managementFrame

/-- Calls on the hardware. -/
inductive Port where
  | readU32 (offset : Nat)
  | writeU32 (offset : Nat) (value : UInt32)
  | deviceAddress (memory : Memory) (offset : Nat)
  | read (memory : Memory) (offset length : Nat)
  | write (memory : Memory) (offset : Nat) (bytes : Bytes)
  | waitUntil (deadline : UInt64)
  | sleepBefore (deadline : UInt64)

@[reducible] def Port.Answer : Port → Type
  | .readU32 _ => UInt32
  | .deviceAddress .. => UInt64
  | .read .. => Bytes
  | .waitUntil _ | .sleepBefore _ => Bool
  | _ => Unit

structure Board (η : Type) where
  payloadsLen : η → Nat
  handle : (p : Port) → η → Except Error p.Answer × η

/-! ## Registers -/

def wfdma : Nat := 0xd4000
def mcuTxDidx : Nat := wfdma + 0x41c
def mcuTxCidx : Nat := wfdma + 0x418
def fwdlDidx : Nat := wfdma + 0x40c
def fwdlCidx : Nat := wfdma + 0x408
def hostIntStatus : Nat := wfdma + 0x200
def hostIntEnable : Nat := wfdma + 0x204
def rxRingBase : Nat := wfdma + 0x500
def ringStride : Nat := 0x10
def ringCidx : Nat := 0x08

/-- The producer index of a receive ring. -/
def rxCidx (ring : McuRxIrqRing) : Nat :=
  rxRingBase + (LoaderMechanics.ringNumber ring).toNat * ringStride + ringCidx

/-! ## The transport -/

/-- A call of the transport. -/
abbrev Views (η α : Type) := Eff (η × RxRouting) Empty Error α

section
variable {η : Type} (B : Board η)

/-- One call on the hardware. -/
def port (p : Port) : Views η p.Answer := fun s =>
  ⟨(B.handle p s.1).1, ((B.handle p s.1).2, s.2), []⟩

/-- One call on the receive routing, which may use the hardware. -/
def routing (f : RxRouting → η → Except Error Unit × η × RxRouting) : Views η Unit := fun s =>
  ⟨(f s.2 s.1).1, (f s.2 s.1).2, []⟩

def descriptorOf (memory : Memory) (slot : UInt16) : Views η DmaDescriptor := do
  let bytes ← port B (.read memory (slot.toNat * dmaDescriptorLen) dmaDescriptorLen)
  return DmaDescriptor.fromBytes bytes

abbrev writeDescriptor (memory : Memory) (slot : UInt16) (descriptor : DmaDescriptor) : Port :=
  .write memory (slot.toNat * dmaDescriptorLen) descriptor.toLeBytes

/-- Change the interrupt mask, which other rings share. -/
def maskInterrupts (f : UInt32 → UInt32) : Views η Unit := do
  let enabled ← port B (.readU32 hostIntEnable)
  if enabled = 0xffffffff then Eff.fail .deviceFault
  else port B (.writeU32 hostIntEnable (f enabled))

def views : (r : Request) → Views η r.Answer
  | .commandPayloadAddress _ => port B (.deviceAddress .commandPayloads 0)
  | .writeCommandPayload _ bytes => port B (.write .commandPayloads 0 bytes)
  | .writeCommandDescriptor slot descriptor =>
    port B (writeDescriptor .mcuTxRing slot descriptor)
  | .enableResponseInterrupts mask => maskInterrupts B (· ||| mask)
  | .publishCommandProducer producer => port B (.writeU32 mcuTxCidx producer.toUInt32)
  | .commandDmaIndex => port B (.readU32 mcuTxDidx)
  | .readCommandDescriptor slot => descriptorOf B .mcuTxRing slot
  | .reclaimCommand slot => do
    port B (writeDescriptor .mcuTxRing slot .reset)
    port B (.write .commandPayloads 0 (List.replicate loaderCommandMaxBytes 0))
  | .waitForInterrupt deadline => port B (.waitUntil deadline)
  | .waitForProgress deadline => port B (.sleepBefore deadline)
  | .maskResponseInterrupts => maskInterrupts B (· &&& ~~~ loaderResponseIrqMask)
  | .responseInterruptStatus => port B (.readU32 hostIntStatus)
  | .acknowledgeResponseInterrupts status => port B (.writeU32 hostIntStatus status)
  | .readRxDescriptor ring slot => descriptorOf B (.rxRing ring) slot
  | .readRxBuffer ring slot length =>
    port B (.read (.rxBuffers ring) (slot.toNat * mcuRxBufferBytes) length)
  | .rxBufferAddress ring slot =>
    port B (.deviceAddress (.rxBuffers ring) (slot.toNat * mcuRxBufferBytes))
  | .repostRxDescriptor ring slot descriptor =>
    routing fun r => r.repost ring slot (B.handle (writeDescriptor (.rxRing ring) slot descriptor))
  | .publishRxProducer ring producer =>
    routing fun r => r.publish ring producer (B.handle (.writeU32 (rxCidx ring) producer.toUInt32))
  | .prepareRxResult ring slot posted _ routed disposition =>
    routing fun r => r.prepare ring slot posted routed disposition
  | .completeRxResult ring slot => routing fun r => r.complete ring slot
  | .abortRx => Eff.modify fun s => (s.1, s.2.abort)
  | .scatterPayloadAddress => port B (.deviceAddress .fwdlPayload 0)
  | .writeScatterPayload bytes => port B (.write .fwdlPayload 0 bytes)
  | .writeScatterDescriptor slot descriptor => port B (writeDescriptor .fwdlRing slot descriptor)
  | .publishScatterProducer producer => port B (.writeU32 fwdlCidx producer.toUInt32)
  | .scatterDmaIndex => port B (.readU32 fwdlDidx)
  | .readScatterDescriptor slot => descriptorOf B .fwdlRing slot
  | .reclaimScatter slot => do
    port B (writeDescriptor .fwdlRing slot .reset)
    port B (.write .fwdlPayload 0 (List.replicate fwdlChunkBytes 0))

/-- `ActiveMcuViews` -/
def activeMcu : LoaderMechanicsTransport (η × RxRouting) Error where
  commandPayloadCapacity _ s := B.payloadsLen s.1
  handle r s := ((views B r s).result, (views B r s).state)

end

/-! ## The calls of a run -/

/-- A call on the hardware and its answer. -/
abbrev BoardCall := (p : Port) × Except Error p.Answer

/-- The same board, with a log of its calls. -/
def Board.logged {η : Type} (B : Board η) : Board (η × List BoardCall) where
  payloadsLen h := B.payloadsLen h.1
  handle p h := ((B.handle p h.1).1, (B.handle p h.1).2, h.2 ++ [⟨p, (B.handle p h.1).1⟩])

end Drv.Mt7921
