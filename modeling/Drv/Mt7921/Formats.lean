import Drv.Base.Bytes

/-!
# Descriptors and received events

The DMA descriptor shared by all rings, and the parser that classifies
what the firmware wrote into a receive buffer: transmit completions,
transmit statuses, frames and firmware responses.
-/

namespace Drv.Mt7921

/-! ## Fields of a buffer -/

variable (bytes : Bytes)

/-- `bytes[i]`, for an index that is in range. -/
def byteAt (i : Nat) : UInt8 := bytes.getD i 0

/-- `bytes.get(start..stop)` -/
def slice (start stop : Nat) : Option Bytes :=
  if start ≤ stop ∧ stop ≤ bytes.length then some ((bytes.drop start).take (stop - start))
  else none

/-- The little-endian word at an offset that is in range. -/
def wordAt (offset : Nat) : UInt32 := UInt32.ofNat (Bytes.toNatLE ((bytes.drop offset).take 4))

def halfAt (offset : Nat) : UInt16 := UInt16.ofNat (Bytes.toNatLE ((bytes.drop offset).take 2))

def leBytes (word : UInt32) : Bytes := Bytes.ofNatLE 4 word.toNat

/-- `bytes[offset..].copy_from_slice(field)` -/
def patch (offset : Nat) (field : Bytes) : Bytes :=
  bytes.take offset ++ field ++ bytes.drop (offset + field.length)

/-! ## Descriptors -/

def dmaDescriptorLen : Nat := 16
def dmaCtlLastSec0 : UInt32 := (1 : UInt32) <<< 30
def dmaCtlLastSec1 : UInt32 := (1 : UInt32) <<< 14
def dmaCtlDmaDone : UInt32 := (1 : UInt32) <<< 31

structure DmaSegment where
  iova : UInt64
  len : UInt16

/-- The errors of the functions below. -/
inductive DescriptorError where
  | iovaAbove32Bits | segmentTooLong

structure DmaDescriptor where
  buf0 : UInt32
  ctrl : UInt32
  buf1 : UInt32
  info : UInt32

namespace DmaDescriptor

def reset : DmaDescriptor := ⟨0, dmaCtlDmaDone, 0, 0⟩

variable (descriptor : DmaDescriptor)

def isDmaDone : Bool := descriptor.ctrl &&& dmaCtlDmaDone ≠ 0

/-- Bits 16 to 29 of the control word. -/
def length : Nat := ((descriptor.ctrl >>> 16) &&& 0x3fff).toNat

def toLeBytes : Bytes :=
  leBytes descriptor.buf0 ++ leBytes descriptor.ctrl ++ leBytes descriptor.buf1 ++
    leBytes descriptor.info

/-- `descriptor_from_bytes` -/
def fromBytes : DmaDescriptor := ⟨wordAt bytes 0, wordAt bytes 4, wordAt bytes 8, wordAt bytes 12⟩

end DmaDescriptor

def validateMt7921Segment (segment : DmaSegment) : Except DescriptorError Unit :=
  if segment.iova > 0xffffffff then .error .iovaAbove32Bits
  else if segment.len > 0x3fff then .error .segmentTooLong
  else .ok ()

/-- Bits 32 to 35 of an address. -/
def addressHigh (iova : UInt64) : UInt32 := (iova >>> 32).toUInt32 &&& 0x0f

/-- The shared encoder checks for 36 bits and the same length, so it
cannot refuse what passed here. -/
def mt7921DmaTx (first : DmaSegment) (second : Option DmaSegment) (info : UInt32) :
    Except DescriptorError DmaDescriptor := do
  validateMt7921Segment first
  match second with
  | none =>
    return ⟨first.iova.toUInt32, (first.len.toUInt32 <<< 16) ||| dmaCtlLastSec0, 0,
      info ||| addressHigh first.iova⟩
  | some segment =>
    validateMt7921Segment segment
    return ⟨first.iova.toUInt32,
      (first.len.toUInt32 <<< 16) ||| (segment.len.toUInt32 ||| dmaCtlLastSec1),
      segment.iova.toUInt32,
      info ||| addressHigh first.iova ||| (addressHigh segment.iova <<< 16)⟩

def mt7921DmaRx (buffer : DmaSegment) : Except DescriptorError DmaDescriptor := do
  validateMt7921Segment buffer
  return ⟨buffer.iova.toUInt32, buffer.len.toUInt32 <<< 16, addressHigh buffer.iova, 0⟩

/-! ## Transmit completions -/

structure Mt7921TxFree where
  wcid : Option UInt16
  token : UInt16
  dropped : Bool
  attempts : UInt16
  status : UInt8
  pairWord : Option UInt32
  infoWord : UInt32

structure Mt7921TxStatus where
  wcid : UInt16
  pid : UInt8
  acked : Bool

inductive Mt7921TxCompletionError where
  | truncated | wrongPacketType | multipleOrPaired | invalidFormat

def mt7921PacketType : Option UInt8 :=
  (slice bytes 0 4).map fun header => ((wordAt header 0 >>> 27) &&& 0x1f).toUInt8

def parseMt7921TxFree : Except Mt7921TxCompletionError Mt7921TxFree :=
  match slice bytes 0 4 with
  | none => .error .truncated
  | some word =>
    let header := wordAt word 0
    if mt7921PacketType bytes ≠ some 6 then .error .wrongPacketType
    else
      let reportedLen := (header &&& 0xffff).toNat
      if reportedLen ≠ 12 ∧ reportedLen ≠ 16 then .error .invalidFormat
      else
        match slice bytes 0 reportedLen with
        | none => .error .truncated
        | some bytes =>
          if (header >>> 16) &&& 0x03ff ≠ 1 then .error .multipleOrPaired
          else
            let first := wordAt bytes 8
            let free (wcid : Option UInt16) (info : UInt32) : Mt7921TxFree :=
              { wcid := wcid
                token := ((info >>> 16) &&& 0x7fff).toUInt16
                status := ((info >>> 13) &&& 0x3).toUInt8
                dropped := (info >>> 13) &&& 0x3 ≠ 0
                attempts := (info &&& 0x1fff).toUInt16
                pairWord := wcid.map fun _ => first
                infoWord := info }
            if first &&& ((1 : UInt32) <<< 31) ≠ 0 then
              if reportedLen ≠ 16 then .error .invalidFormat
              else
                let info := wordAt bytes 12
                if info &&& ((1 : UInt32) <<< 31) ≠ 0 then .error .invalidFormat
                else .ok (free (some ((first >>> 14) &&& 0x03ff).toUInt16) info)
            else if reportedLen ≠ 12 then .error .invalidFormat
            else .ok (free none first)

def parseTxStatusRecord (txs : Bytes) : Except Mt7921TxCompletionError Mt7921TxStatus :=
  if (wordAt txs 0 >>> 23) &&& 0x3 > 1 then .error .invalidFormat
  else
    let wcid := ((wordAt txs 8 >>> 16) &&& 0x03ff).toUInt16
    if wcid ≥ 20 then .error .invalidFormat
    else .ok ⟨wcid, (wordAt txs 12 >>> 24).toUInt8, wordAt txs 0 &&& ((0x7 : UInt32) <<< 16) = 0⟩

/-- The records of 32 bytes each, `count` of them. -/
def parseTxStatusRecords (records : Bytes) :
    Nat → Except Mt7921TxCompletionError (List Mt7921TxStatus)
  | 0 => .ok []
  | count + 1 => do
    let status ← parseTxStatusRecord (records.take 32)
    let rest ← parseTxStatusRecords (records.drop 32) count
    return status :: rest

def parseMt7921TxStatusBatch : Except Mt7921TxCompletionError (List Mt7921TxStatus) :=
  match slice bytes 0 8 with
  | none => .error .truncated
  | some header =>
    if mt7921PacketType bytes ≠ some 0 then .error .wrongPacketType
    else
      let length := (halfAt header 0).toNat
      if ¬ (40 ≤ length ∧ length ≤ 2048) ∨ (length - 8) % 32 ≠ 0 then .error .invalidFormat
      else
        match slice bytes 8 length with
        | none => .error .truncated
        | some records => parseTxStatusRecords records (records.length / 32)

/-! ## Firmware responses -/

structure DownloadResponse where
  length : UInt16
  packetType : UInt16
  eventId : UInt8
  sequence : UInt8
  option : UInt8
  extendedEventId : UInt8
  deriving DecidableEq

inductive DownloadResponseError where
  | truncated | invalidLength | sequenceMismatch (expected actual : UInt8)

def parseDownloadResponse (expectedSequence : UInt8) :
    Except DownloadResponseError DownloadResponse :=
  match slice bytes 0 36 with
  | none => .error .truncated
  | some header =>
    let length := halfAt header 24
    if 24 + length.toNat > bytes.length ∨ length < 12 then .error .invalidLength
    else
      let sequence := byteAt header 29
      if sequence ≠ expectedSequence then .error (.sequenceMismatch expectedSequence sequence)
      else .ok ⟨length, halfAt header 26, byteAt header 28, sequence, byteAt header 30,
        byteAt header 32⟩

structure FirmwareRx where
  response : DownloadResponse
  bytes : Bytes
  deriving DecidableEq

/-! ## Routes -/

inductive McuRxIrqRing where
  | wm | wm2
  deriving DecidableEq

inductive McuRxParserKind where
  | notEndOfPacket | descriptorLength | bufferTruncated | txFree | txStatus | firmware

structure McuRxRouteError where
  ring : UInt8
  slot : UInt16
  control : UInt32
  length : UInt16
  parser : McuRxParserKind

inductive McuRxRoute where
  | normal (bytes : Bytes)
  | txFree (free : Mt7921TxFree)
  | txStatus (statuses : List Mt7921TxStatus)
  | firmware (response : FirmwareRx)

def routeMcuRxDescriptor (ring : UInt8) (slot : UInt16) (control : UInt32) (bytes : Bytes) :
    Except McuRxRouteError McuRxRoute :=
  let error (parser : McuRxParserKind) : McuRxRouteError :=
    ⟨ring, slot, control, ((control >>> 16) &&& 0x3fff).toUInt16, parser⟩
  if control &&& ((1 : UInt32) <<< 30) = 0 then .error (error .notEndOfPacket)
  else
    let length := ((control >>> 16) &&& 0x3fff).toNat
    if ¬ (12 ≤ length ∧ length ≤ 2048) then .error (error .descriptorLength)
    else
      match slice bytes 0 length with
      | none => .error (error .bufferTruncated)
      | some bytes =>
        let rxd0 := wordAt bytes 0
        let packetType := (rxd0 >>> 27) &&& 0x1f
        let packetFlag := (rxd0 >>> 16) &&& 0x0f
        if packetType = 6 then
          match parseMt7921TxFree bytes with
          | .ok free => .ok (.txFree free)
          | .error _ => .error (error .txFree)
        else if packetType = 0 ∧ length ≥ 40 ∧ (rxd0 &&& 0xffff).toNat = length then
          match parseMt7921TxStatusBatch bytes with
          | .ok statuses => .ok (.txStatus statuses)
          | .error _ => .error (error .txStatus)
        else if length < 36 then .error (error .descriptorLength)
        -- frames come on an MCU ring too, as receive events with flag 1
        else if packetType = 2 ∨ (packetType = 7 ∧ packetFlag = 1) then .ok (.normal bytes)
        else
          match parseDownloadResponse bytes (byteAt bytes 29) with
          | .ok response => .ok (.firmware ⟨response, bytes⟩)
          | .error _ => .error (error .firmware)

inductive FirmwareRxDisposition where
  | matched | unsolicited | unrelated
  deriving DecidableEq

def isUnsolicitedMcuEvent (eventId option : UInt8) : Bool :=
  option &&& ((1 : UInt8) <<< 2) ≠ 0 || eventId ∈ [0x07, 0x0f, 0x11, 0x13, 0x27, 0x96, 0xf0]

def classifyFirmwareRx (expectedSequence : Option UInt8) (response : DownloadResponse) :
    FirmwareRxDisposition :=
  if isUnsolicitedMcuEvent response.eventId response.option then .unsolicited
  else if some response.sequence = expectedSequence then .matched
  else .unrelated

end Drv.Mt7921
