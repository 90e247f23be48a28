import Drv.Mt7921.Formats

/-!
# What the host writes

Commands to the firmware, and the transmit descriptors of client frames.
Where an encoder refuses with a text, every caller maps the text to a
status, so the refusal is `none` here.
-/

namespace Drv.Mt7921

def connac2McuTxdBytes : Nat := 64

/-- A command header followed by its payload; the callers' own fields are
patched in afterwards. -/
def mcuHeader (header : Nat) (payload : Bytes) : Bytes :=
  let total := header + payload.length
  let bytes := List.replicate header 0 ++ payload
  let txd0 : UInt32 := UInt32.ofNat total ||| ((2 : UInt32) <<< 23) ||| ((0x20 : UInt32) <<< 25)
  let txd1 : UInt32 := ((1 : UInt32) <<< 31) ||| ((1 : UInt32) <<< 16)
  patch (patch (patch bytes 0 (leBytes txd0)) 4 (leBytes txd1)) 32 (Bytes.ofNatLE 2 (total - 32))

/-! ## Firmware download -/

inductive DownloadCommand where
  | nicPowerControl
  | getNicCapability
  | readEepromBlock (address : UInt32)
  | firmwareLogToHost
  | eepromBufferMode
  | protectControl
  | patchSemaphoreGet
  | patchSemaphoreRelease
  | patchFinish
  | firmwareStart (address option : UInt32)
  | patchStart (address length mode : UInt32)
  | targetAddressLength (address length mode : UInt32)

inductive DownloadCommandError where
  | invalidSequence | invalidLength | invalidFirmwareStart | invalidEepromAddress

/-- The fields of a command that differ from kind to kind. -/
structure DownloadFields where
  cid : UInt8
  setQuery : UInt8
  extCid : UInt8
  extCidAck : UInt8
  payload : Bytes

def downloadFields : DownloadCommand → Except DownloadCommandError DownloadFields
  | .nicPowerControl => .ok ⟨0x04, 3, 0, 0, [1, 0, 0, 0]⟩
  | .getNicCapability => .ok ⟨0x8a, 1, 0, 0, []⟩
  | .readEepromBlock address =>
    if address &&& 0xf ≠ 0 ∨ address > 0x9f0 then .error .invalidEepromAddress
    else .ok ⟨0xed, 0, 0x01, 1, leBytes address ++ List.replicate 20 0⟩
  | .firmwareLogToHost => .ok ⟨0xc5, 1, 0, 0, [1, 0, 0, 0]⟩
  | .eepromBufferMode => .ok ⟨0xed, 1, 0x21, 1, [1, 0, 0, 0]⟩
  | .protectControl => .ok ⟨0xed, 1, 0x3e, 1, [1, 0, 0, 0, 0x2b, 0x09, 0, 0, 2, 0, 0, 0]⟩
  | .patchSemaphoreGet => .ok ⟨0x10, 3, 0, 0, leBytes 1⟩
  | .patchSemaphoreRelease => .ok ⟨0x10, 3, 0, 0, leBytes 0⟩
  | .patchFinish => .ok ⟨0x07, 3, 0, 0, [0, 0, 0, 0]⟩
  | .firmwareStart address option =>
    if address ≠ 0x00915000 ∨ option ≠ 1 then .error .invalidFirmwareStart
    else .ok ⟨0x02, 3, 0, 0, leBytes option ++ leBytes address⟩
  | .patchStart address length mode =>
    if address ≠ 0x00900000 ∨ length = 0 then .error .invalidLength
    else .ok ⟨0x05, 3, 0, 0, leBytes address ++ leBytes length ++ leBytes mode⟩
  | .targetAddressLength address length mode =>
    if length = 0 then .error .invalidLength
    else .ok ⟨0x01, 3, 0, 0, leBytes address ++ leBytes length ++ leBytes mode⟩

def encodeDownloadCommand (command : DownloadCommand) (sequence : UInt8) :
    Except DownloadCommandError Bytes :=
  if sequence = 0 ∨ sequence > 15 then .error .invalidSequence
  else do
    let fields ← downloadFields command
    let bytes := mcuHeader connac2McuTxdBytes fields.payload
    let bytes := patch bytes 34 (Bytes.ofNatLE 2 0x8000)
    let bytes := patch bytes 36 [fields.cid, 0xa0, fields.setQuery, sequence]
    return patch (patch bytes 41 [fields.extCid]) 43 [fields.extCidAck]

/-! ## Remain on channel -/

inductive PhysicalBand where
  | ghz2 | ghz5 | ghz6
  deriving DecidableEq

structure ClientPhysicalChannel where
  band : UInt8
  primary : UInt16
  center : UInt16
  center2 : UInt16
  bandwidth : UInt8

def encodeUniMcu (cid : UInt16) (payload : Bytes) (sequence : UInt8) : Bytes :=
  let bytes := patch (mcuHeader 48 payload) 34 (Bytes.ofNatLE 2 cid.toNat)
  patch (patch (patch bytes 37 [0xa0]) 39 [sequence]) 43 [0x07]

def encodeClientJoinRocAcquire (sequence bssIndex token : UInt8) (channel : ClientPhysicalChannel)
    (durationMs : UInt32) : Option Bytes :=
  if ¬ (1 ≤ sequence ∧ sequence ≤ 15) ∨ bssIndex ≠ 0 ∨ token = 0 ∨ durationMs = 0 ∨
      channel.primary = 0 ∨ channel.primary > 255 ∨ channel.center = 0 ∨ channel.center > 255 ∨
      channel.center2 ≠ 0 ∨ channel.bandwidth ≠ 0 ∨ channel.band > 1 then none
  else
    let primary := channel.primary.toUInt8
    let center := channel.center.toUInt8
    let offset : UInt8 := if primary < center then 1 else if center < primary then 3 else 0
    let band : UInt8 := if channel.band = 1 then 2 else 1
    some (encodeUniMcu 0x27
      ([0, 0, 0, 0, 0, 0, 24, 0, bssIndex, token, primary, offset, band, 0, center, 0, 0, center,
        0, 0] ++ leBytes durationMs ++ [0xff, 0, 0, 0]) sequence)

def encodeClientJoinRocAbort (sequence bssIndex token : UInt8) : Option Bytes :=
  if ¬ (1 ≤ sequence ∧ sequence ≤ 15) ∨ bssIndex ≠ 0 ∨ token = 0 then none
  else
    some (encodeUniMcu 0x27 [0, 0, 0, 0, 1, 0, 12, 0, bssIndex, token, 0xff, 0, 0, 0, 0, 0]
      sequence)

/-! ## Client frames -/

/-- The packet identifier of frames without a status for the host. -/
def mt7921PacketIdNoSkb : UInt8 := 1

structure Mt7921MgmtTx where
  txwi : Bytes
  descriptor : DmaDescriptor
  token : UInt16
  pid : UInt8

/-- Rates in units of 500 kbit/s. -/
def ofdmRateValue : UInt8 → Option UInt32
  | 12 => some (0x40 ||| 11)
  | 18 => some (0x40 ||| 15)
  | 24 => some (0x40 ||| 10)
  | 36 => some (0x40 ||| 14)
  | 48 => some (0x40 ||| 9)
  | 72 => some (0x40 ||| 13)
  | 96 => some (0x40 ||| 8)
  | 108 => some (0x40 ||| 12)
  | _ => none

/-- Whether so many bytes from an address on are below 4 GiB. -/
def fitsLow32 (iova : UInt64) (len : Nat) : Bool := len ≠ 0 ∧ iova.toNat + (len - 1) < 2 ^ 32

/-- Eight words, then the token and the one payload segment. -/
def txwiBytes (words : List UInt32) (token : UInt16) (payloadIova : UInt64) (payloadLen : Nat) :
    Bytes :=
  words.flatMap leBytes ++ Bytes.ofNatLE 2 (token ||| 0x8000).toNat ++ List.replicate 6 0 ++
    leBytes payloadIova.toUInt32 ++ Bytes.ofNatLE 2 ((UInt16.ofNat payloadLen) ||| 0x8000).toNat ++
    List.replicate 18 0

def encodeManagementTx (frame : Bytes) (txwiIova frameIova : UInt64) (token : UInt16) (pid : UInt8)
    (wcid : UInt16) (rate : UInt8) : Option Mt7921MgmtTx := do
  let rateValue ← ofdmRateValue rate
  let subtype : UInt32 := ((byteAt frame 0 >>> 4) &&& 0xf).toUInt32
  if ¬ fitsLow32 txwiIova 64 ∨ ¬ fitsLow32 frameIova frame.length then none
  else if token ≥ 8192 then none
  else if ¬ (3 ≤ pid ∧ pid < 127) then none
  else if wcid ≥ 20 then none
  else
    let words : List UInt32 :=
      [((0x10 : UInt32) <<< 25) ||| (UInt32.ofNat (frame.length + 32) &&& 0xffff),
        ((1 : UInt32) <<< 31) ||| ((2 : UInt32) <<< 16) ||| ((12 : UInt32) <<< 11) |||
          wcid.toUInt32,
        ((1 : UInt32) <<< 31) ||| ((1 : UInt32) <<< 13) ||| subtype,
        ((1 : UInt32) <<< 28) ||| ((15 : UInt32) <<< 11),
        0,
        ((1 : UInt32) <<< 10) ||| pid.toUInt32,
        (rateValue <<< 16) ||| ((1 : UInt32) <<< 2),
        subtype <<< 16]
    match mt7921DmaTx ⟨txwiIova, 64⟩ none 0 with
    | .error _ => none
    | .ok descriptor => some ⟨txwiBytes words token frameIova frame.length, descriptor, token, pid⟩

def encodeClientManagementTx (frame : Bytes) (txwiIova frameIova : UInt64) (token : UInt16)
    (pid : UInt8) (wcid : UInt16) (rate : UInt8) : Option Mt7921MgmtTx := do
  let control ← slice frame 0 2
  if halfAt control 0 &&& 0x000c ≠ 0 ∨ ¬ (24 ≤ frame.length ∧ frame.length ≤ 0x0fff) then none
  else encodeManagementTx frame txwiIova frameIova token pid wcid rate

def encodeClientDataTxwi (payloadLen : Nat) (payloadIova : UInt64) (token : UInt16) (pid : UInt8)
    (eapol isProtected qos : Bool) (tid : UInt8) (wcid : UInt16) (rate : UInt8) : Option Bytes :=
  if payloadLen = 0 ∨ payloadLen > 0x0fff ∨ ¬ fitsLow32 payloadIova payloadLen ∨ token ≥ 8192 ∨
      (¬ (3 ≤ pid ∧ pid < 127) ∧ (eapol ∨ pid ≠ mt7921PacketIdNoSkb)) ∨ tid > 7 ∨ wcid ≥ 20 then
    none
  else
    let queue : UInt32 :=
      if tid ∈ [1, 2] then 0 else if tid ∈ [0, 3] then 1 else if tid ∈ [4, 5] then 2 else 3
    let first : UInt32 := (queue <<< 25) ||| UInt32.ofNat (payloadLen + 32)
    if eapol then do
      let subtype : UInt32 := qos.toUInt32 * 8
      let rateValue ← ofdmRateValue rate
      some (txwiBytes
        [first,
          (0x80026000 : UInt32) ||| wcid.toUInt32 ||| (tid.toUInt32 <<< 20) |||
            (qos.toUInt32 <<< 11),
          0x80002020 ||| subtype,
          0x10007800 ||| isProtected.toUInt32 * 2,
          0,
          0x400 ||| pid.toUInt32,
          (rateValue <<< 16) ||| 4,
          (0x00200000 : UInt32) ||| (subtype <<< 16)] token payloadIova payloadLen)
    else if ¬ isProtected then none
    else
      some (txwiBytes
        [first, (0x80008000 : UInt32) ||| wcid.toUInt32 ||| (tid.toUInt32 <<< 20), 0x00000028,
          0x00007802, 0,
          pid.toUInt32 ||| (if pid ≥ 3 then 0x400 else 0), 0, 0x00280000] token payloadIova
          payloadLen)

/-- The Ethernet frame of a data frame, for header translation. -/
def clientDataMpduToEthernet (mpdu : Bytes) : Option Bytes := do
  let control ← slice mpdu 0 2
  let fc := halfAt control 0
  if fc &&& 0x000c ≠ 0x0008 ∨ fc &&& 0x0300 ≠ 0x0100 ∨ fc &&& 0x8000 ≠ 0 then none
  else if fc &&& 0x0040 ≠ 0 then none
  else
    let headerLen := if fc &&& 0x0080 ≠ 0 then 26 else 24
    let snap ← slice mpdu headerLen (headerLen + 8)
    if snap.take 6 ≠ [0xaa, 0xaa, 3, 0, 0, 0] then none
    else if (byteAt snap 6).toNat * 256 + (byteAt snap 7).toNat < 0x0600 then none
    else
      return (mpdu.drop 16).take 6 ++ (mpdu.drop 10).take 6 ++ (snap.drop 6).take 2 ++
        mpdu.drop (headerLen + 8)

end Drv.Mt7921
