import Drv.Base.Slices
import Drv.Ath11k.Htc

/-!
# Frames between the host and the rings

`normalize_native_wifi` makes an 802.11 frame of what the device delivers.
`encap_native_wifi` takes the QoS control out of a frame to send. An index
or a range out of bounds, an error without a reason here, would be a panic.
-/

namespace Drv.Ath11k.HostRx

abbrev Ranged (ε α : Type) := Except (Option ε) α

section
variable {ε : Type}

/-- `b[first..last]`, or `b.get(first..last)` with a reason to fail. -/
def range (reason : Option ε) (b : Bytes) (first last : Nat) : Ranged ε Bytes :=
  (b.between first last).mapError fun _ => reason

variable (b : Bytes)

/-- `b[first..first + part.len()].copy_from_slice(part)`. -/
def copyFromSlice (first : Nat) (part : Bytes) : Ranged ε Bytes :=
  if first + part.length ≤ b.length then .ok (b.copyAt first part) else .error none

def index (i : Nat) : Ranged ε UInt8 := (b.byte i).mapError fun _ => none

/-- `b[i] &= !mask`. -/
def clear (i : Nat) (mask : UInt8) : Ranged ε Bytes := do
  return b.set i ((← index b i) &&& ~~~mask)

/-- `b.drain(first..last)`. -/
def drain (first last : Nat) : Ranged ε Bytes := do
  let _ ← range none b first last
  return b.take first ++ b.drop last

def toLeBytes (v : UInt16) : Bytes := [v.toUInt8, (v >>> 8).toUInt8]

/-- The first two bytes. -/
def frameControl (reason : Option ε) : Bytes → Ranged ε UInt16
  | low :: high :: _ => .ok (leU16 low high)
  | _ => .error reason

end

/-! ## Receiving -/

inductive HostRxDropReason where
  | malformed | fcs | decrypt | tkipMic | unsupportedDecap

structure RxDescriptorStatus where
  firstMsdu : Bool
  multicastBroadcast : Bool
  meshControlPresent : Bool
  tid : UInt8
  encryptionType : UInt8

abbrev Normalize := Ranged HostRxDropReason

def headerLen (fc : UInt16) : Nat :=
  let len := if fc &&& 0x0300 = 0x0300 then 30 else 24
  if fc &&& 0x000c = 0x0008 ∧ fc &&& 0x0080 ≠ 0 then
    if fc &&& 0x8000 ≠ 0 then len + 2 + 4 else len + 2
  else len

def ieee80211HeaderLen (frame : Bytes) : Normalize Nat := do
  let fc ← frameControl (some .malformed) frame
  if frame.length ≥ headerLen fc then return headerLen fc else throw (some .malformed)

def addressOffsets (frame : Bytes) : Normalize (Nat × Nat) := do
  let fc ← frameControl (some .malformed) frame
  if fc &&& 0x0300 = 0x0000 then return (4, 10)
  else if fc &&& 0x0300 = 0x0100 then return (16, 10)
  else if fc &&& 0x0300 = 0x0200 then return (4, 16)
  else if fc &&& 0x0300 = 0x0300 then return (16, 24)
  else throw none

def cryptoLengths (encryptionType : UInt8) : Nat × Nat × Nat :=
  if encryptionType = 2 ∨ encryptionType = 4 then (8, 0, 4)
  else if encryptionType = 6 then (8, 8, 0)
  else if encryptionType = 8 then (8, 16, 0)
  else if encryptionType = 9 ∨ encryptionType = 10 then (8, 16, 0)
  else (0, 0, 0)

/-- The branch of `normalize_native_wifi` for an MSDU that is not the first. -/
def rebuildQos (bytes : Bytes) (status : RxDescriptorStatus) (ivStripped : Bool)
    (nativeHeaderLen : Nat) : Normalize Bytes := do
  let header ← range none bytes 0 nativeHeaderLen
  let fc := ((← frameControl none header) ||| 0x0080) &&& ~~~0x8000
  let fc := if ivStripped then fc &&& ~~~0x4000 else fc
  let header ← copyFromSlice header 0 (toLeBytes fc)
  let qos := status.tid.toUInt16 ||| (if status.meshControlPresent then 1 else 0 : UInt16) <<< 8
  let crypto := if ivStripped then 0 else (cryptoLengths status.encryptionType).1
  let parameters ← range (some .malformed) bytes nativeHeaderLen (nativeHeaderLen + crypto)
  return header ++ toLeBytes qos ++ parameters ++ (← range none bytes nativeHeaderLen bytes.length)

/-- The addresses of an MSDU. -/
def nativeAddresses (bytes : Bytes) : Normalize (Bytes × Bytes) := do
  let (nativeDa, nativeSa) ← addressOffsets bytes
  let da ← range (some .malformed) bytes nativeDa (nativeDa + 6)
  return (da, ← range (some .malformed) bytes nativeSa (nativeSa + 6))

/-- The header of the first MSDU as it was received, with the addresses `da`
and `sa`. -/
def originalHeader (headerStatus : Bytes) (originalLen : Nat) (da sa : Bytes) :
    Normalize Bytes := do
  let header ← range none headerStatus 0 originalLen
  let header ← if (← index header 0) &&& 0x80 ≠ 0 then do
      clear header (if (← index header 1) &&& 0x03 = 0x03 then 30 else 24) 0x80
    else pure header
  let (daOffset, saOffset) ← addressOffsets header
  copyFromSlice (← copyFromSlice header daOffset da) saOffset sa

def normalizeNativeWifi (bytes headerStatus : Bytes) (status : RxDescriptorStatus)
    (decrypted : Bool) : Normalize Bytes := do
  let nativeHeaderLen ← ieee80211HeaderLen bytes
  let ivStripped := decrypted && !status.multicastBroadcast
  if ¬ status.firstMsdu then rebuildQos bytes status ivStripped nativeHeaderLen
  else do
    let (da, sa) ← nativeAddresses bytes
    let originalLen ← ieee80211HeaderLen headerStatus
    let header ← originalHeader headerStatus originalLen da sa
    let header ← if ivStripped then clear header 1 0x40 else do
      let crypto := (cryptoLengths status.encryptionType).1
      pure (header ++ (← range (some .malformed) headerStatus originalLen (originalLen + crypto)))
    return header ++ (← range none bytes nativeHeaderLen bytes.length)

def normalizeNativeWifiFrame (bytes headerStatus : Bytes) (status : RxDescriptorStatus)
    (decrypted : Bool) : Ranged DpError Bytes :=
  (normalizeNativeWifi bytes headerStatus status decrypted).mapError
    (·.map fun _ => .invalidFrame)

/-! ## Sending -/

def encapNativeWifi (frame : Bytes) : Ranged DpError (Bytes × Option UInt8) := do
  let fc ← frameControl (some .invalidFrame) frame
  if fc &&& 0x000c ≠ 0x0008 then throw (some .invalidFrame)
  else if fc &&& 0x0080 = 0 then return (frame, none)
  else do
    let qosOffset := if fc &&& 0x0300 = 0x0300 then 30 else 24
    if frame.length < qosOffset + 2 then throw (some .invalidFrame)
    else do
      let tid := (← index frame qosOffset) &&& 0x0f
      let frame ← drain frame qosOffset (qosOffset + 2)
      return (← copyFromSlice frame 0 (toLeBytes (fc &&& ~~~0x0080)), some tid)

end Drv.Ath11k.HostRx
