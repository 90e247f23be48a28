import Drv.Base.Lawful
import Drv.Wire.Packet

/-!
# The control wire codec

`encode` and `decode` of one packet, written function by function as the
crate has them: an `enc` function answers the bytes it appends, a `dec`
function reads from what remains. Bounds, tags and error names are the
crate's own.

One bound is only on one side: `decScan` allows 84 SSIDs in an active
scan and `encScan` writes any number of them.
-/

namespace Drv.Wire

open Drv.Fidl Put

/-! ## Primitives -/

def putBool (v : Bool) : Put Error := putU8 (if v then 1 else 0)

def putVec (v : Bytes) (max : Nat) (name : String) : Put Error :=
  Drv.putVec max (.boundExceeded name) v

variable {α : Type}

namespace Reader

def u8 : Get Error UInt8 := takeU8 .truncated
def u16 : Get Error UInt16 := takeU16 .truncated
def u32 : Get Error UInt32 := takeU32 .truncated
def u64 : Get Error UInt64 := takeU64 .truncated
def array (n : Nat) : Get Error (List.Vector UInt8 n) := takeArray .truncated n

def bool : Get Error Bool := do
  match ← u8 with
  | 0 => return false
  | 1 => return true
  | n => throw (.unknownDiscriminant "bool" n.toUInt64)

def vec (max : Nat) (name : String) : Get Error Bytes :=
  takeVec .truncated max (.boundExceeded name)

/-- The count, the check of its bound and the loop that the source writes
out at each of its lists. -/
def counted (bound : Nat) (name : String) (get : Get Error α) : Get Error (List α) :=
  takeCounted .truncated bound (.boundExceeded name) get

end Reader

open Reader

def okOr (value : Option α) (e : Error) : Except Error α :=
  match value with
  | some v => .ok v
  | none => .error e

/-- Read a raw number and keep it if the schema names it. -/
def decFlexible {R : Type} {named : R → Bool} (name : String) (get : Get Error R)
    (widen : R → UInt64) : Get Error (Flexible R named) := do
  let raw ← get
  Get.check (okOr (Flexible.fromPrimitive raw) (.unknownDiscriminant name (widen raw)))

def encOption (f : α → Put Error) : Option α → Put Error
  | none => putU8 0
  | some v => seq [putU8 1, f v]

def decOption (f : Get Error α) : Get Error (Option α) := do
  match ← u8 with
  | 0 => return none
  | 1 => return some (← f)
  | n => throw (.unknownDiscriminant "Option" n.toUInt64)

/-! ## Enumerations -/

def decScanType (n : UInt32) : Except Error ScanType :=
  match n with
  | 1 => .ok .active
  | 2 => .ok .passive
  | n => .error (.unknownDiscriminant "ScanType" n.toUInt64)

def decScanError (n : UInt32) : Except Error ScanErrorCode :=
  match n with
  | 1 => .ok .notSupported
  | 2 => .ok .internalError
  | 3 => .ok .internalMlmeError
  | 4 => .ok .shouldWait
  | 5 => .ok .canceledByDriverOrFirmware
  | n => .error (.unknownDiscriminant "ScanErrorCode" n.toUInt64)

def decMlmeEventName (n : UInt32) : Except Error DisconnectMlmeEventName :=
  match n with
  | 1 => .ok .deauthenticateIndication
  | 2 => .ok .disassociateIndication
  | 3 => .ok .roamStartIndication
  | 4 => .ok .roamResultIndication
  | 5 => .ok .saeHandshakeResponse
  | 6 => .ok .roamRequest
  | 7 => .ok .roamConfirmation
  | n => .error (.unknownDiscriminant "DisconnectMlmeEventName" n.toUInt64)

def decDisconnectReason (n : UInt32) : Except Error UserDisconnectReason :=
  match n with
  | 0 => .ok .unknown
  | 1 => .ok .failedToConnect
  | 2 => .ok .fidlConnectRequest
  | 3 => .ok .fidlStopClientConnectionsRequest
  | 4 => .ok .proactiveNetworkSwitch
  | 5 => .ok .disconnectDetectedFromSme
  | 6 => .ok .regulatoryRegionChange
  | 7 => .ok .startup
  | 8 => .ok .networkUnsaved
  | 9 => .ok .networkConfigUpdated
  | 10 => .ok .recovery
  | 124 => .ok .wlanstackUnitTesting
  | 125 => .ok .wlanSmeUnitTesting
  | 126 => .ok .wlanServiceUtilTesting
  | 127 => .ok .wlanDevTool
  | n => .error (.unknownDiscriminant "UserDisconnectReason" n.toUInt64)

def commandReply : CommandReply → UInt8
  | .success => 1
  | .busy => 2
  | .notConnected => 3
  | .unsupported => 4

def decCommandReply (n : UInt8) : Except Error CommandReply :=
  match n with
  | 1 => .ok .success
  | 2 => .ok .busy
  | 3 => .ok .notConnected
  | 4 => .ok .unsupported
  | n => .error (.unknownDiscriminant "CommandReply" n.toUInt64)

def generationEnd : GenerationEndReason → UInt8
  | .shutdown => 1
  | .timeout => 2
  | .driverFault => 3
  | .containmentFault => 4
  | .backpressure => 5
  | .protocolViolation => 6

def decGenerationEnd (n : UInt8) : Except Error GenerationEndReason :=
  match n with
  | 1 => .ok .shutdown
  | 2 => .ok .timeout
  | 3 => .ok .driverFault
  | 4 => .ok .containmentFault
  | 5 => .ok .backpressure
  | 6 => .ok .protocolViolation
  | n => .error (.unknownDiscriminant "GenerationEndReason" n.toUInt64)

def powerSaveMode : PowerSaveMode → UInt8
  | .performance => 0
  | .balanced => 1

def decPowerSaveMode (n : UInt8) : Except Error PowerSaveMode :=
  match n with
  | 0 => .ok .performance
  | 1 => .ok .balanced
  | n => .error (.unknownDiscriminant "PowerSaveMode" n.toUInt64)

/-! ## BSS descriptions -/

def encChannel (c : ChannelNumber) : Put Error := seq [putU8 c.band.intoPrimitive, putU8 c.number]

def decChannel : Get Error ChannelNumber := do
  let band ← decFlexible "WlanBand" u8 UInt8.toUInt64
  let number ← u8
  return { band, number }

def decBandwidth : Get Error ChannelBandwidth := decFlexible "ChannelBandwidth" u32 UInt32.toUInt64

/-- `i8 as u8` and back. -/
def putI8 (v : Int8) : Put Error := putU8 v.toUInt8
def decI8 : Get Error Int8 := do return (← u8).toInt8

def encBss (b : BssDescription) : Put Error :=
  seq [
    putArray b.bssid,
    putU32 b.bssType.intoPrimitive,
    putU16 b.beaconPeriod,
    putU16 b.capabilityInfo,
    putVec b.ies maxBssIeLen "BSS IEs",
    encChannel b.primary,
    putU32 b.bandwidth.intoPrimitive,
    encChannel b.vhtSecondary80Channel,
    putI8 b.rssiDbm,
    putI8 b.snrDb]

def decBss : Get Error BssDescription := do
  let bssid ← array 6
  let bssType ← decFlexible "BssType" u32 UInt32.toUInt64
  let beaconPeriod ← u16
  let capabilityInfo ← u16
  let ies ← vec maxBssIeLen "BSS IEs"
  let primary ← decChannel
  let bandwidth ← decBandwidth
  let vhtSecondary80Channel ← decChannel
  let rssiDbm ← decI8
  let snrDb ← decI8
  return { bssid, bssType, beaconPeriod, capabilityInfo, ies, primary, bandwidth,
           vhtSecondary80Channel, rssiDbm, snrDb }

/-! ## Connect requests -/

def decProtocol : Get Error Protocol := decFlexible "Protocol" u32 UInt32.toUInt64

def encCredentials : Credentials → Put Error
  | .wep key => seq [putU8 1, putVec key 32 "WEP key"]
  | .wpa (.psk psk) => seq [putU8 2, putArray psk]
  | .wpa (.passphrase p) => seq [putU8 3, putVec p 63 "WPA passphrase"]
  | .wpa (.unknown ..) | .unknown .. => .error (.invalidValue "unknown credentials union")

def decCredentials : Get Error Credentials := do
  match ← u8 with
  | 1 => return .wep (← vec 32 "WEP key")
  | 2 => return .wpa (.psk (← array 32))
  | 3 => return .wpa (.passphrase (← vec 63 "WPA passphrase"))
  | n => throw (.unknownDiscriminant "Credentials" n.toUInt64)

/-- The optional credentials; `decOption` with its own discriminant name. -/
def decOptionCredentials : Get Error (Option Credentials) := do
  match ← u8 with
  | 0 => return none
  | 1 => return some (← decCredentials)
  | n => throw (.unknownDiscriminant "Option<Credentials>" n.toUInt64)

def encAuth (v : Authentication) : Put Error :=
  seq [putU32 v.protocol.intoPrimitive, encOption encCredentials v.credentials]

def decAuth : Get Error Authentication := do
  let protocol ← decProtocol
  let credentials ← decOptionCredentials
  return { protocol, credentials }

def encConnect (v : ConnectRequest) : Put Error :=
  seq [
    putVec v.ssid 32 "SSID",
    encBss v.bssDescription,
    putBool v.multipleBssCandidates,
    encAuth v.authentication,
    putU32 v.deprecatedScanType.toU32]

def decConnect : Get Error ConnectRequest := do
  let ssid ← vec 32 "SSID"
  let bssDescription ← decBss
  let multipleBssCandidates ← bool
  let authentication ← decAuth
  let deprecatedScanType ← u32 >>= fun n => Get.check (decScanType n)
  return { ssid, bssDescription, multipleBssCandidates, authentication, deprecatedScanType }

/-! ## Scan requests and scan results -/

def encActiveScan (v : ActiveScanRequest) : Put Error :=
  seq [
    putCounted (fun ssid => putVec ssid 32 "SSID") v.ssids,
    putVec v.channels 256 "scan channels"]

def decActiveScan : Get Error ActiveScanRequest := do
  let ssids ← counted 84 "scan SSIDs" (vec 32 "SSID")
  let channels ← vec 256 "scan channels"
  return { ssids, channels }

def encScan : ScanRequest → Put Error
  | .active v => seq [putU8 1, encActiveScan v]
  | .passive channels => seq [putU8 2, putVec channels 256 "scan channels"]

def decScan : Get Error ScanRequest := do
  match ← u8 with
  | 1 => return .active (← decActiveScan)
  | 2 => return .passive (← vec 256 "scan channels")
  | n => throw (.unknownDiscriminant "ScanRequest" n.toUInt64)

def encDisjoint (v : DisjointSecurityProtocol) : Put Error :=
  seq [putU32 v.protocol.intoPrimitive, putU32 v.role.intoPrimitive]

def decDisjoint : Get Error DisjointSecurityProtocol := do
  let protocol ← decProtocol
  let role ← decFlexible "WlanMacRole" u32 UInt32.toUInt64
  return { protocol, role }

/-- The UTF-8 bytes of a description. -/
def asBytes (description : String) : Bytes := description.toUTF8.data.toList

def fromUtf8 (bytes : Bytes) : Except Error String :=
  okOr (String.fromUTF8? ⟨bytes.toArray⟩) (.invalidValue "compatibility description UTF-8")

def encIncompatible (v : Incompatible) : Put Error :=
  seq [
    putVec (asBytes v.description) maxPacket "compatibility description",
    encOption (putCounted encDisjoint) v.disjointSecurityProtocols]

def decIncompatible : Get Error Incompatible := do
  let description ← vec maxPacket "compatibility description" >>= fun bytes =>
    Get.check (fromUtf8 bytes)
  let disjointSecurityProtocols ←
    decOption (counted (maxPacket / 8) "disjoint protocols" decDisjoint)
  return { description, disjointSecurityProtocols }

def encCompatibility : Compatibility → Put Error
  | .compatible protocols =>
    seq [putU8 1, putCounted (fun p : Protocol => putU32 p.intoPrimitive) protocols]
  | .incompatible reason => seq [putU8 2, encIncompatible reason]

def decCompatibility : Get Error Compatibility := do
  match ← u8 with
  | 1 => return .compatible (← counted (maxPacket / 4) "security protocols" decProtocol)
  | 2 => return .incompatible (← decIncompatible)
  | n => throw (.unknownDiscriminant "Compatibility" n.toUInt64)

/-- `i64` in its little-endian two's complement bytes. -/
def putI64 (v : Int64) : Put Error := putU64 v.toUInt64
def decI64 : Get Error Int64 := do return (← u64).toInt64

def encScanResult (v : ScanResult) : Put Error :=
  seq [encCompatibility v.compatibility, putI64 v.timestampNanos, encBss v.bssDescription]

def decScanResult : Get Error ScanResult := do
  let compatibility ← decCompatibility
  let timestampNanos ← decI64
  let bssDescription ← decBss
  return { compatibility, timestampNanos, bssDescription }

def encScanReply : Except ScanErrorCode (List ScanResult) → Put Error
  | .ok results => seq [putU8 1, putCounted encScanResult results]
  | .error error => seq [putU8 2, putU32 error.toU32]

def decScanReply : Get Error (Except ScanErrorCode (List ScanResult)) := do
  match ← u8 with
  | 1 => return .ok (← counted maxPacket "scan results" decScanResult)
  | 2 => return .error (← u32 >>= fun n => Get.check (decScanError n))
  | n => throw (.unknownDiscriminant "ScanReply" n.toUInt64)

/-! ## Events -/

def encConnectResult (v : ConnectResult) : Put Error :=
  seq [putU16 v.code.intoPrimitive, putBool v.isCredentialRejected, putBool v.isReconnect]

def decStatusCode : Get Error StatusCode := decFlexible "StatusCode" u16 UInt16.toUInt64

def decConnectResult : Get Error ConnectResult := do
  let code ← decStatusCode
  let isCredentialRejected ← bool
  let isReconnect ← bool
  return { code, isCredentialRejected, isReconnect }

def encConnectReply : ConnectReply → Put Error
  | .completed r => seq [putU8 1, encConnectResult r]

def decConnectReply : Get Error ConnectReply := do
  match ← u8 with
  | 1 => return .completed (← decConnectResult)
  | n => throw (.unknownDiscriminant "ConnectReply" n.toUInt64)

def encCause (c : DisconnectCause) : Put Error :=
  seq [putU32 c.mlmeEventName.toU32, putU16 c.reasonCode.intoPrimitive]

def decCause : Get Error DisconnectCause := do
  let mlmeEventName ← u32 >>= fun n => Get.check (decMlmeEventName n)
  let reasonCode ← decFlexible "ReasonCode" u16 UInt16.toUInt64
  return { mlmeEventName, reasonCode }

def encDisconnectSource : DisconnectSource → Put Error
  | .ap c => seq [putU8 1, encCause c]
  | .user r => seq [putU8 2, putU32 r.toU32]
  | .mlme c => seq [putU8 3, encCause c]

def decDisconnectSource : Get Error DisconnectSource := do
  match ← u8 with
  | 1 => return .ap (← decCause)
  | 2 => return .user (← u32 >>= fun n => Get.check (decDisconnectReason n))
  | 3 => return .mlme (← decCause)
  | n => throw (.unknownDiscriminant "DisconnectSource" n.toUInt64)

def encDisconnectInfo (v : DisconnectInfo) : Put Error :=
  seq [putBool v.isSmeReconnecting, encDisconnectSource v.disconnectSource]

def decDisconnectInfo : Get Error DisconnectInfo := do
  let isSmeReconnecting ← bool
  let disconnectSource ← decDisconnectSource
  return { isSmeReconnecting, disconnectSource }

def encRoamResult (v : RoamResult) : Put Error :=
  seq [
    putArray v.bssid,
    putU16 v.statusCode.intoPrimitive,
    putBool v.originalAssociationMaintained,
    encOption encBss v.bssDescription,
    encOption encDisconnectInfo v.disconnectInfo,
    putBool v.isCredentialRejected]

def decRoamResult : Get Error RoamResult := do
  let bssid ← array 6
  let statusCode ← decStatusCode
  let originalAssociationMaintained ← bool
  let bssDescription ← decOption decBss
  let disconnectInfo ← decOption decDisconnectInfo
  let isCredentialRejected ← bool
  return { bssid, statusCode, originalAssociationMaintained, bssDescription, disconnectInfo,
           isCredentialRejected }

def encSignalReport (v : SignalReportIndication) : Put Error := seq [putI8 v.rssiDbm, putI8 v.snrDb]

def decSignalReport : Get Error SignalReportIndication := do
  let rssiDbm ← decI8
  let snrDb ← decI8
  return { rssiDbm, snrDb }

def encChannelSwitch (v : ChannelSwitchInfo) : Put Error :=
  seq [encChannel v.newPrimaryChannel, putU32 v.bandwidth.intoPrimitive,
    encChannel v.vhtSecondary80Channel]

def decChannelSwitch : Get Error ChannelSwitchInfo := do
  let newPrimaryChannel ← decChannel
  let bandwidth ← decBandwidth
  let vhtSecondary80Channel ← decChannel
  return { newPrimaryChannel, bandwidth, vhtSecondary80Channel }

def encEvent : ConnectTransactionEvent → Put Error
  | .onConnectResult result => seq [putU8 1, encConnectResult result]
  | .onDisconnect info => seq [putU8 2, encDisconnectInfo info]
  | .onRoamResult result => seq [putU8 3, encRoamResult result]
  | .onSignalReport ind => seq [putU8 4, encSignalReport ind]
  | .onChannelSwitched info => seq [putU8 5, encChannelSwitch info]

def decEvent : Get Error ConnectTransactionEvent := do
  match ← u8 with
  | 1 => return .onConnectResult (← decConnectResult)
  | 2 => return .onDisconnect (← decDisconnectInfo)
  | 3 => return .onRoamResult (← decRoamResult)
  | 4 => return .onSignalReport (← decSignalReport)
  | 5 => return .onChannelSwitched (← decChannelSwitch)
  | n => throw (.unknownDiscriminant "ConnectTransactionEvent" n.toUInt64)

/-! ## Messages -/

namespace Kind

@[match_pattern] def ready : UInt16 := 1
@[match_pattern] def connect : UInt16 := 2
@[match_pattern] def connectReply : UInt16 := 3
@[match_pattern] def disconnect : UInt16 := 4
@[match_pattern] def disconnectReply : UInt16 := 5
@[match_pattern] def roam : UInt16 := 6
@[match_pattern] def roamReply : UInt16 := 7
@[match_pattern] def event : UInt16 := 8
@[match_pattern] def generationEnd : UInt16 := 9
@[match_pattern] def scan : UInt16 := 11
@[match_pattern] def scanReply : UInt16 := 12
@[match_pattern] def deadlineExceeded : UInt16 := 13
@[match_pattern] def setPowerSave : UInt16 := 14
@[match_pattern] def setPowerSaveReply : UInt16 := 15

end Kind

def encReply (encodeResult : α → Put Error) (reply : Reply α) : Put Error :=
  if reply.inReplyTo = 0 then .error .zeroRequestId
  else seq [putU64 reply.inReplyTo, encodeResult reply.result]

def decReply (decodeResult : Get Error α) : Get Error (Reply α) := do
  let inReplyTo ← u64
  if inReplyTo = 0 then throw .zeroRequestId
  else do
    let result ← decodeResult
    return { inReplyTo, result }

/-- The deadline in front of every command's arguments. -/
def encCommand (encodeArgs : α → Put Error) (deadline : MonotonicDeadline) (args : α) : Put Error :=
  seq [putU64 deadline.intoNanos, encodeArgs args]

def decCommand (decodeArgs : Get Error α) : Get Error (MonotonicDeadline × α) := do
  let deadline ← u64 >>= fun n => Get.check (MonotonicDeadline.fromNanos n)
  let args ← decodeArgs
  return (deadline, args)

def encodeMessage : Message → Except Error (UInt16 × Bytes)
  | .ready => withKind Kind.ready (.ok [])
  | .scan d v => withKind Kind.scan (encCommand encScan d v)
  | .scanReply v => withKind Kind.scanReply (encReply encScanReply v)
  | .connect d v => withKind Kind.connect (encCommand encConnect d v)
  | .connectReply v => withKind Kind.connectReply (encReply encConnectReply v)
  | .disconnect d v => withKind Kind.disconnect (encCommand (fun r => putU32 r.toU32) d v)
  | .disconnectReply v => withKind Kind.disconnectReply (encReply (putU8 ∘ commandReply) v)
  | .roam d v => withKind Kind.roam (encCommand (fun r => encBss r.bssDescription) d v)
  | .roamReply v => withKind Kind.roamReply (encReply (putU8 ∘ commandReply) v)
  | .setPowerSave d v => withKind Kind.setPowerSave (encCommand (putU8 ∘ powerSaveMode) d v)
  | .setPowerSaveReply v => withKind Kind.setPowerSaveReply (encReply (putU8 ∘ commandReply) v)
  | .event v => withKind Kind.event (encEvent v)
  | .deadlineExceeded v => withKind Kind.deadlineExceeded (encReply (fun _ => .ok []) v)
  | .generationEnd v => withKind Kind.generationEnd (putU8 (Wire.generationEnd v))
where
  withKind (kind : UInt16) (w : Put Error) : Except Error (UInt16 × Bytes) := w.map (kind, ·)

def decCommandReplyByte : Get Error CommandReply := u8 >>= fun n => Get.check (decCommandReply n)

def decodeMessage (kind : UInt16) : Get Error Message :=
  match kind with
  | Kind.ready => return .ready
  | Kind.scan => do let (d, v) ← decCommand decScan; return .scan d v
  | Kind.scanReply => do return .scanReply (← decReply decScanReply)
  | Kind.connect => do let (d, v) ← decCommand decConnect; return .connect d v
  | Kind.connectReply => do return .connectReply (← decReply decConnectReply)
  | Kind.disconnect => do
    let (d, v) ← decCommand (u32 >>= fun n => Get.check (decDisconnectReason n))
    return .disconnect d v
  | Kind.disconnectReply => do return .disconnectReply (← decReply decCommandReplyByte)
  | Kind.roam => do let (d, v) ← decCommand decBss; return .roam d { bssDescription := v }
  | Kind.roamReply => do return .roamReply (← decReply decCommandReplyByte)
  | Kind.setPowerSave => do
    let (d, v) ← decCommand (u8 >>= fun n => Get.check (decPowerSaveMode n))
    return .setPowerSave d v
  | Kind.setPowerSaveReply => do return .setPowerSaveReply (← decReply decCommandReplyByte)
  | Kind.event => do return .event (← decEvent)
  | Kind.generationEnd => do
    return .generationEnd (← u8 >>= fun n => Get.check (decGenerationEnd n))
  | Kind.deadlineExceeded => do return .deadlineExceeded (← decReply (pure ()))
  | other => throw (.unknownKind other)

/-! ## Packets -/

def encode (packet : Packet) : Except Error Bytes :=
  if packet.requestId = 0 then .error .zeroRequestId
  else do
    let (kind, body) ← encodeMessage packet.message
    if maxPacket < headerLen + body.length then .error .packetTooLarge
    else seq [
      .ok magic,
      putU16 version,
      putU16 kind,
      putU32 (UInt32.ofNat body.length),
      putArray packet.generation,
      putU64 packet.requestId,
      .ok body]

structure Header where
  kind : UInt16
  bodyLen : UInt32
  generation : Generation
  requestId : UInt64

/-- The header after its magic. -/
def decHeader : Get Error Header := do
  let v ← u16
  if v ≠ version then throw (.unsupportedVersion v)
  else do
    let kind ← u16
    let bodyLen ← u32
    let generation ← array 16
    let requestId ← u64
    if requestId = 0 then throw .zeroRequestId
    else return { kind, bodyLen, generation, requestId }

def decode (bytes : Bytes) : Except Error Packet :=
  if maxPacket < bytes.length then .error .packetTooLarge
  else if bytes.length < headerLen then .error .truncated
  else if bytes.take 4 ≠ magic then .error .badMagic
  else do
    let (h, _) ← decHeader ((bytes.take headerLen).drop 4)
    if h.bodyLen.toNat ≠ bytes.length - headerLen then .error .invalidLength
    else do
      let (message, rest) ← decodeMessage h.kind (bytes.drop headerLen)
      if rest ≠ [] then .error .trailingBytes
      else return { generation := h.generation, requestId := h.requestId, message }

end Drv.Wire
