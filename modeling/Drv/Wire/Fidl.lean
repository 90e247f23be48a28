import Drv.Base.Bytes

/-!
# The WLAN schema values

The host subset of the pinned schema the control wire carries. A flexible
enumeration is a raw number of which only some are named, those that
`fromPrimitive` answers. A strict enumeration is an ordinary inductive type with its discriminant.

A value is `Known` when every flexible enumeration in it is one
`fromPrimitive` gives back. Only the fields the wire carries are here;
the schema's other records are not.
-/

namespace Drv.Fidl

/-- A flexible enumeration over the raw type `R`; `named` are the values
the schema names. -/
structure Flexible (R : Type) (named : R → Bool) where
  raw : R

namespace Flexible

variable {R : Type} {named : R → Bool}

def fromPrimitive (value : R) : Option (Flexible R named) :=
  if named value then some ⟨value⟩ else none

variable (v : Flexible R named)

def intoPrimitive : R := v.raw

/-- `fromPrimitive` inverts `intoPrimitive` at this value. -/
def Known : Prop := (fromPrimitive v.intoPrimitive : Option (Flexible R named)) = some v

theorem known_iff : v.Known ↔ named v.raw = true := by
  unfold Known fromPrimitive intoPrimitive
  split <;> simp_all

theorem fromPrimitive_eq_some {value : R} {v : Flexible R named} :
    fromPrimitive value = some v ↔ v.intoPrimitive = value ∧ v.Known := by
  rw [known_iff]
  unfold fromPrimitive intoPrimitive
  constructor
  · intro h
    split at h
    next hn => cases h; exact ⟨rfl, hn⟩
    next => cases h
  · rintro ⟨rfl, hn⟩
    rw [if_pos hn]

end Flexible

/-! ## Flexible enumerations -/

abbrev Protocol := Flexible UInt32 fun v => 1 ≤ v && v ≤ 8
abbrev WlanMacRole := Flexible UInt32 fun v => v == 1 || v == 2 || v == 3
abbrev ChannelBandwidth := Flexible UInt32 fun v =>
  v == 1 || v == 2 || v == 3 || v == 4 || v == 5 || v == 6
abbrev WlanBand := Flexible UInt8 fun v => v == 0 || v == 1
abbrev BssType := Flexible UInt32 fun v => v == 0 || v == 1 || v == 2 || v == 3 || v == 4

def validReasonCode (value : UInt16) : Bool :=
  (1 ≤ value && value ≤ 39) || (45 ≤ value && value ≤ 66) || (128 ≤ value && value ≤ 130)

def validStatusCode (value : UInt16) : Bool :=
  value ≤ 3 || (5 ≤ value && value ≤ 7) || (10 ≤ value && value ≤ 19)
    || (22 ≤ value && value ≤ 25) || (27 ≤ value && value ≤ 35) || (37 ≤ value && value ≤ 65)
    || (67 ≤ value && value ≤ 68) || (72 ≤ value && value ≤ 89) || (92 ≤ value && value ≤ 113)
    || (116 ≤ value && value ≤ 123) || (125 ≤ value && value ≤ 126)
    || (128 ≤ value && value ≤ 129) || (256 ≤ value && value ≤ 260)

abbrev ReasonCode := Flexible UInt16 validReasonCode
abbrev StatusCode := Flexible UInt16 validStatusCode

/-! ## Strict enumerations -/

inductive ScanType where
  | active | passive

def ScanType.toU32 : ScanType → UInt32
  | .active => 1
  | .passive => 2

inductive UserDisconnectReason where
  | unknown | failedToConnect | fidlConnectRequest | fidlStopClientConnectionsRequest
  | proactiveNetworkSwitch | disconnectDetectedFromSme | regulatoryRegionChange | startup
  | networkUnsaved | networkConfigUpdated | recovery | wlanstackUnitTesting
  | wlanSmeUnitTesting | wlanServiceUtilTesting | wlanDevTool

def UserDisconnectReason.toU32 : UserDisconnectReason → UInt32
  | .unknown => 0
  | .failedToConnect => 1
  | .fidlConnectRequest => 2
  | .fidlStopClientConnectionsRequest => 3
  | .proactiveNetworkSwitch => 4
  | .disconnectDetectedFromSme => 5
  | .regulatoryRegionChange => 6
  | .startup => 7
  | .networkUnsaved => 8
  | .networkConfigUpdated => 9
  | .recovery => 10
  | .wlanstackUnitTesting => 124
  | .wlanSmeUnitTesting => 125
  | .wlanServiceUtilTesting => 126
  | .wlanDevTool => 127

inductive DisconnectMlmeEventName where
  | deauthenticateIndication | disassociateIndication | roamStartIndication
  | roamResultIndication | saeHandshakeResponse | roamRequest | roamConfirmation

def DisconnectMlmeEventName.toU32 : DisconnectMlmeEventName → UInt32
  | .deauthenticateIndication => 1
  | .disassociateIndication => 2
  | .roamStartIndication => 3
  | .roamResultIndication => 4
  | .saeHandshakeResponse => 5
  | .roamRequest => 6
  | .roamConfirmation => 7

inductive ScanErrorCode where
  | notSupported | internalError | internalMlmeError | shouldWait | canceledByDriverOrFirmware

def ScanErrorCode.toU32 : ScanErrorCode → UInt32
  | .notSupported => 1
  | .internalError => 2
  | .internalMlmeError => 3
  | .shouldWait => 4
  | .canceledByDriverOrFirmware => 5

/-! ## Records and unions -/

abbrev MacAddr := List.Vector UInt8 6
abbrev Ssid := Bytes

structure ChannelNumber where
  band : WlanBand
  number : UInt8

structure BssDescription where
  bssid : MacAddr
  bssType : BssType
  beaconPeriod : UInt16
  capabilityInfo : UInt16
  ies : Bytes
  primary : ChannelNumber
  bandwidth : ChannelBandwidth
  vhtSecondary80Channel : ChannelNumber
  rssiDbm : Int8
  snrDb : Int8

structure SignalReportIndication where
  rssiDbm : Int8
  snrDb : Int8

structure ChannelSwitchInfo where
  newPrimaryChannel : ChannelNumber
  bandwidth : ChannelBandwidth
  vhtSecondary80Channel : ChannelNumber

inductive WpaCredentials where
  | psk (psk : List.Vector UInt8 32)
  | passphrase (passphrase : Bytes)
  | unknown (ordinal : UInt64) (bytes : Bytes)

inductive Credentials where
  | wep (key : Bytes)
  | wpa (credentials : WpaCredentials)
  | unknown (ordinal : UInt64) (bytes : Bytes)

structure Authentication where
  protocol : Protocol
  credentials : Option Credentials

structure DisconnectCause where
  mlmeEventName : DisconnectMlmeEventName
  reasonCode : ReasonCode

inductive DisconnectSource where
  | ap (cause : DisconnectCause)
  | user (reason : UserDisconnectReason)
  | mlme (cause : DisconnectCause)

structure DisconnectInfo where
  isSmeReconnecting : Bool
  disconnectSource : DisconnectSource

structure DisjointSecurityProtocol where
  protocol : Protocol
  role : WlanMacRole

structure Incompatible where
  description : String
  disjointSecurityProtocols : Option (List DisjointSecurityProtocol)

inductive Compatibility where
  | compatible (mutualSecurityProtocols : List Protocol)
  | incompatible (reason : Incompatible)

structure ScanResult where
  compatibility : Compatibility
  timestampNanos : Int64
  bssDescription : BssDescription

structure ActiveScanRequest where
  ssids : List Ssid
  channels : Bytes

inductive ScanRequest where
  | active (request : ActiveScanRequest)
  | passive (channels : Bytes)

structure ConnectResult where
  code : StatusCode
  isCredentialRejected : Bool
  isReconnect : Bool

structure RoamResult where
  bssid : MacAddr
  statusCode : StatusCode
  originalAssociationMaintained : Bool
  bssDescription : Option BssDescription
  disconnectInfo : Option DisconnectInfo
  isCredentialRejected : Bool

structure ConnectRequest where
  ssid : Ssid
  bssDescription : BssDescription
  multipleBssCandidates : Bool
  authentication : Authentication
  deprecatedScanType : ScanType

structure RoamRequest where
  bssDescription : BssDescription

inductive ConnectTransactionEvent where
  | onConnectResult (result : ConnectResult)
  | onDisconnect (info : DisconnectInfo)
  | onRoamResult (result : RoamResult)
  | onSignalReport (ind : SignalReportIndication)
  | onChannelSwitched (info : ChannelSwitchInfo)

/-! ## Known values -/

def ChannelNumber.Known (c : ChannelNumber) : Prop := c.band.Known

def BssDescription.Known (b : BssDescription) : Prop :=
  b.bssType.Known ∧ b.primary.Known ∧ b.bandwidth.Known ∧ b.vhtSecondary80Channel.Known

def ChannelSwitchInfo.Known (i : ChannelSwitchInfo) : Prop :=
  i.newPrimaryChannel.Known ∧ i.bandwidth.Known ∧ i.vhtSecondary80Channel.Known

def Authentication.Known (a : Authentication) : Prop := a.protocol.Known

def DisconnectCause.Known (c : DisconnectCause) : Prop := c.reasonCode.Known

def DisconnectSource.Known : DisconnectSource → Prop
  | .ap cause | .mlme cause => cause.Known
  | .user _ => True

def DisconnectInfo.Known (i : DisconnectInfo) : Prop := i.disconnectSource.Known

def DisjointSecurityProtocol.Known (d : DisjointSecurityProtocol) : Prop :=
  d.protocol.Known ∧ d.role.Known

def Incompatible.Known (i : Incompatible) : Prop :=
  ∀ ds ∈ i.disjointSecurityProtocols, ∀ d ∈ ds, d.Known

def Compatibility.Known : Compatibility → Prop
  | .compatible protocols => ∀ p ∈ protocols, p.Known
  | .incompatible reason => reason.Known

def ScanResult.Known (r : ScanResult) : Prop := r.compatibility.Known ∧ r.bssDescription.Known

def ConnectResult.Known (r : ConnectResult) : Prop := r.code.Known

def RoamResult.Known (r : RoamResult) : Prop :=
  r.statusCode.Known ∧ (∀ b ∈ r.bssDescription, b.Known) ∧ ∀ i ∈ r.disconnectInfo, i.Known

def ConnectRequest.Known (r : ConnectRequest) : Prop :=
  r.bssDescription.Known ∧ r.authentication.Known

def ConnectTransactionEvent.Known : ConnectTransactionEvent → Prop
  | .onConnectResult result => result.Known
  | .onDisconnect info => info.Known
  | .onRoamResult result => result.Known
  | .onSignalReport _ => True
  | .onChannelSwitched info => info.Known

end Drv.Fidl
