import Drv.Mt7921.Encode

/-!
# Firmware commands of the client

What a station programs into the firmware: the record of its peer, the
BSS, the keys, the receive filter and the parameters that go with them. A
command is kept as the arguments its encoder was given; each encoder
refuses the arguments that the source refuses, with the same text.
-/

namespace Drv.Mt7921

/-! ## Identities -/

abbrev MacAddress := Vector UInt8 6

def MacAddress.zero : MacAddress := Vector.replicate 6 0

/-- An entry of the station table that is not reserved. -/
structure ClientWcid where
  get : UInt8
  range : 1 ≤ get.toNat ∧ get.toNat < 19
  deriving DecidableEq

namespace ClientWcid

def index (wcid : ClientWcid) : Fin 20 := ⟨wcid.get.toNat, by have := wcid.range; omega⟩

/-- The entries 1 to 18. -/
def peers : List ClientWcid := (List.finRange 18).map fun i =>
  ⟨UInt8.ofNat (i.val + 1), by simp only [UInt8.toNat_ofNat']; omega⟩

end ClientWcid

structure ClientChannelLease where
  channel : ClientPhysicalChannel
  generation : UInt64

structure JoinedClientBss where
  bssid : MacAddress
  channel : UInt16
  channelGeneration : UInt64
  beaconInterval : UInt16
  dtimPeriod : UInt8
  deriving DecidableEq

structure LegacyWmeAssociation where
  bssIndex : UInt8
  peerWcid : ClientWcid
  aid : UInt16
  peer : MacAddress
  rcpi : UInt8
  basicRates : UInt16
  legacyRates : UInt16
  htCap : Option (Vector UInt8 26)
  vhtCap : Option (Vector UInt8 12)
  bandwidth : UInt8
  negotiatedQos : Bool
  mfpRequired : Bool
  deriving DecidableEq

structure ClientEdcaAc where
  cwMin : UInt16
  cwMax : UInt16
  txop : UInt16
  aifs : UInt16
  acm : Bool

/-- In the order VO, VI, BE, BK. -/
abbrev ClientEdcaParameters := Vector ClientEdcaAc 4

/-! ## Commands -/

/-- The entry of the interface itself, which also holds the group keys. -/
def interfaceWcid : UInt8 := 19

inductive ClientCommand where
  | edca (sequence bssIndex : UInt8) (qos : Bool) (params : ClientEdcaParameters)
  | interfaceWcid (sequence bssIndex : UInt8) (bssid : MacAddress)
  | powerState (sequence bssIndex psState : UInt8)
  | rxFilterBitmap (sequence bitOperation : UInt8)
  | initialPeer (sequence bssIndex wcid : UInt8) (peer : MacAddress)
  | preauthBss (sequence bssIndex : UInt8) (bssid : MacAddress) (channel beaconInterval : UInt16)
  | rlm (sequence bssIndex : UInt8) (channel : ClientPhysicalChannel)
  | preauthPeer (sequence bssIndex wcid : UInt8) (peer : MacAddress) (band rcpi : UInt8)
      (basicRates legacyRates : UInt16)
  | removeWcid (sequence bssIndex wcid : UInt8) (aid : UInt16) (peer : MacAddress)
      (negotiatedQos : Bool)
  | bss (sequence bssIndex : UInt8) (joined : JoinedClientBss) (qos enable : Bool)
  | addWcid (sequence : UInt8) (association : LegacyWmeAssociation) (band : UInt8)
  | key (sequence bssIndex wcid muarIndex keyId : UInt8) (key : Bytes)
      (retainedGtk : Option (UInt8 × Bytes))
  | disableKeys (sequence bssIndex wcid muarIndex : UInt8)

abbrev Encoded := Except String ClientCommand

variable (sequence : UInt8)

/-- Every encoder wants a sequence number from 1 to 15. -/
def validSequence : Bool := 1 ≤ sequence && sequence ≤ 15

/-! ## Encoders -/

variable (bssIndex : UInt8)

def encodeClientEdcaCommand (params : ClientEdcaParameters) : Encoded :=
  if sequence = 0 ∨ sequence > 15 ∨ bssIndex ≠ 0 then
    .error "client EDCA identity escaped the single station VIF"
  else if params.toList.any fun ac =>
      (if ac.cwMax = 0 then 10 else ac.cwMax) < (if ac.cwMin = 0 then 5 else ac.cwMin) ||
        ac.aifs = 0 || ac.aifs > 15 || ac.cwMax > 0x7fff then
    .error "client EDCA parameters escaped firmware bounds"
  else .ok (.edca sequence bssIndex true params)

def encodeClientPostAssocInterfaceWcidCommand (bssid : MacAddress) : Encoded :=
  if ¬ validSequence sequence ∨ bssIndex ≠ 0 ∨ bssid = .zero then
    .error "post-association interface WCID identity is invalid"
  else .ok (.interfaceWcid sequence bssIndex bssid)

def encodeClientPostAssocPowerStateCommand (psState : UInt8) : Encoded :=
  if ¬ validSequence sequence ∨ bssIndex ≠ 0 ∨ psState > 4 then
    .error "post-association power state is invalid"
  else .ok (.powerState sequence bssIndex psState)

def encodeClientPostAssocRxFilterBitmapCommand (bitOperation : UInt8) : Encoded :=
  if ¬ validSequence sequence then .error "post-association RX filter sequence is invalid"
  else .ok (.rxFilterBitmap sequence bitOperation)

def encodeClientPostAssocRxFilterCommand : Encoded :=
  encodeClientPostAssocRxFilterBitmapCommand sequence 1

def encodeClientPostAssocRxFilterClearCommand : Encoded :=
  encodeClientPostAssocRxFilterBitmapCommand sequence 2

def encodeInitialPeerWcidCommand (wcid : UInt8) (peer : MacAddress) : Encoded :=
  if ¬ validSequence sequence ∨ wcid = 0 ∨ peer = .zero then
    .error "initial peer WCID identity is invalid"
  else .ok (.initialPeer sequence bssIndex wcid peer)

def encodeClientPreauthBssCommand (bssid : MacAddress) (channel beaconInterval : UInt16) :
    Encoded :=
  if ¬ validSequence sequence ∨ bssid = .zero ∨ beaconInterval = 0 ∨
      ¬ (1 ≤ channel ∧ channel ≤ 177) then
    .error "preauth BSS update escaped station BASIC bounds"
  else .ok (.preauthBss sequence bssIndex bssid channel beaconInterval)

def encodeClientPostAssocRlmCommand (channel : ClientPhysicalChannel) : Encoded :=
  if ¬ validSequence sequence ∨ bssIndex ≠ 0 ∨ channel.primary = 0 ∨ channel.primary > 255 ∨
      channel.center = 0 ∨ channel.center > 255 ∨ channel.center2 > 255 ∨ channel.band > 1 ∨
      channel.bandwidth > 3 then
    .error "post-association RLM channel context is invalid"
  else .ok (.rlm sequence bssIndex channel)

def encodePreauthPeerWcidCommand (wcid : UInt8) (peer : MacAddress) (band rcpi : UInt8)
    (basicRates legacyRates : UInt16) : Encoded :=
  if ¬ validSequence sequence ∨ ¬ (1 ≤ wcid ∧ wcid < 19) ∨ peer = .zero ∨
      peer.get 0 &&& 1 ≠ 0 ∨ band > 1 then
    .error "preauth station identity or band is invalid"
  else .ok (.preauthPeer sequence bssIndex wcid peer band rcpi basicRates legacyRates)

def encodeRemoveWcidCommand (wcid : UInt8) (aid : UInt16) (peer : MacAddress)
    (negotiatedQos : Bool) : Encoded :=
  if ¬ validSequence sequence then .error "WCID removal omitted valid sequence"
  else .ok (.removeWcid sequence bssIndex wcid aid peer negotiatedQos)

def encodeClientBssCommand (joined : JoinedClientBss) (qos enable : Bool) : Encoded :=
  if ¬ validSequence sequence ∨ joined.bssid = .zero ∨ joined.beaconInterval = 0 ∨
      joined.dtimPeriod = 0 ∨ ¬ (1 ≤ joined.channel ∧ joined.channel ≤ 177) then
    .error "BSS update escaped station BASIC bounds"
  else .ok (.bss sequence bssIndex joined qos enable)

/-- The checks of `encode_legacy_wme_wcid_command` come after its own. -/
def encodeLegacyWmeAddWcidCommand (association : LegacyWmeAssociation) (band : UInt8) : Encoded :=
  if ¬ (1 ≤ association.aid ∧ association.aid ≤ 2007) then
    .error "associated WCID AID escaped infrastructure range"
  else if association.basicRates = 0 ∨ association.legacyRates = 0 then
    .error "associated WCID omitted negotiated legacy rates"
  else if band > 1 ∨ (association.vhtCap.isSome ∧ (band = 0 ∨ association.htCap.isNone)) then
    .error "associated peer PHY capability or band is invalid"
  else if ¬ validSequence sequence then .error "WCID add omitted valid sequence"
  else if association.htCap.isSome ∧ association.bandwidth > 3 then
    .error "HT/VHT station context escaped negotiated bandwidth"
  else .ok (.addWcid sequence association band)

def encodeKeyV2Command (wcid muarIndex keyId : UInt8) (key : Bytes)
    (retainedGtk : Option (UInt8 × Bytes)) : Encoded :=
  if ¬ validSequence sequence ∨ key.length ≠ 16 then
    .error "key-v2 requires a valid sequence and 16-byte key"
  else if retainedGtk.any fun gtk => gtk.2.length ≠ 16 then
    .error "IGTK update requires a retained 16-byte GTK"
  else .ok (.key sequence bssIndex wcid muarIndex keyId key retainedGtk)

def encodePtkCommand (peerWcid : UInt8) (key : Bytes) : Encoded :=
  encodeKeyV2Command sequence bssIndex peerWcid 0 0 key none

def encodeGtkCommand (keyId : UInt8) (key : Bytes) : Encoded :=
  if ¬ (1 ≤ keyId ∧ keyId ≤ 3) then .error "GTK key ID escaped group-key slots"
  else encodeKeyV2Command sequence bssIndex interfaceWcid 0x0e keyId key none

def encodeIgtkCommand (igtkId : UInt8) (igtk : Bytes) (gtkId : UInt8) (retainedGtk : Bytes) :
    Encoded :=
  if ¬ (4 ≤ igtkId ∧ igtkId ≤ 5) ∨ ¬ (1 ≤ gtkId ∧ gtkId ≤ 3) then
    .error "IGTK/GTK key ID escaped protected-management slots"
  else encodeKeyV2Command sequence bssIndex interfaceWcid 0x0e igtkId igtk
    (some (gtkId, retainedGtk))

def encodeDisableKeysCommand (wcid muarIndex : UInt8) : Encoded :=
  if ¬ validSequence sequence then .error "key-v2 requires a valid sequence and 16-byte key"
  else .ok (.disableKeys sequence bssIndex wcid muarIndex)

end Drv.Mt7921
