import Drv.Base.Effect
import Drv.Base.Vec
import Drv.Mt7921.ClientCommands

/-!
# Firmware effects of the client

`ClientFirmwareEffectsState` remembers what a station has programmed into
the firmware: the joined BSS, the record of the peer before and after
association, the keys and the receive filter. An operation that programs
several of them submits its commands one by one and takes back what it
can when one fails.

The submit functions that the operations are given are one link, whose
answers may be failures at any time.
-/

namespace Drv.Mt7921

open Eff (fail ofExcept)

/-! ## State -/

/-- Entries of the station table that are in use. -/
structure ClientWcidAllocator where
  occupied : Vector Bool 20

namespace ClientWcidAllocator

/-- Entry 0 belongs to the first interface and 19 is reserved. -/
def default : ClientWcidAllocator := ⟨Vector.ofFn fun i => i = 0 || i = 19⟩

def allocatePeer (allocator : ClientWcidAllocator) :
    Except String (ClientWcid × ClientWcidAllocator) :=
  match ClientWcid.peers.find? fun wcid => !allocator.occupied.get wcid.index with
  | none => .error "no free peer WCID"
  | some wcid => .ok (wcid, ⟨allocator.occupied.set wcid.index true⟩)

def releasePeer (allocator : ClientWcidAllocator) (wcid : ClientWcid) :
    Except String ClientWcidAllocator :=
  if allocator.occupied.get wcid.index then .ok ⟨allocator.occupied.set wcid.index false⟩
  else .error "peer WCID release is stale or reserved"

end ClientWcidAllocator

structure RetainedGtk where
  id : UInt8
  bytes : Bytes

inductive ClientDataGeneration where
  | association (generation : UInt64)
  | authorized (generation : UInt64)
  deriving DecidableEq

structure ClientRxCandidate where
  generation : ClientDataGeneration
  eapol : Bool
  wcid : UInt16
  tid : UInt8
  group : Bool
  keyId : UInt8
  securityMode : UInt8
  cm : Bool
  clm : Bool
  icvError : Bool
  micError : Bool
  fcsError : Bool
  pn : Vector UInt8 6

structure ClientFirmwareEffectsState where
  joined : Option JoinedClientBss
  bssProgrammed : Bool
  /-- The index and whether QoS is on. -/
  bssBinding : Option (UInt8 × Bool)
  preauthPeer : Option LegacyWmeAssociation
  association : Option LegacyWmeAssociation
  edcaProgrammed : Option ClientEdcaParameters
  postAssocInterfaceProgrammed : Bool
  postAssocBeaconPolicySelected : Bool
  postAssocRxFilterPublished : Bool
  postAssocRlmProgrammed : Bool
  sequence : UInt8
  ptkInstalled : Bool
  ptkDirty : Bool
  gtk : Option RetainedGtk
  igtkInstalled : Bool
  broadcastKeysDirty : Bool
  controlledPortOpen : Bool
  firmwareUncertain : Bool
  nextGeneration : UInt64
  associationGeneration : Option UInt64
  authorizedGeneration : Option UInt64
  outstandingTx : List (UInt16 × ClientDataGeneration)
  ptkRxPn : Option (Vector UInt64 16)
  gtkRxPn : Option (UInt8 × Vector UInt64 16)
  wcidAllocator : ClientWcidAllocator
  allocatedPeerWcid : Option ClientWcid

abbrev Effects := ClientFirmwareEffectsState

variable (s : Effects)

namespace ClientFirmwareEffectsState

def default : Effects where
  joined := none
  bssProgrammed := false
  bssBinding := none
  preauthPeer := none
  association := none
  edcaProgrammed := none
  postAssocInterfaceProgrammed := false
  postAssocBeaconPolicySelected := false
  postAssocRxFilterPublished := false
  postAssocRlmProgrammed := false
  sequence := 0
  ptkInstalled := false
  ptkDirty := false
  gtk := none
  igtkInstalled := false
  broadcastKeysDirty := false
  controlledPortOpen := false
  firmwareUncertain := false
  nextGeneration := 0
  associationGeneration := none
  authorizedGeneration := none
  outstandingTx := []
  ptkRxPn := none
  gtkRxPn := none
  wcidAllocator := .default
  allocatedPeerWcid := none

/-! ## Operations without a submission -/

/-- The generation after the last one; 0 is left out when it wraps. -/
def mintGeneration : UInt64 := max (s.nextGeneration + 1) 1

def allocatePeerWcid : Except String (ClientWcid × Effects) := do
  if s.allocatedPeerWcid.isSome ∨ s.preauthPeer.isSome ∨ s.association.isSome then
    .error "peer WCID already allocated"
  else
    let (wcid, allocator) ← s.wcidAllocator.allocatePeer
    return (wcid, { s with wcidAllocator := allocator, allocatedPeerWcid := some wcid })

def releaseAllocatedPeer (wcid : ClientWcid) : Except String Effects :=
  if s.allocatedPeerWcid = some wcid then do
    return { s with wcidAllocator := ← s.wcidAllocator.releasePeer wcid, allocatedPeerWcid := none }
  else .ok s

def bindJoin (bssid : MacAddress) (channel : ClientChannelLease) (beaconInterval : UInt16)
    (dtimPeriod : UInt8) : Except String Effects :=
  let joined : JoinedClientBss :=
    ⟨bssid, channel.channel.primary, channel.generation, beaconInterval, dtimPeriod⟩
  if bssid = .zero ∨ beaconInterval = 0 ∨ dtimPeriod = 0 ∨ s.preauthPeer.isSome ∨
      s.association.isSome ∨ s.bssProgrammed ∨ s.firmwareUncertain then
    .error "join target/channel is not current and clean"
  else if s.joined.any (· ≠ joined) then .error "join target changed without teardown"
  else .ok { s with joined := some joined }

def setControlledPort (isOpen : Bool) : Except String Effects :=
  if ¬ isOpen then .ok { s with controlledPortOpen := false, authorizedGeneration := none }
  else if s.controlledPortOpen then .ok s
  else
    match s.association with
    | none => .error "controlled port requires WCID ACK"
    | some association =>
      if s.firmwareUncertain ∨ ¬ s.ptkInstalled ∨ s.gtk.isNone ∨
          (association.mfpRequired ∧ ¬ s.igtkInstalled) then
        .error "controlled port requires all mandatory key ACKs"
      else
        .ok { s with
          controlledPortOpen := true
          nextGeneration := s.mintGeneration
          authorizedGeneration := some s.mintGeneration }

def txGeneration (eapol : Bool) : Except String ClientDataGeneration :=
  if eapol then
    match s.associationGeneration with
    | some generation => .ok (.association generation)
    | none => .error "EAPOL TX requires association generation"
  else
    match s.authorizedGeneration with
    | some generation => .ok (.authorized generation)
    | none => .error "data TX requires authorized generation"

def publishTx (token : UInt16) (generation : ClientDataGeneration) :
    Except String Effects := do
  let eapol := match generation with
    | .association _ => true
    | .authorized _ => false
  let current ← s.txGeneration eapol
  if current ≠ generation ∨ s.outstandingTx.any fun tx => tx.1 = token then
    .error "stale or duplicate client TX publication"
  else return { s with outstandingTx := s.outstandingTx ++ [(token, generation)] }

def completeTx (token : UInt16) : Except String Effects :=
  match s.outstandingTx.findIdx? fun tx => tx.1 = token with
  | none => .error "unknown client TX completion"
  | some index => .ok { s with outstandingTx := swapRemove s.outstandingTx index }

end ClientFirmwareEffectsState

variable (rx : ClientRxCandidate)

namespace ClientRxCandidate

/-- The packet number, most significant byte first. -/
def packetNumber : UInt64 := UInt64.ofNat (Bytes.toNatLE rx.pn.toList.reverse)

/-- The status of a frame that CCMP did not pass. -/
def failedCcmp : Bool :=
  rx.securityMode ≠ 4 || rx.cm || rx.clm || rx.icvError || rx.micError || rx.fcsError

end ClientRxCandidate

/-- Take a packet number that is above the retained one. -/
def advance (counters : Vector UInt64 16) (rx : ClientRxCandidate) (replayed : UInt64 → String) :
    Except String (Vector UInt64 16) :=
  let retained := counters[rx.tid.toNat]?.getD 0
  if rx.packetNumber ≤ retained then .error (replayed retained)
  else .ok (counters.setIfInBounds rx.tid.toNat rx.packetNumber)

namespace ClientFirmwareEffectsState

/-- The text of a replay in `deliver_rx`. -/
def replayedText (retained : UInt64) : String :=
  "client RX replayed PN tid=" ++ toString rx.tid ++ " pn=" ++ toString rx.packetNumber ++
    " retained=" ++ toString retained ++ " group=" ++ toString rx.group

def deliverRx : Except String Effects := do
  let preKeyEapol := rx.eapol && rx.wcid = 1023 && rx.securityMode = 0
  let foreign := s.association.all fun association =>
    rx.wcid ≠ association.peerWcid.get.toUInt16
  if (← s.txGeneration rx.eapol) ≠ rx.generation ∨ (foreign ∧ ¬ preKeyEapol) ∨ rx.tid ≥ 16 then
    .error "stale or foreign client RX"
  else if rx.securityMode = 0 ∧ rx.eapol then return s
  else if rx.failedCcmp then .error "client RX failed CCMP status"
  else if rx.group then
    match s.gtkRxPn with
    | none => .error "group RX lacks GTK ACK"
    | some (id, counters) =>
      if id ≠ rx.keyId then .error "group RX key id is stale"
      else do
        let counters ← advance counters rx (replayedText rx)
        return { s with gtkRxPn := some (id, counters) }
  else if rx.keyId ≠ 0 then .error "pairwise RX key id is invalid"
  else
    match s.ptkRxPn with
    | none => .error "unicast RX lacks PTK ACK"
    | some counters => do
      let counters ← advance counters rx (replayedText rx)
      return { s with ptkRxPn := some counters }

def deliverProtectedManagementRx : Except String Effects := do
  match s.association with
  | none => .error "protected management RX lacks association"
  | some association =>
    match s.associationGeneration with
    | none => .error "protected management RX lacks association generation"
    | some generation =>
      if rx.generation ≠ .association generation ∨ ¬ association.mfpRequired ∨
          ¬ s.ptkInstalled ∨ s.firmwareUncertain ∨ rx.eapol ∨ rx.group ∨
          rx.wcid ≠ association.peerWcid.get.toUInt16 ∨ rx.tid ≥ 16 ∨ rx.keyId ≠ 0 then
        .error "protected management RX lacks current pairwise PMF state"
      else if rx.failedCcmp then .error "protected management RX failed CCMP status"
      else
        match s.ptkRxPn with
        | none => .error "protected management RX lacks PTK replay state"
        | some counters => do
          let counters ← advance counters rx fun _ => "protected management RX replayed PN"
          return { s with ptkRxPn := some counters }

end ClientFirmwareEffectsState

/-! ## The link -/

/-- What an operation hands to its caller's functions. -/
inductive Submission where
  | uni (service : UInt8) (command : ClientCommand)
  | ce (command : ClientCommand)
  | ceNoAck (command : ClientCommand)
  /-- The boundary between BSS and station in an association. -/
  | afterBss

structure ClientLink (τ : Type) where
  handle : Submission → τ → Except String Unit × τ

structure ClientSession (τ : Type) where
  state : Effects
  link : τ

abbrev Client (τ α : Type) := Eff (ClientSession τ) Empty String α

namespace Client

variable {τ : Type} (L : ClientLink τ)

def firmware : Client τ Effects := Eff.look ClientSession.state

def update (f : Effects → Effects) : Client τ Unit :=
  Eff.modify fun s => { s with state := f s.state }

/-- An operation without a submission, which changes nothing when it fails. -/
def step (f : Effects → Except String Effects) :
    Client τ Unit := do
  let next ← ofExcept (f (← firmware))
  update fun _ => next

def submit (submission : Submission) : Client τ Unit := fun s =>
  ⟨(L.handle submission s.link).1, { s with link := (L.handle submission s.link).2 }, []⟩

def nextSequence : Client τ UInt8 := do
  update fun s => { s with sequence := s.sequence % 15 + 1 }
  return (← firmware).sequence

/-- Encode a command with the next sequence number and submit it. -/
def send (service : UInt8) (encode : UInt8 → Encoded) : Client τ Unit := do
  let command ← ofExcept (encode (← nextSequence))
  submit L (.uni service command)

def sendBss (bssIndex : UInt8) (joined : JoinedClientBss) (qos enable : Bool) : Client τ Unit :=
  send L 2 fun sequence => encodeClientBssCommand sequence bssIndex joined qos enable

def sendRemoveWcid (bssIndex : UInt8) (wcid : ClientWcid) (aid : UInt16) (peer : MacAddress)
    (negotiatedQos : Bool) : Client τ Unit :=
  send L 3 fun sequence =>
    encodeRemoveWcidCommand sequence bssIndex wcid.get aid peer negotiatedQos

def release (wcid : ClientWcid) : Client τ Unit := step fun s => s.releaseAllocatedPeer wcid

/-- The text of a rollback's result. -/
def debug : Except String Unit → String
  | .ok () => "Ok(())"
  | .error error => "Err(" ++ error.quote ++ ")"

/-! ## After association -/

def programEdca (params : ClientEdcaParameters) : Client τ Unit := do
  let s ← firmware
  match s.association with
  | none => fail "EDCA requires an ACKed association"
  | some association =>
    if ¬ association.negotiatedQos ∨ s.edcaProgrammed.isSome ∨ s.firmwareUncertain then
      fail "EDCA state is not clean negotiated QoS"
    else do
      let command ← ofExcept
        (encodeClientEdcaCommand (← nextSequence) association.bssIndex params)
      update fun s => { s with firmwareUncertain := true }
      submit L (.ce command)
      update fun s => { s with edcaProgrammed := some params, firmwareUncertain := false }

def completePostAssocInterface : Client τ Unit := do
  let s ← firmware
  match s.association, s.joined with
  | none, _ => fail "post-association interface update requires peer STA_REC ACK"
  | some _, none => fail "post-association interface update requires joined BSS"
  | some association, some joined =>
    if s.postAssocInterfaceProgrammed ∨ s.postAssocBeaconPolicySelected ∨
        s.postAssocRxFilterPublished ∨ ¬ s.postAssocRlmProgrammed ∨ s.firmwareUncertain ∨
        (association.negotiatedQos ∧ s.edcaProgrammed.isNone) then
      fail "post-association interface update is out of Linux order"
    else do
      let command ← ofExcept (encodeClientPostAssocInterfaceWcidCommand (← nextSequence)
        association.bssIndex joined.bssid)
      update fun s => { s with firmwareUncertain := true }
      submit L (.uni 3 command)
      update fun s => { s with
        postAssocInterfaceProgrammed := true, postAssocBeaconPolicySelected := true }
      let power ← ofExcept
        (encodeClientPostAssocPowerStateCommand (← nextSequence) association.bssIndex 0)
      submit L (.uni 2 power)
      let rxFilter ← ofExcept (encodeClientPostAssocRxFilterCommand (← nextSequence))
      submit L (.ceNoAck rxFilter)
      update fun s => { s with postAssocRxFilterPublished := true, firmwareUncertain := false }

/-! ## Before authentication -/

variable (peer : LegacyWmeAssociation)

/-- The four submissions; the BSS is recorded once it was acknowledged. -/
def addPreauthPeer (initial bss rlm command : ClientCommand) : Client τ Unit := do
  submit L (.uni 3 initial)
  submit L (.uni 2 bss)
  update fun s => { s with bssProgrammed := true, bssBinding := some (peer.bssIndex, false) }
  submit L (.uni 2 rlm)
  submit L (.uni 3 command)

/-- The BSS is taken back only if it was recorded. -/
def rollbackPreauthBss (joined : JoinedClientBss) : Client τ Unit := do
  if (← firmware).bssProgrammed then sendBss L peer.bssIndex joined false false
  else return ()

/-- Everything was taken back: the BSS is forgotten and the entry is free. -/
def forgetPreauthPeer (rollback rollbackBss : Except String Unit) : Client τ Unit :=
  if rollback.isOk ∧ rollbackBss.isOk then do
    update fun s => { s with bssProgrammed := false, bssBinding := none }
    release peer.peerWcid
  else return ()

def rollbackPreauthPeer (joined : JoinedClientBss) (error : String) : Client τ Unit := do
  let rollback ←
    (sendRemoveWcid L peer.bssIndex peer.peerWcid 0 joined.bssid false).attempt
  let rollbackBss ← (rollbackPreauthBss L peer joined).attempt
  update fun s => { s with firmwareUncertain := ¬ rollback.isOk ∨ ¬ rollbackBss.isOk }
  forgetPreauthPeer peer rollback rollbackBss
  fail ("preauth WCID add failed: " ++ error ++ "; rollback_wcid=" ++ debug rollback ++
    "; rollback_bss=" ++ debug rollbackBss)

def preparePreauthPeer (channel : ClientChannelLease) : Client τ Unit := do
  let s ← firmware
  match s.joined.filter fun joined => joined.bssid = peer.peer ∧
      joined.channel = channel.channel.primary ∧ joined.channelGeneration = channel.generation with
  | none => fail "preauth peer requires the current joined channel generation"
  | some joined =>
    if peer.aid ≠ 0 ∨ peer.negotiatedQos ∨ peer.mfpRequired ∨ s.association.isSome ∨
        s.bssProgrammed ∨ s.firmwareUncertain then
      fail "preauth peer state is not clean"
    else
      match s.preauthPeer with
      | some current =>
        if current = peer then return ()
        else fail "preauth peer changed without teardown"
      | none => do
        let initial ← ofExcept (encodeInitialPeerWcidCommand (← nextSequence) peer.bssIndex
          peer.peerWcid.get peer.peer)
        let bss ← ofExcept (encodeClientPreauthBssCommand (← nextSequence) peer.bssIndex
          joined.bssid joined.channel joined.beaconInterval)
        let rlm ← ofExcept
          (encodeClientPostAssocRlmCommand (← nextSequence) peer.bssIndex channel.channel)
        let command ← ofExcept (encodePreauthPeerWcidCommand (← nextSequence) peer.bssIndex
          peer.peerWcid.get peer.peer channel.channel.band peer.rcpi peer.basicRates
          peer.legacyRates)
        update fun s => { s with firmwareUncertain := true }
        match ← (addPreauthPeer L peer initial bss rlm command).attempt with
        | .error error => rollbackPreauthPeer L peer joined error
        | .ok () =>
          update fun s => { s with preauthPeer := some peer, firmwareUncertain := false }

/-! ## Association -/

variable (association : LegacyWmeAssociation)

section
variable (joined : JoinedClientBss)

/-- The BSS of an association is taken back after a failure. -/
def rollbackBss : Client τ (Except String Unit) :=
  (sendBss L association.bssIndex joined association.negotiatedQos false).attempt

def associateBss (bss : ClientCommand) : Client τ Unit := do
  match ← (submit L (.uni 2 bss)).attempt with
  | .ok () => update fun s => { s with firmwareUncertain := false }
  | .error error => do
    let rollback ← rollbackBss L association joined
    update fun s => if rollback.isOk then
      { s with bssProgrammed := false, bssBinding := none, firmwareUncertain := false } else s
    fail ("BSS add failed: " ++ error ++ "; rollback_bss=" ++ debug rollback)

def associateRlm (channel : ClientChannelLease) : Client τ Unit := do
  let rlm ← ofExcept
    (encodeClientPostAssocRlmCommand (← nextSequence) association.bssIndex channel.channel)
  update fun s => { s with firmwareUncertain := true }
  match ← (submit L (.uni 2 rlm)).attempt with
  | .ok () =>
    update fun s => { s with postAssocRlmProgrammed := true, firmwareUncertain := false }
  | .error error => do
    let rollback ← rollbackBss L association joined
    update fun s => if rollback.isOk then
      { s with bssProgrammed := false, bssBinding := none, firmwareUncertain := false }
      else { s with firmwareUncertain := true }
    fail ("post-BSS RLM failed: " ++ error ++ "; rollback_bss=" ++ debug rollback)

def associateBoundary : Client τ Unit := do
  match ← (submit L .afterBss).attempt with
  | .ok () => return ()
  | .error error => do
    let rollback ← rollbackBss L association joined
    update fun s => if rollback.isOk then
      { s with
        bssProgrammed := false, bssBinding := none, postAssocRlmProgrammed := false
        firmwareUncertain := false }
      else { s with firmwareUncertain := true }
    fail ("post-BSS/pre-STA boundary failed: " ++ error ++ "; rollback_bss=" ++ debug rollback)

end

/-- The record of the peer is forgotten, and its entry is free again. -/
def forgetPreauth : Except String Unit → Client τ Unit
  | .ok () => do
    update fun s => { s with preauthPeer := none }
    release association.peerWcid
  | .error _ => return ()

def associateStation (joined : JoinedClientBss) (channel : ClientChannelLease) : Client τ Unit := do
  let command ← ofExcept
    (encodeLegacyWmeAddWcidCommand (← nextSequence) association channel.channel.band)
  match ← (submit L (.uni 3 command)).attempt with
  | .ok () =>
    update fun s => { s with
      association := some association
      nextGeneration := s.mintGeneration
      associationGeneration := some s.mintGeneration }
  | .error error => do
    update fun s => { s with controlledPortOpen := false }
    let rollbackWcid ← (sendRemoveWcid L association.bssIndex association.peerWcid association.aid
      association.peer association.negotiatedQos).attempt
    let rollback ← rollbackBss L association joined
    update fun s => if rollback.isOk then
      { s with bssProgrammed := false, bssBinding := none, postAssocRlmProgrammed := false }
      else { s with bssProgrammed := true }
    forgetPreauth association rollbackWcid
    update fun s => { s with firmwareUncertain := ¬ rollbackWcid.isOk ∨ ¬ rollback.isOk }
    fail ("WCID add failed: " ++ error ++ "; rollback_wcid=" ++ debug rollbackWcid ++
      "; rollback_bss=" ++ debug rollback)

def associate (channel : ClientChannelLease) : Client τ Unit := do
  let s ← firmware
  match s.joined.filter fun joined => joined.bssid = association.peer ∧
      joined.channel = channel.channel.primary ∧ joined.channelGeneration = channel.generation with
  | none => fail "association requires the current joined channel generation"
  | some joined =>
    match s.preauthPeer.filter fun preauth => preauth.bssIndex = association.bssIndex ∧
        preauth.peerWcid = association.peerWcid ∧ preauth.peer = association.peer ∧
        preauth.rcpi = association.rcpi ∧ preauth.aid = 0 with
    | none => fail "association requires an ACKed preauth peer WCID"
    | some _ =>
      if s.association.isSome ∨ ¬ s.bssProgrammed ∨
          s.bssBinding ≠ some (association.bssIndex, false) ∨ s.firmwareUncertain then
        fail "client firmware association state is not clean"
      else do
        let bss ← ofExcept (encodeClientBssCommand (← nextSequence) association.bssIndex
          joined association.negotiatedQos true)
        -- a failed submission may have been applied: the BSS is recorded first
        update fun s => { s with
          bssProgrammed := true
          bssBinding := some (association.bssIndex, association.negotiatedQos)
          firmwareUncertain := true }
        associateBss L association joined bss
        associateRlm L association joined channel
        associateBoundary L association joined
        associateStation L association joined channel

/-! ## Teardown -/

/-- A failure leaves the firmware uncertain. -/
def certain (message : String) (x : Client τ Unit) : Client τ Unit := do
  match ← x.attempt with
  | .ok () => return ()
  | .error error => do
    update fun s => { s with firmwareUncertain := true }
    fail (message ++ error)

def clearRxFilter : Client τ Unit := do
  if (← firmware).postAssocRxFilterPublished then do
    let clear ← ofExcept (encodeClientPostAssocRxFilterClearCommand (← nextSequence))
    certain "client firmware RX-filter teardown failed: " (submit L (.ceNoAck clear))
    update fun s => { s with postAssocRxFilterPublished := false }
  else return ()

def teardownPreauth : Client τ Unit := do
  match (← firmware).preauthPeer with
  | none => return ()
  | some preauth => do
    certain "client firmware preauth WCID teardown failed: "
      (sendRemoveWcid L preauth.bssIndex preauth.peerWcid 0 preauth.peer false)
    update fun s => { s with preauthPeer := none }
    release preauth.peerWcid

def teardownBss : Client τ Unit := do
  let s ← firmware
  if s.bssProgrammed then
    match s.joined, s.bssBinding with
    | none, _ => fail "programmed BSS lost its join binding"
    | some _, none => fail "programmed BSS lost its firmware binding"
    | some joined, some (bssIndex, negotiatedQos) => do
      certain "client firmware BSS teardown failed: "
        (sendBss L bssIndex joined negotiatedQos false)
      update fun s => { s with
        bssProgrammed := false, bssBinding := none, joined := none, firmwareUncertain := false }
  else return ()

def teardownUnassociated : Client τ Unit := do
  update fun s => { s with
    gtk := none, ptkInstalled := false, ptkDirty := false, igtkInstalled := false
    broadcastKeysDirty := false, associationGeneration := none, ptkRxPn := none
    gtkRxPn := none }
  teardownPreauth L
  teardownBss L
  update fun s => { s with joined := none, firmwareUncertain := false }

def disableBroadcastKeys : Client τ Unit := do
  if (← firmware).broadcastKeysDirty then do
    certain "client firmware broadcast-key teardown failed: " (send L 3 fun sequence =>
      encodeDisableKeysCommand sequence association.bssIndex interfaceWcid 0x0e)
    update fun s => { s with
      gtk := none, gtkRxPn := none, igtkInstalled := false, broadcastKeysDirty := false }
  else return ()

def disablePairwiseKey : Client τ Unit := do
  if (← firmware).ptkDirty then do
    certain "client firmware pairwise-key teardown failed: " (send L 3 fun sequence =>
      encodeDisableKeysCommand sequence association.bssIndex association.peerWcid.get 0)
    update fun s => { s with ptkInstalled := false, ptkRxPn := none, ptkDirty := false }
  else return ()

def teardownAssociated : Client τ Unit := do
  disableBroadcastKeys L association
  disablePairwiseKey L association
  certain "client firmware WCID teardown failed: "
    (sendRemoveWcid L association.bssIndex association.peerWcid association.aid association.peer
      association.negotiatedQos)
  match (← firmware).joined with
  -- the source stops here: an association keeps its joined BSS
  | none => fail "association retained joined BSS"
  | some joined => do
    certain "client firmware BSS teardown failed: "
      (sendBss L association.bssIndex joined association.negotiatedQos false)
    update fun s => { s with
      bssProgrammed := false, bssBinding := none, preauthPeer := none, association := none }
    release association.peerWcid
    update fun s => { s with
      joined := none, associationGeneration := none, firmwareUncertain := false }

def teardown : Client τ Unit := do
  update fun s => { s with
    controlledPortOpen := false, edcaProgrammed := none, postAssocInterfaceProgrammed := false
    postAssocBeaconPolicySelected := false, postAssocRlmProgrammed := false
    authorizedGeneration := none }
  if (← firmware).outstandingTx ≠ [] then do
    update fun s => { s with firmwareUncertain := true }
    fail "client TX must be contained before key teardown"
  else do
    clearRxFilter L
    match (← firmware).association with
    | none => teardownUnassociated L
    | some association => teardownAssociated L association

/-! ## Keys -/

/-- The 48 bits of a packet number; the other octets are reserved. -/
def maskRsc (rsc : UInt64) : UInt64 := rsc &&& 0x0000ffffffffffff

/-- Submit a key; a failure tears everything down. -/
def installKey (what : String) (command : ClientCommand) : Client τ Unit := do
  match ← (submit L (.uni 3 command)).attempt with
  | .ok () => return ()
  | .error error => do
    update fun s => { s with controlledPortOpen := false, firmwareUncertain := true }
    let rollback ← (teardown L).attempt
    fail (what ++ " install failed: " ++ error ++ "; rollback=" ++ debug rollback)

def installPtk (key : Bytes) (rsc : UInt64) : Client τ Unit := do
  match (← firmware).association with
  | none => fail "PTK install requires WCID ACK"
  | some association => do
    let command ← ofExcept (encodePtkCommand (← nextSequence) association.bssIndex
      association.peerWcid.get key)
    -- a failure may hide an installed key: it is recorded first
    update fun s => { s with ptkDirty := true }
    installKey L "PTK" command
    update fun s => { s with
      ptkInstalled := true, ptkRxPn := some (Vector.replicate 16 (maskRsc rsc)) }

def installGtk (keyId : UInt8) (key : Bytes) (rsc : UInt64) : Client τ Unit := do
  match (← firmware).association with
  | none => fail "GTK install requires WCID ACK"
  | some association => do
    let command ← ofExcept
      (encodeGtkCommand (← nextSequence) association.bssIndex keyId key)
    update fun s => { s with broadcastKeysDirty := true }
    installKey L "GTK" command
    update fun s => { s with
      gtk := some ⟨keyId, key⟩, gtkRxPn := some (keyId, Vector.replicate 16 (maskRsc rsc)) }

def installIgtk (keyId : UInt8) (key : Bytes) : Client τ Unit := do
  match (← firmware).association with
  | none => fail "IGTK install requires WCID ACK"
  | some association => do
    let sequence ← nextSequence
    match (← firmware).gtk with
    | none => fail "IGTK install requires retained GTK ACK"
    | some gtk => do
      let command ← ofExcept
        (encodeIgtkCommand sequence association.bssIndex keyId key gtk.id gtk.bytes)
      update fun s => { s with broadcastKeysDirty := true }
      installKey L "IGTK" command
      update fun s => { s with igtkInstalled := true }

/-! ## Runs -/

end Client

open Client

/-- The public operations that change the state. -/
inductive ClientOp where
  | allocatePeerWcid
  | reserveMcuSequence
  | bindJoin (bssid : MacAddress) (channel : ClientChannelLease) (beaconInterval : UInt16)
      (dtimPeriod : UInt8)
  | preparePreauthPeer (peer : LegacyWmeAssociation) (channel : ClientChannelLease)
  | associate (association : LegacyWmeAssociation) (channel : ClientChannelLease)
  | programEdca (params : ClientEdcaParameters)
  | completePostAssocInterface
  | installPtk (key : Bytes) (rsc : UInt64)
  | installGtk (keyId : UInt8) (key : Bytes) (rsc : UInt64)
  | installIgtk (keyId : UInt8) (key : Bytes)
  | setControlledPort (isOpen : Bool)
  | publishTx (token : UInt16) (generation : ClientDataGeneration)
  | completeTx (token : UInt16)
  | deliverRx (rx : ClientRxCandidate)
  | deliverProtectedManagementRx (rx : ClientRxCandidate)
  | teardown

/-- An operation, without the value it returns. -/
def ClientOp.exec {τ : Type} (L : ClientLink τ) : ClientOp → Client τ Unit
  | .allocatePeerWcid => step fun s => Prod.snd <$> s.allocatePeerWcid
  | .reserveMcuSequence => do
    let _ ← nextSequence
    return ()
  | .bindJoin bssid channel beaconInterval dtimPeriod =>
    step fun s => s.bindJoin bssid channel beaconInterval dtimPeriod
  | .preparePreauthPeer peer channel => Client.preparePreauthPeer L peer channel
  | .associate association channel => Client.associate L association channel
  | .programEdca params => Client.programEdca L params
  | .completePostAssocInterface => Client.completePostAssocInterface L
  | .installPtk key rsc => Client.installPtk L key rsc
  | .installGtk keyId key rsc => Client.installGtk L keyId key rsc
  | .installIgtk keyId key => Client.installIgtk L keyId key
  | .setControlledPort isOpen => step fun s => s.setControlledPort isOpen
  | .publishTx token generation => step fun s => s.publishTx token generation
  | .completeTx token => step fun s => s.completeTx token
  | .deliverRx rx => step fun s => s.deliverRx rx
  | .deliverProtectedManagementRx rx => step fun s => s.deliverProtectedManagementRx rx
  | .teardown => Client.teardown L

/-- An operation of a run. -/
structure ClientStep (τ : Type) where
  before : ClientSession τ
  op : ClientOp
  result : Except String Unit
  after : ClientSession τ

/-- Any sequence of operations. -/
def ClientOp.run {τ : Type} (L : ClientLink τ) (s : ClientSession τ) :
    List ClientOp → List (ClientStep τ)
  | [] => []
  | op :: rest =>
    ⟨s, op, (op.exec L s).result, (op.exec L s).state⟩ :: run L (op.exec L s).state rest

end Drv.Mt7921
