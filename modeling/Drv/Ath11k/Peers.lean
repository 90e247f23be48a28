import Drv.Ath11k.Fragments

/-!
# Peers, their keys, and whole runs

A peer is registered when the firmware has created it, mapped when the
firmware names it, and torn down when it disassociates; its entry in the
security table goes when the firmware withdraws the name.

`PeerRxTids.run` is any sequence of the public operations, with any
answers of the platform and any statuses.
-/

namespace Drv.Ath11k

open Eff (fail look)

namespace PeerRxTids

variable (P : Platform)

/-! ## Registration -/

def registerPeerAfterFirmwareCreate (key : PeerKey) : Rx Unit := do
  let s ← look fun s => s
  if key ∈ s.tearingDown then fail .wrongState
  else if key ∈ s.peers then return ()
  else
    Eff.modify fun s => { s with
      peers := s.peers ++ [key]
      security := s.security ++ [⟨key, ⟨none, 0, 0, none, none⟩⟩] }

/-- The fields of a peer-map event that are read. -/
structure PeerMap where
  vdevId : UInt8
  peerId : UInt16
  address : Vector UInt8 6

def PeerMap.key (map : PeerMap) : PeerKey := ⟨map.vdevId.toUInt32, map.address⟩

/-- Whether an entry of the table speaks against a map. -/
def conflicts (map : PeerMap) (peer : SecurityPeer) : Prop :=
  (peer.key = map.key ∧ peer.state.peerId ≠ none ∧ peer.state.peerId ≠ some map.peerId) ∨
    (peer.key ≠ map.key ∧ peer.state.peerId = some map.peerId)

instance (map : PeerMap) (peer : SecurityPeer) : Decidable (conflicts map peer) :=
  inferInstanceAs (Decidable (_ ∨ _))

def registerPeerMap (map : PeerMap) : Rx Unit := do
  let security ← look PeerRxTids.security
  if ∃ peer ∈ security, conflicts map peer then fail .wrongState
  else do
    registerPeerAfterFirmwareCreate map.key
    -- a registered peer has an entry, so the first one is there
    Eff.modify fun s => { s with
      security := modifyFirst (fun peer => peer.key = map.key)
        (fun peer => { peer with state := { peer.state with peerId := some map.peerId } })
        s.security }

def unregisterPeerMap (peerId : UInt16) : Rx Unit := do
  let s ← look fun s => s
  match extract (fun peer => peer.state.peerId = some peerId) s.security with
  | none => fail .wrongState
  | some (peer, security) =>
    if peer.key ∈ s.tearingDown then do
      Eff.modify fun s => { s with security := security }
      tryRetireTeardown peer.key
    else fail .wrongState

/-! ## Keys -/

/-- The command that turns on replay checking for a queue. -/
def pnCheckParams : ReoCommandParams where
  needStatus := true
  update0 := updatePn ||| updatePnSize ||| updatePnValid ||| updatePnCheck ||| updateSvld
  update1 := valuePnCheck
  pnSize := 48

/-- TIDs 0 to 16. -/
def allTids : List UInt8 := (List.range 17).map UInt8.ofNat

/-- Turn on replay checking for these TIDs of a peer. -/
def configurePn (key : PeerKey) : List UInt8 → Rx Unit
  | [] => return ()
  | tid :: rest => do
    match (← look tids).find? (isFor key tid) with
    | none => fail .wrongState
    | some active => do
      let _ ← ReoController.sendReoCmd P .updateRxQueue active.tid pnCheckParams
      configurePn key rest

/-- Publish an installed key. -/
def publishKey (pairwise : Bool) (keyIndex : UInt8) (securityType : PeerSecurityType)
    (state : PeerSecurity) : PeerSecurity :=
  if pairwise then { state with unicastKeyIndex := keyIndex, unicastType := some securityType }
  else { state with multicastKeyIndex := keyIndex, multicastType := some securityType }

/-- Turn on replay checking for all TIDs of a peer, which must be active. -/
def enablePnCheck (key : PeerKey) : Rx Unit := do
  let s ← look fun s => s
  if ∀ tid ∈ allTids, s.isActive key tid then
    match ← (configurePn P key allTids).attempt with
    | .ok () => return ()
    | .error error => do
      -- a published prefix has already changed the replay state
      Eff.modify fun s => { s with uncertainSecurity := s.uncertainSecurity ++ [key] }
      fail error
  else fail .wrongState

def installPeerKey (key : PeerKey) (pairwise : Bool) (keyIndex : UInt8)
    (securityType : PeerSecurityType) : Rx Unit := do
  let s ← look fun s => s
  if ∀ peer ∈ s.security, peer.key ≠ key then fail .wrongState
  else if key ∈ s.uncertainSecurity ∨ key ∈ s.tearingDown then fail .wrongState
  else do
    -- group keys skip the replay offload
    if pairwise then enablePnCheck P key else pure ()
    Eff.modify fun s => { s with
      security := modifyFirst (fun peer => peer.key = key)
        (fun peer => { peer with state := publishKey pairwise keyIndex securityType peer.state })
        s.security }

def peerSecurity (s : PeerRxTids) (key : PeerKey) : Option PeerSecurity :=
  (s.security.find? fun peer => peer.key = key).map SecurityPeer.state

/-! ## Teardown -/

/-- Delete these TIDs of a peer and drop their fragments; the first
error. -/
def cleanupTids (key : PeerKey) : List UInt8 → Rx (Option DpError)
  | [] => return none
  | tid :: rest => do
    let result ← (peerRxTidDelete P key tid).attempt
    queueFragmentCleanup key (some tid)
    let later ← cleanupTids key rest
    match result with
    | .ok () => return later
    | .error error => return some error

def peerRxTidCleanup (key : PeerKey) : Rx Unit := do
  Eff.modify fun s => { s with
    tearingDown := if key ∈ s.tearingDown then s.tearingDown else s.tearingDown ++ [key]
    peers := s.peers.filter fun peer => peer ≠ key }
  let firstError ← cleanupTids P key allTids
  tryRetireTeardown key
  match firstError with
  | none => return ()
  | some error => fail error

end PeerRxTids

/-! ## Runs -/

open PeerRxTids

/-- The public operations, with what the outside hands in. -/
inductive Op where
  | registerPeerAfterFirmwareCreate (key : PeerKey)
  | registerPeerMap (map : PeerMap)
  | unregisterPeerMap (peerId : UInt16)
  | installPeerKey (key : PeerKey) (pairwise : Bool) (keyIndex : UInt8)
      (securityType : PeerSecurityType)
  | rxAmpduStart (nonVisible : Bool) (key : PeerKey) (tid : UInt8) (baWindowSize : UInt32)
      (startSequence : UInt16)
  | rxAmpduStop (nonVisible : Bool) (key : PeerKey) (tid : UInt8)
  | peerRxTidSetup (nonVisible : Bool) (key : PeerKey) (tid : UInt8) (baWindowSize : UInt32)
      (startSequence : UInt16)
  | peerRxTidDelete (key : PeerKey) (tid : UInt8)
  | peerRxTidCleanup (key : PeerKey)
  | peerFragsFlush (key : PeerKey)
  | takePendingFragmentLinkReturns (key : PeerKey)
  | rxFragHMpdu (input : FragmentInput) (nowMs : UInt64)
  | expireIncompleteFragments (nowMs : UInt64)
  | rxTidDelFunc (ring : StatusRing) (nowMs : UInt64)
  | flushAged (nowMs : UInt64)

namespace Op

abbrev Ret : Op → Type
  | takePendingFragmentLinkReturns .. | expireIncompleteFragments .. =>
    List FragmentLinkDescriptor
  | rxFragHMpdu .. => FragmentOutcome
  | rxTidDelFunc .. => List ReoStatus
  | _ => Unit

def exec (P : Platform) : (op : Op) → Rx op.Ret
  | registerPeerAfterFirmwareCreate key => PeerRxTids.registerPeerAfterFirmwareCreate key
  | registerPeerMap map => PeerRxTids.registerPeerMap map
  | unregisterPeerMap peerId => PeerRxTids.unregisterPeerMap peerId
  | installPeerKey key pairwise keyIndex securityType =>
    PeerRxTids.installPeerKey P key pairwise keyIndex securityType
  | rxAmpduStart nonVisible key tid baWindowSize startSequence =>
    PeerRxTids.rxAmpduStart P nonVisible key tid baWindowSize startSequence
  | rxAmpduStop nonVisible key tid => PeerRxTids.rxAmpduStop P nonVisible key tid
  | peerRxTidSetup nonVisible key tid baWindowSize startSequence =>
    PeerRxTids.peerRxTidSetup P nonVisible key tid baWindowSize startSequence
  | peerRxTidDelete key tid => PeerRxTids.peerRxTidDelete P key tid
  | peerRxTidCleanup key => PeerRxTids.peerRxTidCleanup P key
  | peerFragsFlush key => PeerRxTids.peerFragsFlush key
  | takePendingFragmentLinkReturns key => PeerRxTids.takePendingFragmentLinkReturns key
  | rxFragHMpdu input nowMs => PeerRxTids.rxFragHMpdu input nowMs
  | expireIncompleteFragments nowMs => PeerRxTids.expireIncompleteFragments nowMs
  | rxTidDelFunc ring nowMs => PeerRxTids.rxTidDelFunc P ring nowMs
  | flushAged nowMs => PeerRxTids.flushAged P nowMs

end Op

/-- One operation of a run: the states around it and its answer. -/
structure Step where
  before : PeerRxTids
  op : Op
  result : Except DpError op.Ret
  after : PeerRxTids

namespace PeerRxTids

/-- Any sequence of operations. -/
def run (P : Platform) (s : PeerRxTids) : List Op → List Step × PeerRxTids
  | [] => ([], s)
  | op :: rest =>
    let o := op.exec P s
    let (steps, last) := run P o.state rest
    (⟨s, op, o.result, o.state⟩ :: steps, last)

end PeerRxTids

end Drv.Ath11k
