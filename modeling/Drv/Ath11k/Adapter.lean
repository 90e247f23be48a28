import Drv.Ath11k.Keys

/-!
# Data frames of the client device

A started client device over a radio that reports no error. The radio
holds a data frame until it completes, whatever becomes of the
association meanwhile. Of `drive` this has what it does with completed
data frames; received frames, management frames and scans change neither
the association nor the frames that are held.
-/

namespace Drv.Ath11k.Adapter

open Eff (fail look ofExcept)
open Drv.Ath11k.Core (Address)

inductive Status where
  | badState | invalidArgs | notSupported

/-- A frame that the radio holds. -/
structure Pending where
  msduId : UInt32
  destination : Address

/-- Frames that the radio lets go: their ids, and whether they were acknowledged. -/
abbrev Releases := List (UInt32 × Bool)

/-- What is reported of a transmission. -/
structure TxResult where
  peerAddr : Address
  success : Bool

structure ClientDevice where
  mac : Address
  peer : Option Address
  associated : Bool
  linkUp : Bool
  pending : List Pending

abbrev Client := Eff ClientDevice TxResult Status

namespace ClientDevice

def joinBss (bssid : Option Address) (beaconPeriod : Option UInt16)
    (infrastructure remote : Bool) : Client Unit := do
  let c ← look fun c => c
  let peer ← ofExcept (bssid.elim (.error .invalidArgs) .ok)
  if beaconPeriod = none then fail .invalidArgs
  else if infrastructure = false ∨ remote = false then fail .notSupported
  else if c.peer ≠ none then fail .badState
  else Eff.modify fun c => { c with peer := some peer }

/-- The other fields of the configuration are checked with `rest`, which
says whether keys have to be negotiated. -/
def notifyAssociationComplete (bssid : Option Address) (rest : Except Status Bool) :
    Client Unit := do
  let c ← look fun c => c
  if c.associated then fail .badState
  else do
    let peer ← ofExcept (bssid.elim (.error .invalidArgs) .ok)
    if c.peer ≠ some peer then fail .badState
    else do
      let needPtk4Way ← ofExcept rest
      Eff.modify fun c => { c with associated := true, linkUp := !needPtk4Way }

def setLinkUp (up : Bool) : Client Unit := do
  let c ← look fun c => c
  if ¬ c.associated then fail .badState
  else if c.linkUp = up then return
  else if c.peer = none then fail .badState
  else Eff.modify fun c => { c with linkUp := up }

def clearAssociation (peerAddr : Option Address) : Client Unit := do
  let c ← look fun c => c
  if c.peer = none then fail .badState
  else if peerAddr ≠ c.peer then fail .invalidArgs
  else Eff.modify fun c => { c with peer := none, associated := false, linkUp := false }

/-- A data frame is sent; `msduId` is the id that the radio gives it. -/
def queueTx (bytes : List UInt8) (msduId : UInt32) : Client Unit := do
  let c ← look fun c => c
  if bytes.length < 24 then fail .invalidArgs
  else do
    let frameControl := (bytes.getD 0 0).toUInt16 ||| (bytes.getD 1 0).toUInt16 <<< 8
    if frameControl &&& 0x0003 ≠ 0 then fail .invalidArgs
    else if frameControl &&& 0x000c ≠ 0x0008 then return
    else do
      let peer ← ofExcept (c.peer.elim (.error .badState) .ok)
      let headerLen := if frameControl &&& 0x0080 ≠ 0 then 26 else 24
      if ¬ c.associated ∨ (bytes.drop 4).take 6 ≠ peer.toList ∨
          (bytes.drop 10).take 6 ≠ c.mac.toList then fail .badState
      else if frameControl &&& 0x8300 ≠ 0x0100 then fail .notSupported
      else if ¬ c.linkUp ∧ (bytes.drop headerLen).take 8 ≠ [0xaa, 0xaa, 3, 0, 0, 0, 0x88, 0x8e]
      then fail .badState
      else Eff.modify fun c => { c with pending := c.pending ++ [⟨msduId, peer⟩] }

/-- The frames that are held and released complete. -/
def serviceHostTxCompletions :
    Releases → List Pending → List (Pending × Bool) × List Pending
  | [], pending => ([], pending)
  | (msduId, acknowledged) :: rest, pending =>
    match pending.find? (·.msduId = msduId) with
    | none => serviceHostTxCompletions rest pending
    | some frame =>
      let (completed, left) := serviceHostTxCompletions rest (pending.eraseP (·.msduId = msduId))
      ((frame, acknowledged) :: completed, left)

/-- The completed frames are reported with the peer of the moment. -/
def reportTxResults : List (Pending × Bool) → Client Unit
  | [] => return
  | (_, acknowledged) :: rest => do
    match ← look (·.peer) with
    | none => fail .badState
    | some peer => do
      Eff.call ⟨peer, acknowledged⟩ fun c => (.ok (), c)
      reportTxResults rest

def drive (releases : Releases) : Client Unit := do
  let (completed, left) ← look fun c => serviceHostTxCompletions releases c.pending
  Eff.modify fun c => { c with pending := left }
  reportTxResults completed

inductive Op where
  | joinBss (bssid : Option Address) (beaconPeriod : Option UInt16) (infrastructure remote : Bool)
  | notifyAssociationComplete (bssid : Option Address) (rest : Except Status Bool)
  | setLinkUp (up : Bool)
  | clearAssociation (peerAddr : Option Address)
  | queueTx (bytes : List UInt8) (msduId : UInt32)
  | drive (releases : Releases)

def exec : Op → Client Unit
  | .joinBss bssid beaconPeriod infrastructure remote =>
    joinBss bssid beaconPeriod infrastructure remote
  | .notifyAssociationComplete bssid rest => notifyAssociationComplete bssid rest
  | .setLinkUp up => setLinkUp up
  | .clearAssociation peerAddr => clearAssociation peerAddr
  | .queueTx bytes msduId => queueTx bytes msduId
  | .drive releases => drive releases

end ClientDevice

end Drv.Ath11k.Adapter
