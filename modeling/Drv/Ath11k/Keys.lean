import Drv.Base.Effect

/-!
# Peers and keys of the core device

The device keeps a list of the keys it has installed, so that installing
one again is answered without a command: a handshake message that is
sent twice must not reset the replay counter. Every command goes to the
subsystems, which may fail it.
-/

namespace Drv.Ath11k.Core

open Eff (fail look)

abbrev VdevId := UInt8

abbrev Address := Vector UInt8 6

inductive Cipher where
  | ccmp128 | ccmp256 | tkip | gcmp128 | gcmp256 | bipCmac128 | bipGmac128 | bipGmac256
  deriving DecidableEq

inductive KeyKind where
  | pairwise | group | integrityGroup
  deriving DecidableEq

inductive KeyProtection where
  | rx | tx | rxTx
  deriving DecidableEq

structure KeyConfig where
  vdev : VdevId
  peer : Address
  index : UInt8
  cipher : Cipher
  kind : KeyKind
  protection : KeyProtection
  receiveSequenceCounter : UInt64
  bytes : List UInt8
  deriving DecidableEq

inductive Operation where
  | dpPeerSetup (vdev : VdevId) (address : Address)
  | dpPeerCleanup (vdev : VdevId) (address : Address)
  | dpInstallPeerKey (key : KeyConfig)
  | wmiVdevDelete (vdev : VdevId)
  | waitVdevDeleted (vdev : VdevId)
  | wmiPeerCreate (vdev : VdevId) (address : Address)
  | waitPeerCreated (vdev : VdevId) (address : Address)
  | wmiPeerDelete (vdev : VdevId) (address : Address)
  | waitPeerDeleted (vdev : VdevId) (address : Address)
  | wmiInstallKey (key : KeyConfig)
  | waitKeyInstalled (vdev : VdevId) (keyIndex : UInt8)

/-- What the modelled functions fail with; `other` is any further error of
the subsystems. -/
inductive CoreError where
  | wrongState | protocol | protocolAt (operation : Operation) | deviceFault
  | deviceFaultAt (operation : Operation) | noResources | notFound | other

/-- The subsystems: a state, and what a command does to it. -/
structure Subsystems (β : Type) where
  execute : Operation → β → Except CoreError Unit × β

structure Device (β : Type) where
  backend : β
  vdevs : List VdevId
  peers : List (VdevId × Address)
  installedKeys : List KeyConfig
  uncertainKeyPeers : List (VdevId × Address)

abbrev Dev (β : Type) := Eff (Device β) Operation CoreError

/-- `params().num_peers`. -/
def numPeers : Nat := 512

namespace Device

variable {β : Type} (B : Subsystems β)

/-- A command; a fault names it. -/
def op (operation : Operation) : Dev β Unit :=
  Eff.mapError
    (fun
      | .deviceFault => .deviceFaultAt operation
      | .protocol => .protocolAt operation
      | error => error)
    (Eff.call operation fun d =>
      ((B.execute operation d.backend).1, { d with backend := (B.execute operation d.backend).2 }))

def createPeer (vdev : VdevId) (address : Address) : Dev β Unit := do
  let d ← look fun d => d
  if vdev ∉ d.vdevs then fail .wrongState
  else if numPeers ≤ d.peers.length then fail .noResources
  else if (vdev, address) ∈ d.peers then fail .protocol
  else do
    op B (.wmiPeerCreate vdev address)
    op B (.waitPeerCreated vdev address)
    match ← (op B (.dpPeerSetup vdev address)).attempt with
    | .error error => do
      let _ ← (op B (.dpPeerCleanup vdev address)).attempt
      let _ ← (op B (.wmiPeerDelete vdev address)).attempt
      let _ ← (op B (.waitPeerDeleted vdev address)).attempt
      fail error
    | .ok _ => Eff.modify fun d => { d with peers := d.peers ++ [(vdev, address)] }

def deletePeer (vdev : VdevId) (address : Address) : Dev β Unit := do
  let d ← look fun d => d
  if (vdev, address) ∉ d.peers then fail .notFound
  else do
    let cleanup ← (op B (.dpPeerCleanup vdev address)).attempt
    op B (.wmiPeerDelete vdev address)
    op B (.waitPeerDeleted vdev address)
    Eff.ofExcept cleanup
    Eff.modify fun d => { d with
      peers := d.peers.erase (vdev, address)
      installedKeys := d.installedKeys.filter fun key => key.vdev ≠ vdev ∨ key.peer ≠ address
      uncertainKeyPeers := d.uncertainKeyPeers.filter (· ≠ (vdev, address)) }

def deleteVdev (vdev : VdevId) : Dev β Unit := do
  let d ← look fun d => d
  if vdev ∉ d.vdevs then fail .notFound
  else do
    op B (.wmiVdevDelete vdev)
    op B (.waitVdevDeleted vdev)
    Eff.modify fun d => { d with
      vdevs := d.vdevs.erase vdev
      peers := d.peers.filter (·.1 ≠ vdev)
      installedKeys := d.installedKeys.filter (·.vdev ≠ vdev)
      uncertainKeyPeers := d.uncertainKeyPeers.filter (·.1 ≠ vdev) }

/-- The length of a key, for the ciphers that have one here. -/
def expectedLen : Cipher → Option Nat
  | .ccmp128 | .gcmp128 => some 16
  | .ccmp256 | .gcmp256 | .tkip => some 32
  | _ => none

/-- Whether a key is one that can be installed. -/
def validKey (key : KeyConfig) : Prop :=
  key.protection = .rxTx ∧ key.index ≤ 3 ∧ expectedLen key.cipher = some key.bytes.length ∧
    key.receiveSequenceCounter ≤ 0x0000ffffffffffff

instance (key : KeyConfig) : Decidable (validKey key) := inferInstanceAs (Decidable (_ ∧ _))

/-- A step after which the key may be installed or not. -/
def uncertainOp (key : KeyConfig) (operation : Operation) : Dev β Unit := do
  match ← (op B operation).attempt with
  | .ok _ => return
  | .error error => do
    Eff.modify fun d =>
      { d with uncertainKeyPeers := d.uncertainKeyPeers ++ [(key.vdev, key.peer)] }
    fail error

def installKey (key : KeyConfig) : Dev β Unit := do
  let d ← look fun d => d
  if key.vdev ∉ d.vdevs ∨ (key.vdev, key.peer) ∉ d.peers then fail .notFound
  else if (key.vdev, key.peer) ∈ d.uncertainKeyPeers then fail .wrongState
  else if key ∈ d.installedKeys then return
  else if ¬ validKey key then fail .protocol
  else do
    op B (.wmiInstallKey key)
    uncertainOp B key (.waitKeyInstalled key.vdev key.index)
    uncertainOp B key (.dpInstallPeerKey key)
    Eff.modify fun d => { d with
      installedKeys := d.installedKeys.filter
        (fun installed => ¬ (installed.vdev = key.vdev ∧ installed.kind = key.kind)) ++ [key] }

end Device

/-! ## Runs -/

variable {β : Type}

/-- What is done to a device. The operations on peers and keys are the ones
above. Of the rest, `unrelated` leaves any subsystems and any vdevs, and
`restarted` is a stop or a recovery, after which there are none. -/
inductive Op (β : Type) where
  | unrelated (backend : β) (vdevs : List VdevId)
  | restarted (backend : β)
  | createPeer (vdev : VdevId) (address : Address)
  | deletePeer (vdev : VdevId) (address : Address)
  | deleteVdev (vdev : VdevId)
  | installKey (key : KeyConfig)

def Op.exec (B : Subsystems β) : Op β → Dev β Unit
  | .unrelated backend vdevs => Eff.modify fun d => { d with backend, vdevs }
  | .restarted backend => Eff.modify fun _ => ⟨backend, [], [], [], []⟩
  | .createPeer vdev address => Device.createPeer B vdev address
  | .deletePeer vdev address => Device.deletePeer B vdev address
  | .deleteVdev vdev => Device.deleteVdev B vdev
  | .installKey key => Device.installKey B key

/-- A device, and what has gone well on it, the last operation first. -/
structure Session (β : Type) where
  device : Device β
  done : List (Op β)

def Session.run (B : Subsystems β) (s : Session β) : List (Op β) → Session β
  | [] => s
  | op :: rest =>
    let o := op.exec B s.device
    run B ⟨o.state, if o.result.isOk then op :: s.done else s.done⟩ rest

end Drv.Ath11k.Core
