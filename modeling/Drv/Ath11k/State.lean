import Mathlib.Algebra.GroupWithZero.Nat
import Mathlib.Data.FinEnum
import Drv.Base.Effect
import Drv.Base.Vec

/-!
# State of the receive reorder queues

`PeerRxTids` as the crate has it: the reorder queues of every peer, in one
list for each stage of their life, the fragments being reassembled, the
registered peers and their keys. The command counter of the
`ReoController` that drives it is part of the state.

What the rings, the firmware transport and the DMA pool answer comes from
a `Platform` that sees everything so far; each answer is logged in the
trace. A queue descriptor in DMA memory is named by the place in the trace
at which it was allocated, so a name is never used twice.
-/

namespace Drv.Ath11k

/-! ## Constants -/

def reoDescriptorFreeThreshold : Nat := 64
def reoDescriptorFreeTimeoutMs : UInt64 := 1000
def updateValid : UInt32 := (1 : UInt32) <<< 9
def updateBaWindowSize : UInt32 := (1 : UInt32) <<< 18
def updateStartSequence : UInt32 := (1 : UInt32) <<< 26
def startSequenceShift : UInt32 := 11
def rxFragmentTimeoutMs : UInt64 := 2000
def updatePnCheck : UInt32 := (1 : UInt32) <<< 19
def updatePnSize : UInt32 := (1 : UInt32) <<< 23
def updateSvld : UInt32 := (1 : UInt32) <<< 25
def updatePnValid : UInt32 := (1 : UInt32) <<< 29
def updatePn : UInt32 := (1 : UInt32) <<< 30
def valuePnCheck : UInt32 := (1 : UInt32) <<< 27

/-! ## Errors, commands and statuses -/

inductive DpError where
  | wmi | malformedDescriptor | invalidFrame | unsupportedDescriptor | noResources | deviceFault
  | wrongState
  deriving DecidableEq

inductive HalError where
  | wrongDescriptorLength | noResources | deviceFault | unsupported
  deriving DecidableEq

def mapHal : HalError → DpError
  | .wrongDescriptorLength => .malformedDescriptor
  | .noResources => .noResources
  | .deviceFault => .deviceFault
  | .unsupported => .unsupportedDescriptor

/-- The commands that the coordinator sends. -/
inductive ReoCommandKind where
  | updateRxQueue | flushCache
  deriving DecidableEq

/-- The parameters of a command that any caller sets. -/
structure ReoCommandParams where
  needStatus : Bool := false
  update0 : UInt32 := 0
  update1 : UInt32 := 0
  update2 : UInt32 := 0
  baWindowSize : UInt16 := 0
  pnSize : UInt8 := 0
  deriving DecidableEq

/-- A command on the ring. `segment` and `offset` stand for the device
address. -/
structure ReoCommand where
  commandNumber : UInt16
  kind : ReoCommandKind
  segment : Nat
  offset : Nat
  params : ReoCommandParams
  deriving DecidableEq

/-- The command that takes the queue at its address out of use. -/
def ReoCommand.Invalidates (c : ReoCommand) : Prop :=
  c.kind = .updateRxQueue ∧ c.params.update0 &&& updateValid ≠ 0

instance (c : ReoCommand) : Decidable c.Invalidates := inferInstanceAs (Decidable (_ ∧ _))

/-- A status as the ring delivers it. `answers` is the place in the trace
of the command that the device answers with it; the code does not see
it. -/
structure ReoStatus where
  commandNumber : UInt16
  executionStatus : UInt8
  answers : Nat
  deriving DecidableEq

structure PeerKey where
  vdevId : UInt32
  peerAddr : Vector UInt8 6
  deriving DecidableEq

/-- The firmware command that publishes a queue. `queueAddress` names the
descriptor whose address is sent. -/
structure PeerReorderQueueSetup where
  key : PeerKey
  tid : UInt8
  queueAddress : Nat
  baWindowSizeValid : UInt8
  baWindowSize : UInt32
  deriving DecidableEq

/-! ## The trace -/

/-- What the coordinator did outside its own lists, with the answer. -/
inductive Event where
  | allocate (ok : Bool)
  | write (segment : Nat) (ok : Bool)
  | syncForDevice (segment : Nat) (ok : Bool)
  | deviceAddress (segment : Nat) (ok : Bool)
  | deviceAddressAt (segment offset : Nat) (ok : Bool)
  | publish (command : ReoCommand) (error : Option HalError)
  /-- `nonVisible` is the transport's promise about its errors. -/
  | sendReorderSetup (request : PeerReorderQueueSetup) (nonVisible : Bool) (error : Option DpError)
  | consume (status : ReoStatus)
  | drop (segment : Nat)
  deriving DecidableEq

abbrev Trace := List Event

/-- The pool, the rings and the transport. -/
structure Platform where
  allocate : Trace → Bool
  write : Trace → Nat → Bool
  syncForDevice : Trace → Nat → Bool
  deviceAddress : Trace → Nat → Nat → Bool
  publish : Trace → ReoCommand → Option HalError
  sendReorderSetup : Trace → PeerReorderQueueSetup → Option DpError

/-! ## Reorder queues -/

/-- A queue descriptor that one peer and TID owns. -/
structure ReoTid where
  tid : UInt8
  baWindowSize : UInt32
  size : Nat
  dma : Nat
  deriving DecidableEq

structure PendingTid where
  commandNumber : UInt16
  key : PeerKey
  tid : ReoTid
  deriving DecidableEq

structure CachedTid where
  queuedAtMs : UInt64
  key : PeerKey
  tid : ReoTid

structure ActiveTid where
  key : PeerKey
  tid : ReoTid
  deriving DecidableEq

/-! ## Fragments -/

structure FragmentLinkDescriptor where
  address : UInt64

inductive FragmentEncryption where
  | wep40 | wep104 | tkipNoMic | wep128 | tkipMic | wapi | ccmp128 | «open» | ccmp256 | gcmp128
  | aesGcmp256 | wapiGcmSm4
  deriving DecidableEq

structure StoredFragment where
  number : UInt8
  encryption : FragmentEncryption
  decrypted : Bool
  packetNumber : Option UInt64
  bytes : List UInt8

structure FragmentPart where
  fragmentNumber : UInt8
  encryption : FragmentEncryption
  decrypted : Bool
  packetNumber : Option UInt64
  bytes : List UInt8

structure FragmentState where
  key : PeerKey
  tid : UInt8
  currentSequence : UInt16
  lastFragment : UInt8
  bitmap : BitVec 16
  frames : List StoredFragment
  firstLink : Option FragmentLinkDescriptor
  deadlineMs : UInt64
  timerArmed : Bool

structure PendingFragmentLink where
  key : PeerKey
  link : FragmentLinkDescriptor

/-! ## Peers and their keys -/

inductive PeerSecurityType where
  | tkipMic | ccmp128 | ccmp256 | gcmp128 | gcmp256
  deriving DecidableEq

structure PeerSecurity where
  peerId : Option UInt16
  unicastKeyIndex : UInt8
  multicastKeyIndex : UInt8
  unicastType : Option PeerSecurityType
  multicastType : Option PeerSecurityType
  deriving DecidableEq

structure SecurityPeer where
  key : PeerKey
  state : PeerSecurity
  deriving DecidableEq

/-! ## The coordinator -/

structure PeerRxTids where
  tids : List ActiveTid
  pendingDelete : List PendingTid
  cachedDelete : List CachedTid
  pendingFlush : List PendingTid
  uncertainSetup : List ActiveTid
  failedDelete : List ActiveTid
  tearingDown : List PeerKey
  fragments : List FragmentState
  pendingFragmentLinks : List PendingFragmentLink
  peers : List PeerKey
  security : List SecurityPeer
  uncertainSecurity : List PeerKey
  /-- The counter of the controller that drives it. -/
  nextCommandNumber : UInt16
  trace : Trace

def PeerRxTids.new : PeerRxTids where
  tids := []
  pendingDelete := []
  cachedDelete := []
  pendingFlush := []
  uncertainSetup := []
  failedDelete := []
  tearingDown := []
  fragments := []
  pendingFragmentLinks := []
  peers := []
  security := []
  uncertainSecurity := []
  nextCommandNumber := 1
  trace := []

abbrev Rx (α : Type) := Eff PeerRxTids Empty DpError α

/-- Log what an answer was. -/
def log (e : Event) : Rx Unit := Eff.modify fun s => { s with trace := s.trace ++ [e] }

/-- Ask the platform, and log the answer. -/
def ask {α : Type} (question : Trace → α) (event : α → Event) : Rx α := do
  let answer ← Eff.look fun s => question s.trace
  log (event answer)
  return answer

/-- A value that owns a descriptor goes out of scope. -/
def drop (tid : ReoTid) : Rx Unit := log (.drop tid.dma)

end Drv.Ath11k
