import Drv.Ath11k.State

/-!
# The life of a reorder queue

A queue is set up in DMA memory and published to the firmware; when it is
deleted, an invalidate command takes it out of use, its status moves it to
a cache, and once it has aged there its lines are flushed and the status
of the base flush releases the memory. Commands share one ring and are
told apart by a number of 16 bits.
-/

namespace Drv.Ath11k

open Eff (fail look)

variable (P : Platform)

/-! ## The command ring -/

/-- The number after this one: it wraps, and skips 0. -/
def bump (number : UInt16) : UInt16 := max (number + 1) 1

namespace ReoTid

/-- The length of the descriptor that `ReoQueueDescriptor::new` writes. -/
def descriptorLength (tid : UInt8) (baWindowSize : UInt32) : Nat :=
  if tid = 16 then
    128 * (if baWindowSize ≤ 1 then 1 else if baWindowSize ≤ 105 then 2
      else if baWindowSize ≤ 210 then 3 else 4)
  else 512

/-- Allocate and write a descriptor; its owner is dropped on failure. -/
def setup (tid : UInt8) (baWindowSize : UInt32) : Rx ReoTid := do
  let dma ← look fun s => s.trace.length
  if ← ask P.allocate .allocate then do
    let owned : ReoTid := ⟨tid, baWindowSize, descriptorLength tid baWindowSize, dma⟩
    if ← ask (P.write · dma) (.write dma) then
      if ← ask (P.syncForDevice · dma) (.syncForDevice dma) then return owned
      else do
        drop owned
        fail .deviceFault
    else do
      drop owned
      fail .deviceFault
  else fail .noResources

end ReoTid

namespace ReoController

def sendAt (kind : ReoCommandKind) (tid : ReoTid) (offset : Nat) (params : ReoCommandParams) :
    Rx UInt16 := do
  let commandNumber ← look PeerRxTids.nextCommandNumber
  Eff.modify fun s => { s with nextCommandNumber := bump s.nextCommandNumber }
  if ← ask (P.deviceAddress · tid.dma offset) (.deviceAddressAt tid.dma offset) then do
    let command : ReoCommand := ⟨commandNumber, kind, tid.dma, offset, params⟩
    match ← ask (P.publish · command) (.publish command) with
    | none => return commandNumber
    | some e => fail (mapHal e)
  else fail .deviceFault

def sendReoCmd (kind : ReoCommandKind) (tid : ReoTid) (params : ReoCommandParams) : Rx UInt16 :=
  sendAt P kind tid 0 params

end ReoController

open ReoController (sendAt sendReoCmd)

variable (nonVisible : Bool)

variable (key : PeerKey)

/-- Publish a queue to the firmware. -/
def sendReorderSetup (tid : ReoTid) (baWindowSize : UInt32) : Rx Unit := do
  if ← ask (P.deviceAddress · tid.dma 0) (.deviceAddress tid.dma) then do
    let request : PeerReorderQueueSetup := ⟨key, tid.tid, tid.dma, 1, baWindowSize⟩
    match ← ask (P.sendReorderSetup · request) (.sendReorderSetup request nonVisible) with
    | none => return ()
    | some e => fail e
  else fail .deviceFault

namespace PeerRxTids

/-! ## Setup -/

variable (tid : UInt8)

def isFor (entry : ActiveTid) : Bool := entry.key = key ∧ entry.tid.tid = tid

def isPendingFor (entry : PendingTid) : Bool := entry.key = key ∧ entry.tid.tid = tid

def isActive (s : PeerRxTids) (key : PeerKey) (tid : UInt8) : Bool := s.tids.any (isFor key tid)

variable (baWindowSize : UInt32)

/-- Note the new window of an active queue. -/
def setBaWindowSize : List ActiveTid → List ActiveTid :=
  modifyFirst (isFor key tid)
    fun active => { active with tid := { active.tid with baWindowSize := baWindowSize } }

/-- Change the window of an active queue, and publish the queue again. -/
def updateActive (active : ActiveTid) (baWindowSize : UInt32) (params : ReoCommandParams) :
    Rx Unit := do
  let _ ← sendReoCmd P .updateRxQueue active.tid params
  Eff.modify fun s => { s with tids := setBaWindowSize key active.tid.tid baWindowSize s.tids }
  sendReorderSetup P nonVisible key active.tid baWindowSize

/-- A queue for a peer and TID that has none. -/
def createQueue : Rx Unit := do
  let newTid ← ReoTid.setup P tid baWindowSize
  match ← (sendReorderSetup P nonVisible key newTid baWindowSize).attempt with
  | .error error =>
    if nonVisible then do
      drop newTid
      fail error
    else do
      -- the failed command may contain the address
      Eff.modify fun s => { s with uncertainSetup := s.uncertainSetup ++ [⟨key, newTid⟩] }
      fail error
  | .ok () => Eff.modify fun s => { s with tids := s.tids ++ [⟨key, newTid⟩] }

/-- The command that moves an active queue to a window and sequence. -/
def startParams (startSequence : UInt16) : ReoCommandParams where
  needStatus := true
  update0 := updateBaWindowSize ||| updateStartSequence
  update2 := startSequence.toUInt32 <<< startSequenceShift
  baWindowSize := baWindowSize.toUInt16

/-- The command that ends aggregation on an active queue. -/
def stopParams : ReoCommandParams where
  needStatus := true
  update0 := updateBaWindowSize
  baWindowSize := 1

def peerRxTidSetup (startSequence : UInt16) : Rx Unit := do
  let s ← look fun s => s
  if 16 < tid then fail .wrongState
  else if key ∉ s.peers ∨ key ∈ s.tearingDown then fail .wrongState
  else if (s.uncertainSetup ++ s.failedDelete).any (isFor key tid) then fail .wrongState
  else if s.pendingDelete.any (isPendingFor key tid) then fail .wrongState
  else
    match s.tids.find? (isFor key tid) with
    | some active =>
      if 2 ^ 16 ≤ baWindowSize.toNat then fail .wrongState
      else
        updateActive P nonVisible key active baWindowSize (startParams baWindowSize startSequence)
    | none => createQueue P nonVisible key tid baWindowSize

def rxAmpduStart (startSequence : UInt16) : Rx Unit := do
  let s ← look fun s => s
  if 16 ≤ tid ∨ key ∉ s.peers ∨ key ∈ s.tearingDown then fail .wrongState
  else peerRxTidSetup P nonVisible key tid baWindowSize startSequence

def rxAmpduStop : Rx Unit := do
  let s ← look fun s => s
  if 16 ≤ tid ∨ key ∉ s.peers ∨ key ∈ s.tearingDown then fail .wrongState
  else
    match s.tids.find? (isFor key tid) with
    | none => return ()
    | some active => updateActive P nonVisible key active 1 stopParams

/-! ## Delete -/

/-- The command that takes a queue out of use. -/
def deleteParams : ReoCommandParams where
  needStatus := true
  update0 := updateValid

/-- Take an active queue out and invalidate it; its memory is kept until
the status. -/
def peerRxTidDelete : Rx Unit := do
  match extract (isFor key tid) (← look tids) with
  | none => return ()
  | some (active, tids) => do
    Eff.modify fun s => { s with tids := tids }
    match ← (sendReoCmd P .updateRxQueue active.tid deleteParams).attempt with
    | .ok commandNumber =>
      Eff.modify fun s => { s with
        pendingDelete := s.pendingDelete ++ [⟨commandNumber, key, active.tid⟩] }
    | .error error => do
      Eff.modify fun s => { s with failedDelete := s.failedDelete ++ [⟨key, active.tid⟩] }
      fail error

/-! ## The end of a teardown -/

/-- Whether anything of a peer is left. -/
def Blocked (s : PeerRxTids) (key : PeerKey) : Prop :=
  (∃ entry ∈ s.tids, entry.key = key) ∨
  (∃ entry ∈ s.pendingDelete ++ s.pendingFlush, entry.key = key) ∨
  (∃ entry ∈ s.cachedDelete, entry.key = key) ∨
  (∃ entry ∈ s.uncertainSetup ++ s.failedDelete, entry.key = key) ∨
  (∃ entry ∈ s.fragments, entry.key = key) ∨
  (∃ entry ∈ s.pendingFragmentLinks, entry.key = key) ∨
  ∃ peer ∈ s.security, peer.key = key ∧ peer.state.peerId ≠ none

instance (s : PeerRxTids) (key : PeerKey) : Decidable (s.Blocked key) :=
  inferInstanceAs (Decidable (_ ∨ _))

/-- The teardown of a peer ends when nothing of it is left. -/
def retire (s : PeerRxTids) : PeerRxTids :=
  if s.Blocked key then s
  else { s with tearingDown := s.tearingDown.filter fun teardown => teardown ≠ key }

def tryRetireTeardown : Rx Unit := Eff.modify (retire key)

/-! ## Statuses and flushes -/

/-- Hand a status to the command it answers, found by its number. -/
def applyStatus (status : ReoStatus) (nowMs : UInt64) : Rx Unit := do
  let s ← look fun s => s
  match extract (fun pending => pending.commandNumber = status.commandNumber) s.pendingDelete with
  | some (pending, pendingDelete) =>
    if status.executionStatus = 0 then
      Eff.modify fun s => { s with
        pendingDelete := pendingDelete
        cachedDelete := s.cachedDelete ++ [⟨nowMs, pending.key, pending.tid⟩] }
    else
      Eff.modify fun s => { s with
        pendingDelete := pendingDelete
        failedDelete := s.failedDelete ++ [⟨pending.key, pending.tid⟩] }
  | none =>
    match extract (fun pending => pending.commandNumber = status.commandNumber) s.pendingFlush with
    | some (pending, pendingFlush) => do
      Eff.modify fun s => { s with pendingFlush := pendingFlush }
      -- success and failure both release the owner
      drop pending.tid
      tryRetireTeardown pending.key
    | none => return ()

/-- Flush the lines of a descriptor after its first, from the last one
down; `lines` are left. -/
def flushExtensions (tid : ReoTid) : Nat → Rx Unit
  | 0 => return ()
  | lines + 1 => do
    let _ ← (sendAt P .flushCache tid ((lines + 1) * 128) {}).attempt
    flushExtensions tid lines

/-- The command that ends the flush of a descriptor. -/
def baseFlushParams : ReoCommandParams where
  needStatus := true

def flushOne (cached : CachedTid) : Rx Unit := do
  -- the offsets below the size, in steps of 128, down to the first line
  flushExtensions P cached.tid (cached.tid.size / 128 - 1)
  match ← (sendAt P .flushCache cached.tid 0 baseFlushParams).attempt with
  | .ok commandNumber =>
    Eff.modify fun s => { s with
      pendingFlush := s.pendingFlush ++ [⟨commandNumber, cached.key, cached.tid⟩] }
  | .error error => do
    drop cached.tid
    fail error

/-- Whether a cached queue has to be flushed now. -/
def isDue (cachedDelete : List CachedTid) (cached : CachedTid) (nowMs : UInt64) : Prop :=
  reoDescriptorFreeThreshold < cachedDelete.length ∨
    reoDescriptorFreeTimeoutMs.toNat < nowMs.toNat - cached.queuedAtMs.toNat

instance (cachedDelete : List CachedTid) (cached : CachedTid) (nowMs : UInt64) :
    Decidable (isDue cachedDelete cached nowMs) :=
  inferInstanceAs (Decidable (_ ∨ _))

/-- The loop over the cache; each turn leaves fewer entries from its index
on. -/
def flushAgedFrom (nowMs : UInt64) : Nat → Nat → Rx Unit
  | 0, _ => return ()
  | fuel + 1, index => do
    let cachedDelete ← look PeerRxTids.cachedDelete
    match cachedDelete[index]? with
    | none => return ()
    | some cached =>
      if isDue cachedDelete cached nowMs then do
        Eff.modify fun s => { s with cachedDelete := swapRemove s.cachedDelete index }
        match ← (flushOne P cached).attempt with
        | .ok () => flushAgedFrom nowMs fuel index
        | .error error => do
          tryRetireTeardown cached.key
          fail error
      else flushAgedFrom nowMs fuel (index + 1)

def flushAged (nowMs : UInt64) : Rx Unit := do
  let entries ← look fun s => s.cachedDelete.length
  flushAgedFrom P nowMs entries 0

/-- What the status ring yields in one call: descriptors, decoded or not,
and then nothing or an error. -/
structure StatusRing where
  descriptors : List (Except HalError ReoStatus)
  fault : Option HalError

/-- Consume the ring; the statuses that were applied. -/
def consumeStatuses (nowMs : UInt64) (fault : Option HalError) :
    List (Except HalError ReoStatus) → Rx (List ReoStatus)
  | [] =>
    match fault with
    | none => return []
    | some e => fail (mapHal e)
  | .error e :: _ => fail (mapHal e)
  | .ok status :: rest => do
    log (.consume status)
    applyStatus status nowMs
    return status :: (← consumeStatuses nowMs fault rest)

def rxTidDelFunc (ring : StatusRing) (nowMs : UInt64) : Rx (List ReoStatus) := do
  let statuses ← consumeStatuses nowMs ring.fault ring.descriptors
  flushAged P nowMs
  return statuses

end PeerRxTids

end Drv.Ath11k
