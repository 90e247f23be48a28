import Drv.Mt7921.Commands

/-!
# Client transmission

Frames wait in a queue of the host; one at a time is published through a
descriptor, its transmit words and a frame buffer that are all shared
with the device. A frame that is not data needs the firmware to stay on
its channel, which is requested, granted for a time, and released.
-/

namespace Drv.Mt7921

open Eff (fail)
open Drv.Softmac

/-! ## State -/

structure CandidateChannel where
  band : PhysicalBand
  number : UInt16
  frequencyMhz : UInt16
  deriving DecidableEq

structure QueuedFrame where
  context : OperationContext
  bytes : Bytes
  controlPort : Bool
  data : Bool
  tid : UInt8
  rate : UInt8
  channel : CandidateChannel

structure PublishedFrame where
  frame : QueuedFrame
  slot : UInt16
  next : UInt16
  token : UInt16
  pid : UInt8
  deadline : Nat
  descriptorDone : Bool
  freed : Bool
  status : Option Bool

inductive RocPhase where
  | acquiring (commands : FirmwareCommands) (deadline : Nat) (grant : Option Nat)
  | granted (ends : Nat)
  | releasing (commands : FirmwareCommands)

structure Roc where
  token : UInt8
  channel : CandidateChannel
  context : OperationContext
  phase : RocPhase

/-- `retiredPids` lists the packet identifiers whose flag is set. -/
structure ClientTx where
  queue : List QueuedFrame
  pending : Option PublishedFrame
  producer : UInt16
  nextToken : UInt16
  nextPid : UInt8
  retiredPids : List UInt8
  failed : Bool
  roc : Option Roc
  nextRocToken : UInt8

/-- What the firmware tells of a request to stay on a channel. -/
structure ClientJoinRocGrant where
  bssIndex : UInt8
  token : UInt8
  status : UInt8
  primaryChannel : UInt8
  band : UInt8
  bandwidth : UInt8
  centerChannel : UInt8
  requestType : UInt8
  maxIntervalMs : UInt32

def txCapacity : Nat := 16
def mt7921Band0TxRingCount : Nat := 2048

/-- Consumer and producer index of the transmit ring. -/
def managementTxDidx : Nat := 0xd430c
def managementTxCidx : Nat := 0xd4308

def ofdmRates : List UInt8 := [12, 18, 24, 36, 48, 72, 96, 108]

namespace ClientTx

protected def default : ClientTx where
  queue := []
  pending := none
  producer := 0
  nextToken := 0
  nextPid := 3
  retiredPids := []
  failed := false
  roc := none
  nextRocToken := 1

/-! ## Admission -/

/-- Which data and management frames are sent. -/
def supported (bytes : Bytes) (data controlPort : Bool) (header : Nat) : Bool :=
  if data then
    ¬ (byteAt bytes 1 &&& ~~~ (0x08 ||| 0x40) ≠ 1 ∨
      (!controlPort ∧ byteAt bytes 1 &&& 0x40 = 0) ∨ (controlPort ∧ byteAt bytes 1 &&& 0x40 ≠ 0) ∨
      bytes.length < header + 8 ∨ (header = 26 ∧ halfAt bytes 24 > 7))
  else
    ¬ (byteAt bytes 0 ∉ [0x00, 0xb0, 0xa0, 0xc0, 0xd0] ∨
      byteAt bytes 1 &&& ~~~ (0x08 ||| 0x40) ≠ 0 ∨
      (byteAt bytes 1 &&& 0x40 ≠ 0 ∧ byteAt bytes 0 ∉ [0xa0, 0xc0, 0xd0]))

variable (tx : ClientTx)

/-- The checks of `enqueue` after the context, and the frame it queues. -/
def accept (context : OperationContext) (bytes : Bytes) (rate : UInt8)
    (channel : CandidateChannel) : Except Status QueuedFrame :=
  if tx.failed then .error .badState
  else if tx.roc.any (·.channel ≠ channel) ∨ tx.queue.head?.any (·.channel ≠ channel) then
    .error .badState
  else if tx.queue.length + tx.pending.toList.length = txCapacity then .error .noResources
  else if ¬ (26 ≤ bytes.length ∧ bytes.length ≤ 4095) ∨ byteAt bytes 4 &&& 1 ≠ 0 ∨
      byteAt bytes 22 &&& 0xf ≠ 0 ∨ rate ∉ ofdmRates then .error .notSupported
  else
    let data : Bool := byteAt bytes 0 ∈ [0x08, 0x88]
    let header := if byteAt bytes 0 = 0x88 then 26 else 24
    let controlPort : Bool :=
      data ∧ slice bytes header (header + 8) = some [0xaa, 0xaa, 3, 0, 0, 0, 0x88, 0x8e]
    if !supported bytes data controlPort header then .error .notSupported
    else if byteAt bytes 0 = 0xb0 ∧ bytes.length < 30 ∨ byteAt bytes 0 = 0 ∧ bytes.length < 28 then
      .error .invalidArgs
    else
      let tid := if data ∧ header = 26 then byteAt bytes 24 &&& 7 else if controlPort then 7 else 0
      match if data ∧ !controlPort then clientDataMpduToEthernet bytes else some bytes with
      | none => .error .invalidArgs
      | some bytes => .ok ⟨context, bytes, controlPort, data, tid, rate, channel⟩

/-! ## Events from the firmware -/

def txFree (free : Mt7921TxFree) : Except Status Unit × ClientTx :=
  match tx.pending with
  | none => (.ok (), tx)
  | some pending =>
    if free.token ≠ pending.token then (.ok (), tx)
    else if free.wcid.any (· ≠ 1) ∨ pending.freed then
      (.error .ioDataIntegrity, { tx with failed := true })
    else (.ok (), { tx with pending := some { pending with freed := true } })

def txStatus (status : Mt7921TxStatus) : Except Status Unit × ClientTx :=
  match tx.pending with
  | none => (.ok (), tx)
  | some pending =>
    if pending.pid = mt7921PacketIdNoSkb ∨ status.pid ≠ pending.pid ∨ status.wcid ≠ 1 then
      (.ok (), tx)
    else if pending.status.isSome then (.error .ioDataIntegrity, { tx with failed := true })
    else (.ok (), { tx with pending := some { pending with status := some status.acked } })

end ClientTx

/-- Whether a grant is the one asked for on a channel. -/
def ClientJoinRocGrant.valid (grant : ClientJoinRocGrant) (channel : CandidateChannel) : Bool :=
  let band : UInt8 := if channel.band = .ghz2 then 1 else 2
  ¬ (grant.bssIndex ≠ 0 ∨ grant.status ≠ 0 ∨ grant.requestType ≠ 0 ∨ grant.band ≠ band ∨
    grant.primaryChannel.toUInt16 ≠ channel.number ∨
    grant.centerChannel ≠ grant.primaryChannel ∨ grant.bandwidth ≠ 0 ∨ grant.maxIntervalMs = 0)

/-- Until when a grant that arrives at `now` lasts. -/
def ClientJoinRocGrant.lasts (grant : ClientJoinRocGrant) (now : Nat) : Nat :=
  now + millis (min grant.maxIntervalMs.toNat 2000)

namespace ClientTx

variable (tx : ClientTx)

def rocGrant (grant : ClientJoinRocGrant) (now : Nat) : Except Status Unit × ClientTx :=
  match tx.roc with
  | none => (.ok (), tx)
  | some roc =>
    if grant.token ≠ roc.token then (.ok (), tx)
    else
      match roc.phase with
      | .acquiring commands deadline received =>
        if !grant.valid roc.channel ∨ received.isSome then
          (.error .ioDataIntegrity, { tx with failed := true })
        else
          let phase := .acquiring commands deadline (some (grant.lasts now))
          (.ok (), { tx with roc := some { roc with phase := phase } })
      | _ => (.ok (), tx)

/-- The end of a grant that is held. -/
def grantUntil : Option Nat :=
  match tx.roc with
  | some ⟨_, _, _, .granted ends⟩ => some ends
  | _ => none

/-! ## What is published -/

section
variable (frame : QueuedFrame)

/-- The first packet identifier from `nextPid` on that is not retired. -/
def choosePid : Option UInt8 :=
  if frame.data ∧ !frame.controlPort then some mt7921PacketIdNoSkb
  else
    let pids := (List.range 124).map fun offset =>
      UInt8.ofNat ((tx.nextPid.toNat - 3 + offset) % 124 + 3)
    pids.find? (· ∉ tx.retiredPids)

def encode (txwiIova frameIova : UInt64) (pid : UInt8) :
    Option Mt7921MgmtTx :=
  if frame.data then do
    let qos := frame.controlPort && byteAt frame.bytes 0 == 0x88
    let txwi ← encodeClientDataTxwi frame.bytes.length frameIova tx.nextToken pid frame.controlPort
      (!frame.controlPort) qos frame.tid 1 frame.rate
    match mt7921DmaTx ⟨txwiIova, 64⟩ none 0 with
    | .error _ => none
    | .ok descriptor => return ⟨txwi, descriptor, tx.nextToken, pid⟩
  else do
    let encoded ← encodeClientManagementTx frame.bytes txwiIova frameIova tx.nextToken pid 1
      frame.rate
    -- the peer's key protects the frame
    if byteAt frame.bytes 1 &&& 0x40 ≠ 0 then
      return { encoded with txwi := patch encoded.txwi 12 [byteAt encoded.txwi 12 ||| 2] }
    else return encoded

/-- A frame is owned from before its first write on. -/
def own (rest : List QueuedFrame) (pid : UInt8) (now : Nat) : ClientTx :=
  let next := UInt16.ofNat ((tx.producer.toNat + 1) % mt7921Band0TxRingCount)
  { tx with
    queue := rest
    pending := some
      ⟨frame, tx.producer, next, tx.nextToken, pid, now + seconds 1, false, false, none⟩
    producer := next
    nextToken := (tx.nextToken + 1) % 8192
    nextPid := if pid = mt7921PacketIdNoSkb then tx.nextPid else if pid = 126 then 3 else pid + 1 }

/-- The request for the channel of a frame, under the next token. -/
def acquireRoc (now : Nat) : Option ClientTx := do
  let duration : UInt32 :=
    if byteAt frame.bytes 0 = 0xb0 ∧ (frame.bytes.drop 24).take 2 = [3, 0] then 2000 else 1000
  let channel : ClientPhysicalChannel :=
    ⟨if frame.channel.band = .ghz2 then 0 else 1, frame.channel.number, frame.channel.number, 0, 0⟩
  let command ← encodeClientJoinRocAcquire 1 0 tx.nextRocToken channel duration
  return { tx with
    roc := some ⟨tx.nextRocToken, frame.channel, frame.context,
      .acquiring (.new [(command, .none)]) (now + seconds 1) none⟩
    nextRocToken := if tx.nextRocToken = 255 then 1 else tx.nextRocToken + 1 }

end

def setPhase (phase : RocPhase) : ClientTx :=
  { tx with roc := tx.roc.map fun roc => { roc with phase := phase } }

end ClientTx

/-! ## Operations -/

/-- The transmitter and the engine it shares. -/
structure TxState (η : Type) where
  tx : ClientTx
  session : Session (η × RxRouting)

abbrev Tx (η α : Type) := Eff (TxState η) Empty Status α

namespace ClientTx

section
variable {η : Type} (H : Host η)

def onHost {α : Type} (x : Eff η Empty Status α) : Tx η α :=
  x.zoom (fun s => s.session.transport.1)
    fun s h => { s with session.transport := (h, s.session.transport.2) }

def get : Tx η ClientTx := Eff.look TxState.tx

def update (f : ClientTx → ClientTx) : Tx η Unit := Eff.modify fun s => { s with tx := f s.tx }

/-- An event changes the transmitter alone. -/
def event (f : ClientTx → Except Status Unit × ClientTx) : Tx η Unit := fun s =>
  ⟨(f s.tx).1, { s with tx := (f s.tx).2 }, []⟩

def orFail {α : Type} (status : Status) : Option α → Tx η α
  | none => fail status
  | some a => return a

def enqueue (context : OperationContext) (bytes : Bytes) (rate : UInt8)
    (channel : CandidateChannel) : Tx η Unit := do
  let now ← onHost H.now
  onHost (H.check context now)
  let tx ← get
  let frame ← Eff.ofExcept (tx.accept context bytes rate channel)
  update fun tx => { tx with queue := tx.queue ++ [frame] }

/-- Whether a context no longer passes its check. -/
def expired (context : OperationContext) (now : Nat) : Tx η Bool := do
  match ← (onHost (H.check context now)).attempt with
  | .ok _ => return false
  | .error _ => return true

/-! ### Staying on a channel -/

def liveFrames (now : Nat) : List QueuedFrame → Tx η (List QueuedFrame)
  | [] => return []
  | frame :: rest => do
    let dead ← expired H frame.context now
    let rest ← liveFrames now rest
    return if dead then rest else frame :: rest

variable (now : Nat)

/-- Frames whose context ended leave the queue. -/
def retainLive : Tx η Bool := do
  let queued := (← get).queue
  let live ← liveFrames H now queued
  update fun tx => { tx with queue := live }
  return queued.length ≠ live.length

/-- A frame in front that is not data asks for its channel. -/
def requestRoc : Tx η Bool := do
  let tx ← get
  match tx.roc, tx.queue with
  | none, frame :: _ =>
    if frame.data then return false
    else do
      onHost (H.check frame.context now)
      let asked ← orFail .invalidArgs (tx.acquireRoc frame now)
      update fun _ => asked
      return true
  | _, _ => return false

/-- Drive the commands of a phase, which stay in it even when they fail. -/
def driveCommands (context : Option OperationContext) (commands : FirmwareCommands)
    (phase : FirmwareCommands → RocPhase) : Tx η (Bool × FirmwareCommands) := fun s =>
  let driven := FirmwareCommands.drive H now context ⟨commands, s.session⟩
  ⟨driven.result.map (·, driven.state.commands),
    ⟨s.tx.setPhase (phase driven.state.commands), driven.state.session⟩, []⟩

def releaseRoc (token : UInt8) : Tx η Bool := do
  let command ← orFail .internal (encodeClientJoinRocAbort 1 0 token)
  update fun tx => tx.setPhase (.releasing (.new [(command, .none)]))
  return true

def dropRoc : Tx η Bool := do
  update fun tx => { tx with roc := none }
  return true

def driveAcquiring (roc : Roc) (commands : FirmwareCommands) (deadline : Nat) (grant : Option Nat) :
    Tx η Bool := do
  if ← expired H roc.context now then
    if commands.discardQueued.1 ≠ 0 then dropRoc
    else do
      let (progressed, commands) ←
        driveCommands H now none commands.discardQueued.2 (.acquiring · deadline grant)
      if commands.ready then releaseRoc roc.token else return progressed
  else if now ≥ deadline then fail .timedOut
  else do
    let (progressed, commands) ←
      driveCommands H now (some roc.context) commands (.acquiring · deadline grant)
    match grant with
    | some ends =>
      if commands.ready then do
        update fun tx => tx.setPhase (.granted ends)
        return true
      else return progressed
    | none => return progressed

def driveGranted (roc : Roc) (ends : Nat) : Tx η Bool := do
  if now ≥ ends then releaseRoc roc.token
  else if ← expired H roc.context now then releaseRoc roc.token
  else return false

def driveReleasing (commands : FirmwareCommands) : Tx η Bool := do
  let (progressed, commands) ← driveCommands H now none commands .releasing
  if commands.ready then dropRoc else return progressed

def driveRoc : Tx η Bool := do
  match (← get).roc with
  | none => return false
  | some roc =>
    match roc.phase with
    | .acquiring commands deadline grant => driveAcquiring H now roc commands deadline grant
    | .granted ends => driveGranted H now roc ends
    | .releasing commands => driveReleasing H now commands

/-! ### The descriptor and its payload -/

section
variable (pending : PublishedFrame)

/-- A packet identifier whose status never came is not used again. -/
def retirePid : Tx η Unit :=
  if pending.pid ≠ mt7921PacketIdNoSkb ∧ pending.status.isNone then
    update fun tx => { tx with retiredPids := pending.pid :: tx.retiredPids }
  else return ()

/-- The descriptor, the frame and the transmit words are cleared. -/
def clear : Tx η Bool := do
  retirePid pending
  onHost (H.port (writeDescriptor .managementTxRing pending.slot .reset))
  onHost (H.port (.write .managementFrame 0 (List.replicate pending.frame.bytes.length 0)))
  onHost (H.port (.write .managementTxwi 0 (List.replicate 64 0)))
  update fun tx => { tx with pending := none }
  return true

/-- What is done about the frame in flight once the device was looked at. -/
def settle (changed : Bool) : Tx η Bool :=
  if !(pending.descriptorDone && pending.freed) then
    if now ≥ pending.deadline then fail .timedOut else return changed
  else if pending.pid ≠ mt7921PacketIdNoSkb ∧ pending.status.isNone ∧ now < pending.deadline then
    return changed
  else clear H pending

/-- The first half of `step`, with a frame in flight. -/
def reclaim : Tx η Bool := do
  let didx ← onHost (H.port (.readU32 managementTxDidx))
  if didx ≠ pending.slot.toUInt32 ∧ didx ≠ pending.next.toUInt32 then fail .ioDataIntegrity
  else do
    let bytes ← onHost (H.port
      (.read .managementTxRing (pending.slot.toNat * dmaDescriptorLen) dmaDescriptorLen))
    let changed := !pending.descriptorDone && didx == pending.next.toUInt32 &&
      (DmaDescriptor.fromBytes bytes).isDmaDone
    let pending := { pending with descriptorDone := pending.descriptorDone || changed }
    update fun tx => { tx with pending := some pending }
    settle H now pending changed

end

/-- A frame that is not data needs its grant to the last moment. -/
def checkGrant (frame : QueuedFrame) (grantUntil : Option Nat) : Tx η Unit :=
  if frame.data then return ()
  else
    match grantUntil with
    | none => fail .timedOut
    | some deadline => do
      let now ← onHost H.now
      if now ≥ deadline then fail .timedOut else return ()

/-- The writes of a publication; the producer index is the last. -/
def publish (tx : ClientTx) (frame : QueuedFrame) (rest : List QueuedFrame) (now : Nat)
    (grantUntil : Option Nat) (pid : UInt8) (encoded : Mt7921MgmtTx) : Tx η Bool := do
  let owned := tx.own frame rest pid now
  update fun _ => owned
  onHost (H.port (.write .managementFrame 0 frame.bytes))
  onHost (H.port (.write .managementTxwi 0 encoded.txwi))
  onHost (H.port (writeDescriptor .managementTxRing tx.producer encoded.descriptor))
  let moment ← onHost H.now
  onHost (H.check frame.context moment)
  checkGrant H frame grantUntil
  onHost (H.port (.writeU32 managementTxCidx owned.producer.toUInt32))
  return true

/-- Whether the grant that a frame needs is missing or over. -/
def ungranted (frame : QueuedFrame) (now : Nat) (grantUntil : Option Nat) : Bool :=
  !frame.data && grantUntil.all (now ≥ ·)

/-- The second half of `step`, with nothing in flight. -/
def send (grantUntil : Option Nat) (tx : ClientTx) : Tx η Bool :=
  match tx.queue with
  | [] => return false
  | frame :: rest => do
    onHost (H.check frame.context now)
    if ungranted frame now grantUntil then return false
    else do
      let txwiIova ← onHost (H.port (.deviceAddress .managementTxwi 0))
      let frameIova ← onHost (H.port (.deviceAddress .managementFrame 0))
      let pid ← orFail .noResources (tx.choosePid frame)
      let encoded ← orFail .invalidArgs (tx.encode frame txwiIova frameIova pid)
      let didx ← onHost (H.port (.readU32 managementTxDidx))
      let cidx ← onHost (H.port (.readU32 managementTxCidx))
      if didx ≠ tx.producer.toUInt32 ∨ cidx ≠ tx.producer.toUInt32 then
        fail .ioDataIntegrity
      else publish H tx frame rest now grantUntil pid encoded

def step (grantUntil : Option Nat) : Tx η Bool := do
  let tx ← get
  match tx.pending with
  | some pending => reclaim H now pending
  | none => send H now grantUntil tx

/-- An error stops the transmitter for good. -/
def failing (x : Tx η Bool) : Tx η Bool := do
  if (← get).failed then fail .badState
  else
    match ← x.attempt with
    | .ok progressed => return progressed
    | .error status => do
      update fun tx => { tx with failed := true }
      fail status

def driveDma (grantUntil : Option Nat) : Tx η Bool := failing (step H now grantUntil)

def drive (now : Nat) : Tx η Bool := failing do
  let discarded ← retainLive H now
  let requested ← requestRoc H now
  let driven ← driveRoc H now
  let tx ← get
  let moved ← driveDma H now tx.grantUntil
  return discarded || requested || driven || moved

end

end ClientTx

/-! ## Runs -/

inductive TxOp where
  | enqueue (context : OperationContext) (bytes : Bytes) (rate : UInt8)
      (channel : CandidateChannel)
  | txFree (free : Mt7921TxFree)
  | txStatus (status : Mt7921TxStatus)
  | rocGrant (grant : ClientJoinRocGrant) (now : Nat)
  | drive (now : Nat)

/-- What a run shows of the host: calls on the hardware and readings of
the clock. -/
inductive TxEvent where
  | call (call : BoardCall)
  | clock (now : Nat)

/-- The same host, with a log of what a run shows of it. -/
def Host.traced {η : Type} (H : Host η) : Host (η × List TxEvent) where
  payloadsLen h := H.payloadsLen h.1
  handle p h := ((H.handle p h.1).1, (H.handle p h.1).2, h.2 ++ [.call ⟨p, (H.handle p h.1).1⟩])
  instantNow h := ((H.instantNow h.1).1, (H.instantNow h.1).2, h.2 ++ [.clock (H.instantNow h.1).1])
  isLive context h := ((H.isLive context h.1).1, (H.isLive context h.1).2, h.2)
  activeMcuViews h := ((H.activeMcuViews h.1).1, (H.activeMcuViews h.1).2, h.2)

/-- One operation of a run, and what it left. -/
structure TxStep where
  op : TxOp
  before : ClientTx
  events : List TxEvent
  result : Except Status Unit
  after : ClientTx

/-- An operation and how it finds the engine: between two operations the
rest of the driver may change it in any way. -/
structure TxTurn (η : Type) where
  op : TxOp
  session : Session (η × RxRouting)

namespace ClientTx

section
variable {η : Type} (H : Host η)

def exec : TxOp → Tx η Unit
  | .enqueue context bytes rate channel => enqueue H context bytes rate channel
  | .txFree free => event (·.txFree free)
  | .txStatus status => event (·.txStatus status)
  | .rocGrant grant now => event (·.rocGrant grant now)
  | .drive now => do
    let _ ← drive H now
    return ()

/-- Where an operation starts, with an empty log. -/
def start (tx : ClientTx) (session : Session (η × RxRouting)) : TxState (η × List TxEvent) :=
  ⟨tx, session.mechanics, ((session.transport.1, []), session.transport.2)⟩

def turn (tx : ClientTx) (t : TxTurn η) : TxStep :=
  let outcome := exec H.traced t.op (start tx t.session)
  ⟨t.op, tx, outcome.state.session.transport.1.2, outcome.result, outcome.state.tx⟩

def history (tx : ClientTx) : List (TxTurn η) → List TxStep
  | [] => []
  | t :: rest => turn H tx t :: history (turn H tx t).after rest

end

end ClientTx

end Drv.Mt7921
