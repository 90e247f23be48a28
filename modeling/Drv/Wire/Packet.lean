import Drv.Wire.Fidl

/-!
# Control packets

The values of the WLAN control wire: one packet is a generation, the
sender's sequence number and a message. A deadline carries its own
range, so an out-of-range one cannot be built. `SessionValidator` is the
receiver's check of one peer's packet sequence.
-/

namespace Drv.Wire

open Drv.Fidl

def magic : Bytes := [87, 76, 67, 80]
def version : UInt16 := 3
def headerLen : Nat := 36
def maxPacket : Nat := 8192
def maxBssIeLen : Nat := 4096

inductive Error where
  | packetTooLarge
  | truncated
  | badMagic
  | unsupportedVersion (version : UInt16)
  | unknownKind (kind : UInt16)
  | invalidLength
  | trailingBytes
  | zeroRequestId
  | wrongGeneration
  | nonIncreasingRequestId
  | unknownDiscriminant (name : String) (value : UInt64)
  | boundExceeded (name : String)
  | invalidValue (name : String)

/-! ## Deadlines -/

/-- An absolute monotonic deadline in nanoseconds: neither zero nor above
`i64::MAX`. -/
structure MonotonicDeadline where
  nanos : UInt64
  pos : nanos ≠ 0
  le : nanos ≤ 0x7fffffffffffffff

namespace MonotonicDeadline

def fromNanos (nanos : UInt64) : Except Error MonotonicDeadline :=
  if h : nanos ≠ 0 ∧ nanos ≤ 0x7fffffffffffffff then .ok ⟨nanos, h.1, h.2⟩
  else .error (.invalidValue "monotonic deadline")

def intoNanos (d : MonotonicDeadline) : UInt64 := d.nanos

theorem fromNanos_eq_ok {nanos : UInt64} {d : MonotonicDeadline} :
    fromNanos nanos = .ok d ↔ d.intoNanos = nanos := by
  unfold fromNanos intoNanos
  constructor
  · intro h
    split at h
    next => cases h; rfl
    next => cases h
  · rintro rfl
    rw [dif_pos ⟨d.pos, d.le⟩]

end MonotonicDeadline

/-! ## Messages -/

inductive ConnectReply where
  | completed (result : ConnectResult)

inductive CommandReply where
  | success | busy | notConnected | unsupported

inductive PowerSaveMode where
  | performance | balanced

inductive GenerationEndReason where
  | shutdown | timeout | driverFault | containmentFault | backpressure | protocolViolation

/-- The completion of the request packet `inReplyTo`. -/
structure Reply (α : Type) where
  inReplyTo : UInt64
  result : α

inductive Message where
  | ready
  | scan (deadline : MonotonicDeadline) (request : ScanRequest)
  | scanReply (reply : Reply (Except ScanErrorCode (List ScanResult)))
  | connect (deadline : MonotonicDeadline) (request : ConnectRequest)
  | connectReply (reply : Reply ConnectReply)
  | disconnect (deadline : MonotonicDeadline) (reason : UserDisconnectReason)
  | disconnectReply (reply : Reply CommandReply)
  | roam (deadline : MonotonicDeadline) (request : RoamRequest)
  | roamReply (reply : Reply CommandReply)
  | setPowerSave (deadline : MonotonicDeadline) (mode : PowerSaveMode)
  | setPowerSaveReply (reply : Reply CommandReply)
  | event (event : ConnectTransactionEvent)
  | generationEnd (reason : GenerationEndReason)
  | deadlineExceeded (reply : Reply Unit)

namespace Message

/-- Every flexible enumeration in the message is a named one. -/
def Known : Message → Prop
  | connect _ request => request.Known
  | roam _ request => request.bssDescription.Known
  | scanReply ⟨_, .ok results⟩ => ∀ r ∈ results, r.Known
  | connectReply ⟨_, .completed result⟩ => result.Known
  | event e => e.Known
  | _ => True

/-- How many SSIDs an active scan names. -/
def scanSsids : Message → Nat
  | scan _ (.active request) => request.ssids.length
  | _ => 0

end Message

abbrev Generation := List.Vector UInt8 16

structure Packet where
  generation : Generation
  requestId : UInt64
  message : Message

/-! ## The receiver's sequence check -/

structure SessionValidator where
  generation : Generation
  lastRequestId : UInt64

namespace SessionValidator

def new (generation : Generation) : SessionValidator := ⟨generation, 0⟩

def validate (v : SessionValidator) (packet : Packet) : Except Error SessionValidator :=
  if packet.generation ≠ v.generation then .error .wrongGeneration
  else if packet.requestId = 0 then .error .zeroRequestId
  else if packet.requestId ≤ v.lastRequestId then .error .nonIncreasingRequestId
  else .ok { v with lastRequestId := packet.requestId }

end SessionValidator

end Drv.Wire
