import Drv.Base.Bytes
import Drv.Base.Effect

/-!
# The Bluetooth broker

The broker owns an HCI user channel: it reads packets with their H4 byte,
one at a time, and waits for the completion of the commands that it
writes. `io::Error` is its kind and its text. What the deadline, the poll
and the read of one `receive` amount to is its argument, an error or the
bytes of one read.
-/

namespace Drv.Bluetooth

inductive ErrorKind where
  | invalidData | timedOut | brokenPipe | unexpectedEof | writeZero | other
  deriving DecidableEq

abbrev IoError := ErrorKind × String

def invalid (message : String) : IoError := (.invalidData, message)

def maxHciPacket : Nat := 260
def maxOutboundHciPacket : Nat := 4096
def h4Event : UInt8 := 0x04

/-! ## Framing -/

inductive OutboundKind where
  | command | acl | sco | iso

inductive InboundKind where
  | event | acl | sco | iso
  deriving DecidableEq

/-- The length of the header, and the one that the header gives for the rest. -/
def OutboundKind.layout : OutboundKind → Bytes → Nat × Option Nat
  | .command, packet | .sco, packet => (3, packet[2]?.map UInt8.toNat)
  | .acl, packet => (4, payloadLen packet)
  | .iso, packet => (4, (payloadLen packet).map (· % 0x4000))
where
  payloadLen (packet : Bytes) : Option Nat :=
    if packet.length < 4 then none else some (Bytes.toNatLE ((packet.drop 2).take 2))

def validateOutbound (kind : OutboundKind) (packet : Bytes) : Except IoError Unit :=
  if packet.length > maxOutboundHciPacket then
    .error (invalid "outbound HCI packet exceeds boundary")
  else
    match kind.layout packet with
    | (_, none) => .error (invalid "short outbound HCI packet")
    | (header, some payloadLen) =>
      if packet.length ≠ header + payloadLen then
        .error (invalid "malformed outbound HCI packet length")
      else .ok ()

structure Event where
  code : UInt8
  parameters : Bytes
  deriving DecidableEq

def decodeEvent (packet : Bytes) : Except IoError Event :=
  if packet.length > maxHciPacket then .error (invalid "HCI packet exceeds boundary")
  else
    match packet with
    | h4 :: code :: parameterLen :: parameters =>
      if h4 ≠ h4Event then .error (invalid "not an HCI event packet")
      else if packet.length ≠ parameterLen.toNat + 3 then
        .error (invalid "malformed HCI event length")
      else .ok ⟨code, parameters⟩
    | _ => .error (invalid "not an HCI event packet")

def validateInbound (kind : InboundKind) (packet : Bytes) : Except IoError Unit :=
  match kind with
  | .event => (decodeEvent packet).map fun _ => ()
  | .acl => validateOutbound .acl packet
  | .sco => validateOutbound .sco packet
  | .iso => validateOutbound .iso packet

def inboundKind (h4 : UInt8) : Except IoError InboundKind :=
  if h4 = h4Event then .ok .event
  else if h4 = 0x02 then .ok .acl
  else if h4 = 0x03 then .ok .sco
  else if h4 = 0x05 then .ok .iso
  else .error (invalid "unsupported inbound H4 packet type")

/-- An event is checked with its H4 byte, and returned without it. -/
def receive (read : Except IoError Bytes) : Except IoError (InboundKind × Bytes) := do
  match ← read with
  | [] => .error (.unexpectedEof, "HCI user channel EOF")
  | h4 :: packet => do
    let kind ← inboundKind h4
    validateInbound kind (if kind = .event then h4 :: packet else packet)
    return (kind, packet)

/-- The opcode and the status that a completion event carries. -/
def Event.completion (event : Event) : Option (UInt16 × UInt8) :=
  match event.code, event.parameters with
  | 0x0e, _ :: low :: high :: status :: _ => some (low.toUInt16 ||| high.toUInt16 <<< 8, status)
  | 0x0f, [status, _, low, high] => some (low.toUInt16 ||| high.toUInt16 <<< 8, status)
  | _, _ => none

def hex (width number : Nat) : String := String.ofList ((Nat.toDigits 16 number).leftpad width '0')

/-- The wait for a completion; after these reads the deadline expires. -/
def awaitCompletion (opcode : UInt16) : List (Except IoError Bytes) → Except IoError Unit
  | [] => .error (.timedOut, "HCI deadline expired")
  | read :: rest => do
    let (kind, bytes) ← receive read
    if kind ≠ .event then awaitCompletion opcode rest
    else do
      let event ← decodeEvent bytes
      match event.completion with
      | none => awaitCompletion opcode rest
      | some (completed, status) =>
        if completed ≠ opcode then awaitCompletion opcode rest
        else if status = 0 then .ok ()
        else .error (.other, "HCI initialization opcode 0x" ++ hex 4 opcode.toNat ++
          " failed: 0x" ++ hex 2 status.toNat)

def command (writeRaw : Bytes → Except IoError Unit) (reads : List (Except IoError Bytes))
    (opcode : UInt16) (parameters : Bytes) : Except IoError Unit := do
  writeRaw ([0x01, opcode.toUInt8, (opcode >>> 8).toUInt8, .ofNat parameters.length] ++ parameters)
  awaitCompletion opcode reads

end Drv.Bluetooth
