import Drv.Wire.Codec

/-!
# Control sessions

The sending half of the control server, with a bounded queue in front of a
socket that keeps datagrams in order, and the receiving half of its peer.
-/

namespace Drv.Wire

/-- Take one more datagram; the first that is refused ends the session. -/
def SessionValidator.receive (received : List Packet × SessionValidator) (bytes : Bytes) :
    Except Error (List Packet × SessionValidator) := do
  let packet ← decode bytes
  let v ← received.2.validate packet
  .ok (received.1 ++ [packet], v)

def maxOutboundPackets : Nat := 64
def maxOutboundBytes : Nat := 64 * 1024
def normalPacketLimit : Nat := maxOutboundPackets - 1
def normalByteLimit : Nat := maxOutboundBytes - maxPacket

/-- What `ControlServer` has for its peer, with the packets that it made and
the datagrams that the socket took so far. -/
structure ControlServer where
  generation : Generation
  nextRequestId : UInt64
  outbound : List Bytes
  outboundBytes : Nat
  terminal : Bool
  packets : List Packet
  sent : List Bytes

namespace ControlServer

def new (generation : Generation) : ControlServer := ⟨generation, 1, [], 0, false, [], []⟩

variable (s : ControlServer)

/-- One more packet, in a session that may be terminal with it. -/
def push (message : Message) (terminal : Bool) : Except Error ControlServer := do
  let packet := ⟨s.generation, s.nextRequestId, message⟩
  let bytes ← encode packet
  .ok { s with
    nextRequestId := s.nextRequestId + 1
    outbound := s.outbound ++ [bytes]
    outboundBytes := s.outboundBytes + bytes.length
    terminal := terminal
    packets := s.packets ++ [packet] }

def queue (message : Message) : Except GenerationEndReason ControlServer :=
  match s.push message s.terminal with
  | .error _ => .error .protocolViolation
  | .ok t =>
    if s.outbound.length ≥ normalPacketLimit ∨ t.outboundBytes > normalByteLimit then
      .error .backpressure
    else if s.nextRequestId = 0xffffffffffffffff then .error .protocolViolation
    else .ok t

def endGeneration (reason : GenerationEndReason) : Except Error ControlServer :=
  if s.terminal then .ok s else s.push (.generationEnd reason) true

/-- One turn of the loop of `flush`, in which the socket takes a packet. -/
def flush : ControlServer :=
  match s.outbound with
  | [] => s
  | bytes :: rest => { s with
      outbound := rest
      outboundBytes := s.outboundBytes - bytes.length
      sent := s.sent ++ [bytes] }

/-- A packet that waited too long is a timeout. -/
inductive Event where
  | queue (message : Message)
  | endGeneration (reason : GenerationEndReason)
  | flush
  | timeout

/-- Nothing is queued once the session is terminal. -/
def step : Event → ControlServer
  | .queue message => if s.terminal then s else (s.queue message).toOption.getD s
  | .endGeneration reason => (s.endGeneration reason).toOption.getD s
  | .flush => s.flush
  | .timeout => { s with terminal := true }

def run (events : List Event) : ControlServer := events.foldl step s

end ControlServer

end Drv.Wire
