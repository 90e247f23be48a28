import Drv.Base.Effect
import Drv.Net.TcpBuffers

/-!
# The owner of one socket

A worker owns one socket of the native stack and the endpoint through
which the kernel uses it. Control messages come one way, data frames
another; a worker takes turns at both. Frames are staged until the core
takes their bytes, which it may do a part at a time, and a shutdown or a
close carries the position at which the sender was sealed.

`Host` is everything a worker calls: the endpoint's descriptor and the
core's socket. Each answers as it likes. `WorkerState.seen` is not in the
program: it is what happened between the worker and the two, in order,
for laws to speak about.

Accepting connections is left out, and so is the epoll registration.
-/

namespace Drv.Net

open Eff (fail look ofExcept)
open Bytes

/-- What the core answers. -/
abbrev Answer (α : Type) := Except RuntimeError α

/-! ## The vocabulary of the endpoint -/

def version : Nat := 6
def maxPayload : Nat := 16384

def opOpen : Nat := 1
def opBind : Nat := 2
def opListen : Nat := 3
def opConnect : Nat := 4
def opAccept : Nat := 5
def opSend : Nat := 6
def opShutdown : Nat := 7
def opClose : Nat := 8
def opRx : Nat := 9
def opState : Nat := 10
def opActivate : Nat := 13
def opConnection : Nat := 14

/-- Errors of the endpoint's descriptor. -/
inductive Errno where
  | again
  | intr
  | netdown
  | other (code : Nat)

inductive EndpointFault where
  | protocol (reason : String)
  | core (error : RuntimeError)
  | io (error : Errno)
  | allocation

inductive Work where
  | idle
  | progress
  | closed

def Work.ofProgress (progress : Bool) : Work := if progress then .progress else .idle

inductive IpVersion where
  | v4
  | v6

inductive Ip where
  | v4 (octets : Bytes)
  | v6 (octets : Bytes)

structure Address where
  address : Ip
  port : Nat

structure SocketInfo where
  localAddress : Address
  peer : Option Address

inductive Connection where
  | idle
  | pending
  | finished (result : Answer SocketInfo)

inductive TcpShutdown where
  | send
  | receive
  | sendAndReceive
  deriving DecidableEq

def enetdown : Nat := 100

def errno : RuntimeError → Nat
  | .wouldBlock => 11
  | .connectionPending => 115
  | .connectionRefused => 111
  | .timedOut => 110
  | .networkUnreachable => 101
  | .hostUnreachable => 113
  | .addressInUse => 98
  | .alreadyConnected => 106
  | .notSupported => 95
  | .payloadTooLarge => 90
  | .socketLimit => 105
  | .permissionDenied => 13
  | .unknownSocket => 9
  | _ => 22

def address (b : Bytes) : Answer (Option Address) :=
  if b.length ≠ 24 ∨ b.drop 20 ≠ [0, 0, 0, 0] then .error .notSupported
  else
    let port := toNatLE ((b.drop 2).take 2)
    match toNatLE (b.take 2) with
    | 0 => .ok none
    | 4 => .ok (some ⟨.v4 ((b.drop 4).take 4), port⟩)
    | 6 => .ok (some ⟨.v6 ((b.drop 4).take 16), port⟩)
    | _ => .error .invalidAddress

def encodeAddress (a : Address) : Bytes :=
  match a.address with
  | .v4 ip => [4, 0] ++ ofNatLE 2 a.port ++ ip ++ List.replicate 16 0
  | .v6 ip => [6, 0] ++ ofNatLE 2 a.port ++ ip ++ List.replicate 4 0

def scalar (b : Bytes) : Answer Nat :=
  if b.length = 4 then .ok (toNatLE b) else .error .invalidState

/-! ## Messages -/

structure Message where
  op : Nat
  request : Nat
  status : Nat
  data : Bytes

def Message.encode (m : Message) : Bytes :=
  ofNatLE 4 version ++ ofNatLE 4 m.op ++ ofNatLE 8 m.request ++
    ofNatLE 4 m.data.length ++ ofNatLE 4 m.status ++ m.data

/-- What a read of the descriptor amounts to. -/
def Message.read : Except Errno Bytes → Except EndpointFault (Option Message)
  | .error .again => .ok none
  | .error .intr => .ok none
  | .error .netdown => .ok (some ⟨opClose, 0, enetdown, []⟩)
  | .error e => .error (.io e)
  | .ok b =>
    if b.length < 24 ∨ toNatLE (b.take 4) ≠ version ∨
        toNatLE ((b.drop 16).take 4) ≠ b.length - 24 then
      .error (.protocol "invalid kernel provider frame")
    else
      .ok (some ⟨toNatLE ((b.drop 4).take 4), toNatLE ((b.drop 8).take 8), 0, b.drop 24⟩)

/-- What a write to the descriptor amounts to: whether it took the message. -/
def Message.written (m : Message) : Except Errno Nat → Except EndpointFault Bool
  | .ok n => if n = m.encode.length then .ok true else .error (.protocol "short provider write")
  | .error .netdown => .ok true
  | .error .again => .ok false
  | .error e => .error (.io e)

def shutdownHow : Nat → Answer TcpShutdown
  | 1 => .ok .receive
  | 2 => .ok .send
  | 3 => .ok .sendAndReceive
  | _ => .error .invalidState

/-! ## The endpoint's tasks -/

inductive Socket where
  | tcp
  | listener
  | udp
  deriving DecidableEq

structure PendingSend where
  request : Message
  peer : Option Address
  offset : Nat

/-- The bytes of a record that the core has not taken. -/
def PendingSend.remaining (p : PendingSend) : Bytes := p.request.data.drop p.offset

structure SendTask where
  pending : List PendingSend := []

namespace SendTask

variable (task : SendTask)

def admitMessage (request : Message) : Except EndpointFault SendTask :=
  if request.data.length < 24 then .error (.core .invalidState)
  else
    match address (request.data.take 24) with
    | .ok peer => .ok ⟨task.pending ++ [⟨request, peer, 24⟩]⟩
    | .error e => .error (.core e)

/-- How many bytes are staged. -/
def size : Nat := (task.pending.map fun p => p.request.data.length - p.offset).sum

/-- The staged bytes, as the terminal hand-off puts them together. -/
def staged : Bytes := task.pending.flatMap PendingSend.remaining

end SendTask

structure RxRecord where
  source : Option Address
  payload : Bytes

structure ReceiveTask where
  pending : Option RxRecord := none
  ended : Bool := false

inductive TaskControl where
  | running
  | shutdown (request : Message) (how : TcpShutdown) (txSeal : Nat)
  | close (request : Message)

namespace TaskControl

def finishing : TaskControl → Bool
  | .close _ => true
  | .shutdown _ how _ => how ≠ .receive
  | .running => false

def txSeal : TaskControl → Option Nat
  | .close m => some (toNatLE m.data)
  | .shutdown _ how position => if how = .receive then none else some position
  | .running => none

end TaskControl

structure Endpoint where
  socket : Socket
  send : SendTask := {}
  receive : ReceiveTask := {}
  control : TaskControl := .running
  lastState : Option (Nat × Option RuntimeError) := none
  dequeued : Nat := 0
  connectionAttempt : Option Nat := none

/-! ## The worker and what it calls -/

/-- The descriptor and the core. `tcpWrite` answers the room of the send
buffer, of which a write takes what it needs; a `write` answers after any
interruptions. -/
structure Host (ω : Type) where
  readControl : ω → Except Errno Bytes × ω
  readData : ω → Except Errno Bytes × ω
  write : Bytes → ω → Except Errno Nat × ω
  reserve : Nat → ω → Bool × ω
  tcp : IpVersion → ω → Answer Unit × ω
  udp : IpVersion → ω → Answer Unit × ω
  info : ω → Answer SocketInfo × ω
  bind : Address → ω → Answer Unit × ω
  listen : Nat → ω → Answer Unit × ω
  connect : Address → ω → Answer Unit × ω
  shutdown : TcpShutdown → ω → Answer Unit × ω
  tcpWrite : Bytes → ω → Answer Nat × ω
  tcpFinishWrite : Bytes → ω → Answer Unit × ω
  tcpReadiness : ω → Answer (Bool × Bool × Bool) × ω
  tcpRead : Nat → ω → Answer Bytes × ω
  connection : ω → Answer Connection × ω
  takeError : ω → Answer (Option RuntimeError) × ω
  udpSend : Option Address → Bytes → ω → Answer Unit × ω
  udpReceive : ω → Answer (Option RxRecord) × ω

inductive WorkerEvent where
  /-- A control message was taken. -/
  | control (m : Message)
  /-- A data frame was taken. -/
  | dequeued (m : Message)
  /-- The socket was given bytes to send and answered how many it took. -/
  | sent (bytes : Bytes) (answer : Answer Nat)
  /-- The socket was given its last bytes. -/
  | finished (bytes : Bytes) (answer : Answer Unit)
  /-- The socket became a listener. -/
  | listened
  /-- A request is answered. -/
  | answered (request : Message)

structure WorkerState (ω : Type) where
  data : Option Endpoint
  host : ω
  seen : List WorkerEvent

abbrev WorkerM (ω α : Type) := Eff (WorkerState ω) Empty EndpointFault α

section
variable {ω α β : Type}

def ask (f : ω → α × ω) : WorkerM ω α := fun s =>
  ⟨.ok (f s.host).1, { s with host := (f s.host).2 }, []⟩

def note (event : WorkerEvent) : WorkerM ω Unit :=
  Eff.modify fun s => { s with seen := s.seen ++ [event] }

def keep (e : Endpoint) : WorkerM ω Unit := Eff.modify fun s => { s with data := some e }

/-- Go on with what the core answers, or answer its error. -/
def tryCore (f : ω → Answer α × ω) (next : α → WorkerM ω (Answer β)) : WorkerM ω (Answer β) := do
  match ← ask f with
  | .ok a => next a
  | .error e => pure (.error e)

variable (H : Host ω)

def tryWrite (m : Message) : WorkerM ω Bool := do
  let answer ← ask (H.write m.encode)
  ofExcept (m.written answer)

def writeMessage (m : Message) : WorkerM ω Unit := do
  if ← tryWrite H m then pure ()
  else fail (.protocol "control output unexpectedly blocked")

def reply (m : Message) (result : Answer Bytes) : WorkerM ω Unit :=
  if m.request = 0 then pure ()
  else do
    note (.answered m)
    match result with
    | .ok data => writeMessage H ⟨m.op, m.request, 0, data⟩
    | .error e => writeMessage H ⟨m.op, m.request, errno e, []⟩

def readControl : WorkerM ω (Option Message) := do
  let answer ← ask H.readControl
  match ← ofExcept (Message.read answer) with
  | none => pure none
  | some m => do
    note (.control m)
    pure (some m)

def readData : WorkerM ω (Option Message) := do
  let answer ← ask H.readData
  match ← ofExcept (Message.read answer) with
  | none => pure none
  | some m => do
    note (.dequeued m)
    pure (some m)

/-- The core's local name of the socket, as the endpoint spells it. -/
def localName : WorkerM ω (Answer Bytes) :=
  tryCore H.info fun info => pure (.ok (encodeAddress info.localAddress))

/-! ## Sending -/

variable (socket : Socket)

def Socket.send (peer : Option Address) (bytes : Bytes) : WorkerM ω (Answer Nat) := do
  let answer ← match socket with
    | .tcp => tryCore (H.tcpWrite bytes) fun room => pure (.ok (min bytes.length room))
    | .udp => tryCore (H.udpSend peer bytes) fun _ => pure (.ok bytes.length)
    | .listener => pure (.error .invalidState)
  note (.sent bytes answer)
  pure answer

def Socket.finish (bytes : Bytes) : WorkerM ω (Answer Unit) := do
  let answer ← match socket with
    | .tcp => ask (H.tcpFinishWrite bytes)
    | _ => pure (.error .invalidState)
  note (.finished bytes answer)
  pure answer

def Socket.shutdown (how : TcpShutdown) : WorkerM ω (Answer Unit) :=
  match socket with
  | .listener => pure (.error .invalidState)
  | _ => ask (H.shutdown how)

def SendTask.poll (task : SendTask) : WorkerM ω (SendTask × Bool) :=
  match task.pending with
  | [] => pure (task, false)
  | write :: rest => do
    match ← socket.send H write.peer write.remaining with
    | .error .wouldBlock => pure (task, false)
    | .error e => do
      writeMessage H ⟨opState, 0, errno e, ofNatLE 4 0⟩
      pure (⟨rest⟩, true)
    | .ok n =>
      if n = 0 ∧ write.remaining ≠ [] then pure (task, false)
      else if write.offset + n = write.request.data.length then pure (⟨rest⟩, true)
      else pure (⟨{ write with offset := write.offset + n } :: rest⟩, true)

/-- Shutdown does not wait for buffer space: the core takes all that is
staged at once. -/
def SendTask.finish (task : SendTask) : WorkerM ω SendTask := do
  if ← ask (H.reserve task.size) then
    match ← socket.finish H task.staged with
    | .ok () => pure ⟨[]⟩
    | .error e => fail (.core e)
  else fail .allocation

/-! ## Receiving -/

def RxRecord.tryPublish (record : RxRecord) : WorkerM ω Bool :=
  tryWrite H ⟨opRx, 0, 0,
    ((record.source.map encodeAddress).getD (List.replicate 24 0)) ++ record.payload⟩

inductive Received where
  | record (record : RxRecord)
  | eof
  | oversized

def Socket.receive : Socket → WorkerM ω (Answer Received)
  | .tcp =>
    tryCore H.tcpReadiness fun (readable, _, eof) =>
      if readable then
        tryCore (H.tcpRead maxPayload) fun bytes =>
          pure (.ok (.record ⟨none, bytes.take maxPayload⟩))
      else if eof then pure (.ok .eof)
      else pure (.error .wouldBlock)
  | .udp =>
    tryCore H.udpReceive fun
      | some packet =>
        if packet.payload.length > maxPayload then pure (.ok .oversized)
        else pure (.ok (.record packet))
      | none => pure (.error .wouldBlock)
  | .listener => pure (.error .invalidState)

def ReceiveTask.poll (task : ReceiveTask) : WorkerM ω (ReceiveTask × Bool) :=
  match task.pending with
  | some record => do
    if ← record.tryPublish H then pure ({ task with pending := none }, true)
    else pure (task, false)
  | none =>
    if task.ended then pure (task, false)
    else do
      match ← socket.receive H with
      | .ok (.record record) => do
        if ← record.tryPublish H then pure (task, true)
        else pure ({ task with pending := some record }, true)
      | .ok .eof => do
        writeMessage H ⟨opState, 0, 0, ofNatLE 4 4⟩
        pure ({ task with ended := true }, true)
      | .ok .oversized => do
        writeMessage H ⟨opState, 0, errno .payloadTooLarge, ofNatLE 4 0⟩
        pure (task, true)
      | .error e =>
        if e = .wouldBlock ∨ e = .invalidState ∨ e = .connectionPending then pure (task, false)
        else do
          writeMessage H ⟨opState, 0, errno e, ofNatLE 4 4⟩
          pure ({ task with ended := true }, true)

/-! ## Requests -/

/-- How a batch of requests goes on after one of them. -/
inductive Flow where
  | closed
  | stop
  | next

def openSocket (data : Option Endpoint) (m : Message) : WorkerM ω (Answer Bytes) :=
  let create (socket : Socket) (make : IpVersion → ω → Answer Unit × ω) (version : IpVersion) :
      WorkerM ω (Answer Bytes) :=
    tryCore (make version) fun _ =>
    tryCore H.info fun info => do
      keep { socket }
      pure (.ok (encodeAddress info.localAddress))
  if data.isSome ∨ m.data.length ≠ 8 then pure (.error .invalidState)
  else
    match toNatLE (m.data.drop 4), toNatLE (m.data.take 4) with
    | 4, 1 => create .tcp H.tcp .v4
    | 4, 2 => create .udp H.udp .v4
    | 6, 1 => create .tcp H.tcp .v6
    | 6, 2 => create .udp H.udp .v6
    | 4, _ => pure (.error .invalidState)
    | 6, _ => pure (.error .invalidState)
    | _, _ => pure (.error .invalidAddress)

/-- The address a request names. -/
def Message.target (m : Message) : Answer Address :=
  match address m.data with
  | .ok (some a) => .ok a
  | .ok none => .error .invalidState
  | .error e => .error e

namespace Endpoint

variable (e : Endpoint) (m : Message)

def bind : WorkerM ω (Answer Bytes) :=
  match m.target, e.socket with
  | .error error, _ => pure (.error error)
  | .ok _, .listener => pure (.error .invalidState)
  | .ok a, _ => tryCore (H.bind a) fun _ => localName H

def listen : WorkerM ω (Answer Bytes) :=
  match scalar m.data, e.socket with
  | .error error, _ => pure (.error error)
  | .ok backlog, .tcp =>
    tryCore (H.listen (max backlog 1)) fun _ => do
      keep { e with socket := .listener }
      note .listened
      localName H
  | .ok _, _ => pure (.error .invalidState)

def connect : WorkerM ω (Answer Bytes) :=
  let names (a : Address) : WorkerM ω (Answer Bytes) :=
    tryCore H.info fun info => pure (.ok (encodeAddress info.localAddress ++ encodeAddress a))
  match m.target, e.socket with
  | .error error, _ => pure (.error error)
  | .ok a, .tcp =>
    tryCore (H.connect a) fun _ => do
      keep { e with connectionAttempt := some m.request }
      names a
  | .ok a, .udp => tryCore (H.connect a) fun _ => names a
  | .ok _, .listener => pure (.error .invalidState)

def activate : WorkerM ω (Answer Bytes) :=
  match e.socket with
  | .udp =>
    tryCore H.info fun info =>
      if info.localAddress.port = 0 then tryCore (H.bind info.localAddress) fun _ => localName H
      else localName H
  | _ => pure (.error .invalidState)

def command : WorkerM ω (Answer Bytes) :=
  if m.op = opBind then e.bind H m
  else if m.op = opListen then e.listen H m
  else if m.op = opConnect then e.connect H m
  else if m.op = opActivate then e.activate H
  else pure (.error .notSupported)

def handle : WorkerM ω Flow :=
  if m.op = opSend then do
    let send ← ofExcept (e.send.admitMessage m)
    keep { e with send }
    pure .next
  else if m.op = opClose then
    if m.data.length ≠ 8 then fail (.protocol "invalid close seal")
    else do
      keep { e with control := .close m }
      pure .stop
  else if m.op = opShutdown then
    if m.data.length ≠ 12 then fail (.protocol "invalid shutdown control")
    else
      match shutdownHow (toNatLE (m.data.take 4)) with
      | .ok how => do
        keep { e with control := .shutdown m how (toNatLE (m.data.drop 4)) }
        pure .next
      | .error error => do
        reply H m (.error error)
        pure .next
  else do
    let result ← e.command H m
    reply H m result
    pure .next

end Endpoint

def handleRequest (m : Message) : WorkerM ω Flow := do
  let data ← look WorkerState.data
  if m.op = opClose ∧ (m.status ≠ 0 ∨ data.isNone) then pure .closed
  else if m.op = opOpen then do
    let result ← openSocket H data m
    reply H m result
    pure .next
  else if m.op = opAccept then pure .next
  else
    match data with
    | none => do
      reply H m (.error .unknownSocket)
      pure .next
    | some e => e.handle H m

/-- At most so many requests, with whether there was one before. -/
def requestLoop : Nat → Bool → WorkerM ω Work
  | 0, progress => pure (.ofProgress progress)
  | limit + 1, progress => do
    match ← readControl H with
    | none => pure (.ofProgress progress)
    | some m =>
      match ← handleRequest H m with
      | .closed => pure .closed
      | .stop => pure .progress
      | .next => requestLoop limit true

def handleRequests : WorkerM ω Work := requestLoop H 32 false

/-! ## Data -/

namespace Endpoint

variable (e : Endpoint)

/-- How far a frame moves the position: bytes of a stream, or datagrams. -/
def step (m : Message) : Nat :=
  if e.socket = .tcp then m.data.length - 24 else 1

/-- The endpoint with one more frame staged. A worker that fails is
dropped, so it does not matter what it would have kept. -/
def stage (m : Message) : Except EndpointFault Endpoint :=
  let dequeued := e.dequeued + e.step m
  if dequeued ≥ 2 ^ 64 then .error (.protocol "TX position overflow")
  else if e.control.txSeal.any (dequeued > ·) then .error (.protocol "TX exceeds seal")
  else if e.send.size + m.data.length - 24 > tcpTerminalAllowance then
    .error (.protocol "TX staging exceeds reserved allowance")
  else
    match e.send.admitMessage m with
    | .ok send => .ok { e with dequeued, send }
    | .error fault => .error fault

/-- Take at most so many frames, up to the seal; `none` when the kernel
has closed the endpoint. -/
def fetch (e : Endpoint) : Nat → Bool → WorkerM ω (Option (Endpoint × Bool))
  | 0, progress => pure (some (e, progress))
  | limit + 1, progress =>
    if e.control.txSeal = some e.dequeued then pure (some (e, progress))
    else do
      match ← readData H with
      | none => pure (some (e, progress))
      | some m =>
        if m.op = opClose ∧ m.status ≠ 0 then pure none
        else if m.op ≠ opSend ∨ m.request ≠ 0 ∨ m.data.length < 24 then
          fail (.protocol "invalid data transfer")
        else do
          let next ← ofExcept (e.stage m)
          fetch next limit true

/-- Give the socket bytes: all that is staged once the seal is reached,
what it has room for while there is none. -/
def transmit : WorkerM ω (Endpoint × Bool) :=
  if e.control.finishing ∧ e.socket = .tcp ∧ e.control.txSeal = some e.dequeued then do
    let send ← e.send.finish H e.socket
    pure ({ e with send }, true)
  else if ¬ e.control.finishing ∨ e.socket ≠ .tcp then do
    let (send, progress) ← e.send.poll H e.socket
    pure ({ e with send }, progress)
  else pure (e, false)

/-- Whether the pending request may be answered. -/
def due : Bool :=
  (e.send.pending.isEmpty && e.control.txSeal.all (e.dequeued = ·)) ||
    match e.control with
    | .shutdown _ .receive _ => true
    | _ => false

/-- Answer the pending request; `none` when it closes the endpoint. -/
def complete : WorkerM ω (Option (Endpoint × Bool)) :=
  match e.control with
  | .running => pure (some (e, false))
  | .shutdown request how _ => do
    let result ← e.socket.shutdown H how
    let receive : ReceiveTask :=
      if result.isOk ∧ how ≠ .send then { ended := true } else e.receive
    reply H request (result.map fun _ => [])
    pure (some ({ e with control := .running, receive }, true))
  | .close request => do
    Eff.modify fun s => { s with data := none }
    reply H request (.ok [])
    pure none

/-- The report on a connection attempt. -/
def connectionReport (attempt : Nat) : Answer SocketInfo → Except EndpointFault Message
  | .ok ⟨name, some peer⟩ =>
    .ok ⟨opConnection, attempt, 0, encodeAddress name ++ encodeAddress peer⟩
  | .ok ⟨_, none⟩ => .error (.protocol "completed connection missing peer")
  | .error error => .ok ⟨opConnection, attempt, errno error, []⟩

/-- Report the end of a connection attempt. -/
def reportConnection : WorkerM ω (Endpoint × Bool) := do
  let connection ← ask H.connection
  let connection ← ofExcept (connection.mapError .core)
  match e.connectionAttempt, connection with
  | some attempt, .finished result => do
    let message ← ofExcept (connectionReport attempt result)
    writeMessage H message
    let taken ← ask H.takeError
    let _ ← ofExcept (taken.mapError .core)
    pure ({ e with connectionAttempt := none }, true)
  | _, _ => pure (e, false)

/-- The endpoint's state, to report. -/
def observe : WorkerM ω (Endpoint × Bool × Nat × Option RuntimeError) :=
  match e.socket with
  | .tcp => do
    let (e, progress) ← e.reportConnection H
    let taken ← ask H.takeError
    let error ← ofExcept (taken.mapError .core)
    pure (e, progress, 0, error)
  | _ => pure (e, false, 0, none)

def reportState : WorkerM ω (Endpoint × Bool) := do
  let (e, progress, state) ← e.observe H
  if e.lastState = some state then pure (e, progress)
  else if state.1 ≠ 0 ∨ state.2.isSome then do
    writeMessage H ⟨opState, 0, (state.2.map errno).getD 0, ofNatLE 4 state.1⟩
    pure ({ e with lastState := some state }, true)
  else pure ({ e with lastState := some state }, progress)

def receiveTurn : WorkerM ω (ReceiveTask × Bool) :=
  if e.socket = .listener then pure (e.receive, false) else e.receive.poll H e.socket

/-- Receive, unless listening, and report. -/
def pollReceive (progress : Bool) : WorkerM ω Work := do
  let (receive, received) ← e.receiveTurn H
  let (e, reported) ← reportState H { e with receive }
  keep e
  pure (.ofProgress (progress || received || reported))

def pollData : WorkerM ω Work :=
  if e.control.txSeal.any (e.dequeued > ·) then
    fail (.protocol "TX seal behind dequeued position")
  else do
    let limit :=
      if e.send.pending.isEmpty || (e.control.finishing && e.socket = .tcp) then
        if e.control.finishing then 32 else 1
      else 0
    match ← e.fetch H limit false with
    | none => pure .closed
    | some (e, fetched) => do
      let (e, sent) ← e.transmit H
      if e.due then
        match ← e.complete H with
        | none => pure .closed
        | some (e, answered) => e.pollReceive H (fetched || sent || answered)
      else e.pollReceive H (fetched || sent)

end Endpoint

def pollData : WorkerM ω Work := do
  match ← look WorkerState.data with
  | none => pure .idle
  | some e => e.pollData H

/-! ## Runs -/

inductive Turn where
  | requests
  | data

def Turn.take : Turn → WorkerM ω Work
  | .requests => handleRequests H
  | .data => pollData H

/-- The provider removes a worker that is closed or has failed. -/
def Turn.run : List Turn → WorkerState ω → WorkerState ω
  | [], s => s
  | turn :: rest, s =>
    match (turn.take H s).result with
    | .ok .closed => (turn.take H s).state
    | .ok _ => run rest (turn.take H s).state
    | .error _ => (turn.take H s).state

/-- A worker with a fresh TCP socket. -/
def WorkerState.tcp (host : ω) : WorkerState ω := ⟨some { socket := .tcp }, host, []⟩

end

end Drv.Net
