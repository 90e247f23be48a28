import Mathlib.Tactic.Ring

/-!
# Readiness and admission in the kernel frontend

The buffers of a frontend socket (`Socket`) and of a netlink channel
(`Channel`): what `poll` reports of them, and what a call that may not wait
then does. A packet is its length. Of `send` and `recv` only what a stream
socket does is here, without an address.
-/

namespace Drv.Net.Frontend

/-- The provider chooses the number that `SO_ERROR` holds. -/
abbrev Errno := Nat

def eagain : Errno := 11
def enomem : Errno := 12
def efault : Errno := 14
def epipe : Errno := 32
def eproto : Errno := 71
def eoverflow : Errno := 75
def emsgsize : Errno := 90
def enetdown : Errno := 100
def enotconn : Errno := 107

def payload : Nat := 16384
def limit : Nat := 256 * 1024
def maxPackets : Nat := 32
def maxRequests : Nat := 32

inductive Op where
  | open | bind | listen | connect | shutdown | activate
  deriving DecidableEq

/-- `opened` and `connected`: a socket connects only after its OPEN. -/
inductive Stage where
  | fresh | opened | connected
  deriving DecidableEq

inductive Attempt where
  | pending | failed | succeeded
  deriving DecidableEq

/-- `live` says that the generation of the socket is the live one. -/
structure Socket where
  stream : Bool
  stage : Stage := .fresh
  live : Bool := true
  dead : Bool := false
  error : Errno := 0
  listening : Bool := false
  appClosed : Bool := false
  eof : Bool := false
  shutdown : UInt32 := 0
  nextRequest : Nat := 0
  requests : List Op := []
  attempt : Option Attempt := none
  tx : List Nat := []
  txBytes : Nat := 0
  txTail : Nat := 0
  rx : List Nat := []
  rxOffset : Nat := 0
  rxBytes : Nat := 0
  accepted : Nat := 0

namespace Socket

def alive (s : Socket) : Bool := !s.dead && s.live

def submit (s : Socket) (op : Op) : Except Errno Socket :=
  if s.alive = false then .error enetdown
  else if s.requests.length ≥ maxRequests then .error eagain
  else if s.nextRequest + 1 ≥ 2 ^ 64 then .error eoverflow
  else .ok { s with requests := s.requests ++ [op], nextRequest := s.nextRequest + 1 }

def openEndpoint (s : Socket) : Except Errno Socket :=
  if s.stage ≠ .fresh then .ok s
  else (s.submit .open).map fun s => { s with stage := .opened }

/-! ## The application -/

inductive Fault where
  | memory | user

def Fault.errno : Fault → Errno
  | .memory => enomem
  | .user => efault

/-- The lengths `(len - done).min(PAYLOAD)` of the turns of the loop. -/
def chunks (len : Nat) : List Nat :=
  List.replicate (len / payload) payload ++ if len % payload = 0 then [] else [len % payload]

/-- The loop of `send`, which may fault once `done` bytes are admitted. -/
def admitChunks (s : Socket) (fault : Nat → Option Fault) (done : Nat) :
    List Nat → Except Errno Nat × Socket
  | [] => (.ok done, s)
  | count :: rest =>
    let stop e := (if done > 0 then .ok done else .error e, s)
    if s.alive = false then stop enetdown
    else if s.shutdown &&& 2 ≠ 0 then stop epipe
    else if s.tx.length ≥ maxPackets ∨ s.txBytes + max count 1 > limit then stop eagain
    else match fault done with
      | some f => stop f.errno
      | none =>
        if s.txTail + count ≥ 2 ^ 64 then stop eoverflow
        else admitChunks { s with
          tx := s.tx ++ [count], txBytes := s.txBytes + max count 1, txTail := s.txTail + count }
          fault (done + count) rest

def send (s : Socket) (len : Nat) (fault : Nat → Option Fault) : Except Errno Nat × Socket :=
  if len = 0 then (.ok 0, s)
  else if s.shutdown &&& 2 ≠ 0 then (.error epipe, s)
  else match s.openEndpoint with
    | .error e => (.error e, s)
    | .ok s =>
      if s.stage = .connected then s.admitChunks fault 0 (chunks len) else (.error enotconn, s)

/-- The loop of `recv`, over the packets that are queued. -/
def take (s : Socket) (len : Nat) (peek waitall : Bool) (fault : Nat → Bool) (done : Nat) :
    List Nat → Except Errno Nat × Socket
  | [] =>
    if done > 0 then (.ok done, s)
    else if s.alive = false then (.error enetdown, s)
    else if s.error ≠ 0 then (.error s.error, { s with error := 0 })
    else if s.eof ∨ s.shutdown &&& 1 ≠ 0 then (.ok 0, s)
    else (.error eagain, s)
  | packet :: rest =>
    let available := packet - s.rxOffset
    let count := min (len - done) available
    if fault done then (if done > 0 then .ok done else .error efault, s)
    else
      let left := if peek then s
        else if count = available then
          { s with rx := rest, rxBytes := s.rxBytes - max packet 1, rxOffset := 0 }
        else { s with rxOffset := s.rxOffset + count }
      if peek ∨ done + count = len ∨ waitall = false then (.ok (done + count), left)
      else left.take len peek waitall fault (done + count) rest

def recv (s : Socket) (len : Nat) (peek waitall : Bool) (fault : Nat → Bool) :
    Except Errno Nat × Socket :=
  if len = 0 then (.ok 0, s) else s.take len peek waitall fault 0 s.rx

/-- `poll` reports POLLIN. -/
def readable (s : Socket) : Bool :=
  !s.alive || !s.rx.isEmpty || s.eof || 0 < s.accepted || s.shutdown &&& 1 ≠ 0

/-- `poll` reports POLLOUT. -/
def writable (s : Socket) : Bool :=
  !s.alive || s.stream && s.attempt = some .failed ||
    s.attempt ≠ some .pending && !s.listening && !s.requests.contains .activate &&
      (s.stage = .connected || !s.stream) && s.txBytes < limit && s.tx.length < maxPackets

/-! ## The provider -/

/-- A receive record: the length of its payload, and the family in its
address, which may be all zero or none that is known. -/
structure Record where
  length : Nat
  zero : Bool
  family : Option Nat

/-- `SocketEndpoint::write` of a frame with a receive record. -/
def write (s : Socket) (family : Nat) (r : Record) (oom : Bool) : Except Errno Unit × Socket :=
  if r.length > payload then (.error emsgsize, s)
  else if oom then (.error enomem, s)
  else if s.alive = false then (.error enetdown, s)
  else if s.rx.length ≥ maxPackets ∨ s.rxBytes + max r.length 1 > limit then (.error eagain, s)
  else if if s.stream then r.zero = false ∧ r.family = none else r.family ≠ some family then
    (.error eproto, s)
  else if s.shutdown &&& 1 ≠ 0 ∨ s.appClosed then (.ok (), s)
  else (.ok (), { s with rx := s.rx ++ [r.length], rxBytes := s.rxBytes + max r.length 1 })

/-- `SocketEndpoint::poll` reports POLLOUT. -/
def providerWritable (s : Socket) : Bool :=
  s.alive && s.rx.length < maxPackets && s.rxBytes ≤ limit - payload

end Socket

/-! ## Netlink -/

def maxMessage : Nat := 65536
def maxBytes : Nat := 256 * 1024
def header : Nat := 40

structure Channel where
  alive : Bool
  bytes : Nat
  requests : List Nat

namespace Channel

def send (c : Channel) (len : Nat) (oom : Bool) : Except Errno Nat × Channel :=
  if len > maxMessage then (.error emsgsize, c)
  else if c.alive = false then (.error enetdown, c)
  else if c.requests.length < maxPackets ∧ c.bytes + header + len ≤ maxBytes then
    if oom then (.error enomem, c)
    else (.ok len, { c with
      requests := c.requests ++ [header + len], bytes := c.bytes + (header + len) })
  else (.error eagain, c)

/-- `app_poll` reports POLLOUT. -/
def writable (c : Channel) : Bool :=
  c.alive && c.requests.length < maxPackets && c.bytes + header + maxMessage ≤ maxBytes

end Channel

end Drv.Net.Frontend
