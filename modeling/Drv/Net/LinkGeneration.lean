import Drv.Base.Bytes

/-!
# The Ethernet generation of the network service

The Wi-Fi side hands a frame socket over for each Ethernet generation. The
receiver checks its lifecycle records, the supervisor passes the socket on
to the provider process, and the provider makes it its link. Each of the
three keeps the generation it takes for the current one.

Only the kernel frontend is here. What the system answers to one call is
its `Surroundings`; texts that hold an error of the system come from there.
-/

namespace Drv.Net.LinkGeneration

abbrev Frame := Nat

/-! ## The provider -/

inductive Request where
  | attach (generation : Nat) (frame : Frame)
  | detach (generation : Nat)

inductive AckStatus where
  | applied | rejected

/-- What the provider keeps of its link. The active generation is the one
of the last attach it applied, and none after a detach. -/
structure ProviderLink where
  ethernet : Option Frame
  activeLinkGeneration : Option Nat
  lastLinkGeneration : Nat

namespace ProviderLink

def start : ProviderLink := ⟨none, none, 0⟩

def valid (l : ProviderLink) : Request → Bool
  | .attach generation _ => generation > l.lastLinkGeneration
  | .detach generation => l.activeLinkGeneration = some generation

/-- One request of the link-control channel. -/
def control (l : ProviderLink) (request : Request) : AckStatus × ProviderLink :=
  if !l.valid request then (.rejected, l)
  else
    match request with
    | .attach generation frame => (.applied, ⟨some frame, some generation, generation⟩)
    | .detach _ => (.applied, { l with ethernet := none, activeLinkGeneration := none })

end ProviderLink

/-! ## The supervisor -/

/-- `running` is whether the child has not exited. -/
structure KernelProcess where
  generation : Nat
  running : Bool
  link : ProviderLink

inductive KernelLink where
  | offline
  | attached (generation : Nat) (frame : Frame)
  deriving DecidableEq

def KernelLink.generation : KernelLink → Option Nat
  | .offline => none
  | .attached generation _ => some generation

/-- What the provider does about a request: it handles it, it rejects it
whatever it is, or no acknowledgement of it comes, with the request taken
or not; or the request could not be sent. -/
inductive Conduct where
  | answers
  | refuses
  | misses (taken : Bool) (error : String)
  | unsent (error : String)

structure Surroundings where
  validate : Frame → Except String Unit
  duplicate : Except String Unit
  /-- Whatever comes before the child is spawned. -/
  spawn : Except String Unit
  bootstrap : Except String Unit
  conduct : Conduct
  /-- The poll, kill and wait that end a child. -/
  cleanup : Except String Unit
  /-- The poll for an exit. -/
  poll : Except String Unit

/-- A request that was sent has an acknowledgement or an error in its place. -/
inductive Reply where
  | unsent (error : String)
  | sent (ack : Except String AckStatus) (process : KernelProcess)

def KernelProcess.ask (p : KernelProcess) (conduct : Conduct) (request : Request) : Reply :=
  match conduct with
  | .unsent error => .unsent error
  | .misses taken error =>
    .sent (.error error) (if taken then { p with link := (p.link.control request).2 } else p)
  | .answers =>
    if p.running then
      let (status, link) := p.link.control request
      .sent (.ok status) { p with link }
    else .sent (.error "network provider exited during link transfer") p
  | .refuses =>
    if p.running then .sent (.ok .rejected) p
    else .sent (.error "network provider exited during link transfer") p

structure NetworkServiceSupervisor where
  macAddress : Bytes
  nextProviderGeneration : Nat
  kernelProcess : Option KernelProcess
  kernelLink : KernelLink

abbrev Supervised (α : Type) := Except String α × NetworkServiceSupervisor

structure ProcessExit where
  providerGeneration : Nat
  ethernetGeneration : Option Nat

namespace NetworkServiceSupervisor

def newKernel (macAddress : Bytes) : NetworkServiceSupervisor := ⟨macAddress, 1, none, .offline⟩

variable (env : Surroundings) (s : NetworkServiceSupervisor)

def terminateKernelProcess : Supervised Unit :=
  match s.kernelProcess, env.cleanup with
  | none, _ => (.ok (), s)
  | some _, .ok () => (.ok (), { s with kernelProcess := none })
  | some _, .error error => (.error error, s)

def startProvider : Supervised KernelProcess :=
  if s.kernelProcess.isSome then (.error "network provider generation is already running", s)
  else
    match env.spawn with
    | .error error => (.error error, s)
    | .ok () =>
      if s.nextProviderGeneration + 1 ≥ 2 ^ 64 then (.error "provider generation exhausted", s)
      else
        let process := ⟨s.nextProviderGeneration, true, .start⟩
        let s := { s with
          kernelProcess := some process
          nextProviderGeneration := s.nextProviderGeneration + 1 }
        match env.bootstrap with
        | .ok () => (.ok process, s)
        | .error error =>
          match s.terminateKernelProcess env with
          | (.ok (), s) => (.error error, s)
          | (.error cleanup, s) => (.error (error ++ "; cleanup failed: " ++ cleanup), s)

/-- The process, which is started when there is none. -/
def provider : Supervised KernelProcess :=
  match s.kernelProcess with
  | some process => (.ok process, s)
  | none => s.startProvider env

/-- Without the acknowledgement of a request nobody knows which link is
live: the provider is ended. -/
def failClosed {α : Type} (env : Surroundings) (s : NetworkServiceSupervisor) (error : String) :
    Supervised α :=
  match s.terminateKernelProcess env with
  | (.ok (), s) => (.error error, { s with kernelLink := .offline })
  | (.error cleanup, s) =>
    (.error (error ++ "; fail-closed cleanup failed: " ++ cleanup),
      { s with kernelLink := .offline })

/-- A request to the process, and the link that stands once it is applied. -/
def exchange (process : KernelProcess) (request : Request) (link : KernelLink) (rejected : String) :
    Supervised Nat :=
  match process.ask env.conduct request with
  | .unsent error => (.error error, s)
  | .sent (.ok .applied) process =>
    (.ok process.generation, { s with kernelProcess := some process, kernelLink := link })
  | .sent (.ok .rejected) process => (.error rejected, { s with kernelProcess := some process })
  | .sent (.error error) process => { s with kernelProcess := some process }.failClosed env error

def attachGeneration (generation : Nat) (frame : Frame) : Supervised Nat :=
  if generation = 0 then (.error "Ethernet generation must be nonzero", s)
  else
    match env.validate frame with
    | .error error => (.error error, s)
    | .ok () =>
      match s.provider env with
      | (.error error, s) => (.error error, s)
      | (.ok process, s) =>
        s.exchange env process (.attach generation frame) (.attached generation frame)
          "network provider rejected Ethernet generation"

def revokeGeneration (generation : Nat) : Supervised Unit :=
  match s.kernelLink with
  | .offline => (.error "network provider has no active Ethernet generation", s)
  | .attached active _ =>
    if active ≠ generation then
      (.error "Ethernet revocation does not match active generation", s)
    else
      match s.kernelProcess with
      | none => (.error "network provider is not running", s)
      | some process =>
        match s.exchange env process (.detach generation) .offline
          "network provider rejected Ethernet revocation" with
        | (.ok _, s) => (.ok (), s)
        | (.error error, s) => (.error error, s)

def restartGeneration : Supervised Nat :=
  if s.kernelProcess.isSome then (.error "network provider generation is still running", s)
  else
    match s.kernelLink with
    | .offline =>
      match s.startProvider env with
      | (.ok process, s) => (.ok process.generation, s)
      | (.error error, s) => (.error error, s)
    | .attached generation frame =>
      match env.duplicate with
      | .error error => (.error error, s)
      | .ok () =>
        match s.startProvider env with
        | (.ok _, s) => s.attachGeneration env generation frame
        | (.error error, s) => (.error error, s)

def pollExit : Supervised (Option ProcessExit) :=
  match s.kernelProcess with
  | none => (.ok none, s)
  | some process =>
    match env.poll with
    | .error error => (.error error, s)
    | .ok () =>
      if process.running then (.ok none, s)
      else
        (.ok (some ⟨process.generation, s.kernelLink.generation⟩), { s with kernelProcess := none })

def terminate : Supervised Unit :=
  match s.terminateKernelProcess env with
  | (.error error, s) => (.error error, s)
  | (.ok (), s) => (.ok (), { s with kernelLink := .offline })

end NetworkServiceSupervisor

/-! ## The receiver of lifecycle records -/

inductive LifecycleKind where
  | install | revoke

structure LifecycleMessage where
  kind : LifecycleKind
  macAddress : Bytes
  wifiGeneration : Bytes
  ethernetGeneration : Nat

/-- What a read of the channel gives. A record that is truncated or does
not decode is a fault. -/
inductive Delivery where
  | wouldBlock
  | fault (error : String)
  | hangup
  | record (message : LifecycleMessage) (descriptors : List Frame)

inductive WifiLifecycleUpdate where
  | installed (wifiGeneration : Bytes) (ethernetGeneration providerGeneration : Nat)
  | revoked (wifiGeneration : Bytes) (ethernetGeneration : Nat)
  | channelClosed

structure ActiveGeneration where
  wifi : Bytes
  ethernet : Nat

structure WifiLifecycleReceiver where
  active : Option ActiveGeneration
  wifiIdentity : Option Bytes
  lastEthernet : Option Nat
  closed : Bool

structure World where
  receiver : WifiLifecycleReceiver
  supervisor : NetworkServiceSupervisor

namespace World

def new (macAddress : Bytes) : World := ⟨⟨none, none, none, false⟩, .newKernel macAddress⟩

abbrev Outcome := Except String (Option WifiLifecycleUpdate) × World

variable (env : Surroundings) (w : World)

def hangup : Outcome :=
  match w.receiver.active with
  | none => (.ok (some .channelClosed), { w with receiver := { w.receiver with closed := true } })
  | some active =>
    -- the generation is taken out before the supervisor is asked
    let receiver := { w.receiver with active := none }
    match w.supervisor.revokeGeneration env active.ethernet with
    | (.error error, supervisor) => (.error error, ⟨receiver, supervisor⟩)
    | (.ok (), supervisor) =>
      (.ok (some .channelClosed), ⟨{ receiver with closed := true }, supervisor⟩)

def nonmonotonic (r : WifiLifecycleReceiver) (m : LifecycleMessage) : Bool :=
  m.wifiGeneration = List.replicate 16 0 ||
    r.wifiIdentity.any (m.wifiGeneration ≠ ·) ||
    m.ethernetGeneration = 0 ||
    r.lastEthernet.any (m.ethernetGeneration ≤ ·)

def install (m : LifecycleMessage) (descriptors : List Frame) : Outcome :=
  match descriptors with
  | [frame] =>
    if nonmonotonic w.receiver m then (.error "nonmonotonic Wi-Fi lifecycle generation", w)
    else
      match env.validate frame with
      | .error error => (.error error, w)
      | .ok () =>
        let receiver := { w.receiver with
          wifiIdentity := some m.wifiGeneration, lastEthernet := some m.ethernetGeneration }
        match w.supervisor.attachGeneration env m.ethernetGeneration frame with
        | (.error error, supervisor) => (.error error, ⟨receiver, supervisor⟩)
        | (.ok providerGeneration, supervisor) =>
          (.ok (some (.installed m.wifiGeneration m.ethernetGeneration providerGeneration)),
            ⟨{ receiver with active := some ⟨m.wifiGeneration, m.ethernetGeneration⟩ }, supervisor⟩)
  | _ => (.error "Wi-Fi lifecycle Install requires exactly one descriptor", w)

def revoke (m : LifecycleMessage) (descriptors : List Frame) : Outcome :=
  if descriptors ≠ [] then (.error "Wi-Fi lifecycle Revoke must not carry descriptors", w)
  else
    match w.receiver.active with
    | none => (.error "Wi-Fi lifecycle Revoke has no active generation", w)
    | some active =>
      if active.wifi ≠ m.wifiGeneration ∨ active.ethernet ≠ m.ethernetGeneration then
        (.error "Wi-Fi lifecycle Revoke does not match active generation", w)
      else
        match w.supervisor.revokeGeneration env m.ethernetGeneration with
        | (.error error, supervisor) => (.error error, { w with supervisor })
        | (.ok (), supervisor) =>
          (.ok (some (.revoked m.wifiGeneration m.ethernetGeneration)),
            ⟨{ w.receiver with active := none }, supervisor⟩)

def receive (delivery : Delivery) : Outcome :=
  if w.receiver.closed then (.ok none, w)
  else
    match delivery with
    | .wouldBlock => (.ok none, w)
    | .fault error => (.error error, w)
    | .hangup => w.hangup env
    | .record m descriptors =>
      if m.macAddress ≠ w.supervisor.macAddress then
        (.error "Wi-Fi lifecycle MAC does not match network supervisor", w)
      else
        match m.kind with
        | .install => w.install env m descriptors
        | .revoke => w.revoke env m descriptors

end World

end Drv.Net.LinkGeneration
