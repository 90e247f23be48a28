import Drv.Base.Bytes

/-!
# Namespace generations of the kernel frontend

A network namespace is served by one provider generation at a time. A
generation starts with an explicit registration or with the first `ensure`,
and everything that ends one goes through `stop`: the release of its
provider, its monitor or the provisioner, REVOKE, the end of the namespace,
a CLAIM that fails half way, and a call of `ensure` that waited too long.

Calls interleave between their critical sections, so an event is one of
these. A call that finds no memory changes nothing, and is an event only
where it answers a caller of `ensure`.
-/

namespace Drv.Net.Namespaces

open Function (update)

inductive Errno where
  | ebusy | eintr | enetdown | enomem | enospc | eoverflow | etimedout
  deriving DecidableEq

def maxNamespaces : Nat := 64
def timeoutMs : Nat := 10000

inductive Owner where
  | unassigned | explicit | lazy
  deriving DecidableEq

inductive Phase where
  | idle | pending | serving | ready | dead
  deriving DecidableEq

def msecsToJiffies (hz ms : Nat) : Nat := (ms * hz + 999) / 1000

/-- The start is in microseconds. -/
structure Deadline where
  start : Nat
  ticks : Nat
  deriving DecidableEq

def Deadline.remaining (hz now : Nat) (d : Deadline) : Nat :=
  let micros := now - d.start
  d.ticks - (micros / 1000000 * hz + micros % 1000000 * hz / 1000000)

/-- What becomes of the `Provider` of a generation: CLAIM makes it before it
installs it. -/
inductive Holder where
  | absent | claimed | installed
  deriving DecidableEq

/-- The lifecycle of a namespace, with the provider and the monitor that
each of its generations has. -/
structure Lifecycle where
  owner : Owner := .unassigned
  phase : Phase := .idle
  generation : Nat := 0
  live : Nat := 0
  provider : Nat → Holder := fun _ => .absent
  monitor : Nat → Bool := fun _ => false

def Lifecycle.stop (l : Lifecycle) (dead : Bool) : Lifecycle :=
  { l with live := 0, phase := if dead then .dead else .idle }

/-- A call of `ensure`: past its first critical section, in its loop, out of
time and about to `fail` the generation, or returned. -/
inductive Caller where
  | absent
  | joined (ns generation : Nat)
  | waiting (ns generation : Nat) (deadline : Deadline)
  | expired (ns generation : Nat)
  | returned (result : Except Errno Nat)
  deriving DecidableEq

/-- The registry of the broker, the namespaces and the calls of `ensure`. -/
structure World where
  hz : Nat
  now : Nat := 0
  connected : Bool := false
  namespaces : List Nat := []
  lifecycle : Nat → Lifecycle := fun _ => {}
  callers : Nat → Caller := fun _ => .absent

namespace World

variable (w : World)

def set (ns : Nat) (l : Lifecycle) : World :=
  { w with lifecycle := update w.lifecycle ns l }

def setCaller (i : Nat) (caller : Caller) : World :=
  { w with callers := update w.callers i caller }

/-- `stop`, and the namespace is taken off the list. -/
def stopListed (ns : Nat) (dead : Bool) : World :=
  { w.set ns ((w.lifecycle ns).stop dead) with namespaces := w.namespaces.filter (· ≠ ns) }

def fail (ns generation : Nat) : World :=
  let l := w.lifecycle ns
  if l.generation ≠ generation || l.phase = .dead || l.phase = .idle then w
  else w.stopListed ns false

/-! ## The broker -/

def register (ns : Nat) : Except Errno World :=
  let l := w.lifecycle ns
  if l.phase = .dead then .error .enetdown
  else if l.owner = .lazy || l.phase ≠ .idle then .error .ebusy
  else if l.generation + 1 ≥ 2 ^ 64 then .error .eoverflow
  else
    let generation := l.generation + 1
    .ok (w.set ns { l with
      owner := .explicit, generation, phase := .serving, live := generation,
      provider := update l.provider generation .installed })

def revokeNamespace (ns : Nat) : World := w.stopListed ns true

/-- The first critical section of `ensure`, of which a caller returns or
joins a generation. -/
def ensure (i ns : Nat) (oom : Bool) : World :=
  let l := w.lifecycle ns
  let answer result := w.setCaller i (.returned result)
  match l.phase with
  | .ready => answer (.ok l.generation)
  | .dead => answer (.error .enetdown)
  | .pending | .serving => w.setCaller i (.joined ns l.generation)
  | .idle =>
    if l.owner = .explicit || !w.connected then answer (.error .enetdown)
    else if w.namespaces.length ≥ maxNamespaces then answer (.error .enospc)
    else if l.generation + 1 ≥ 2 ^ 64 then answer (.error .eoverflow)
    else if oom then answer (.error .enomem)
    else
      let generation := l.generation + 1
      let w := w.set ns { l with owner := .lazy, generation, phase := .pending }
      { w with namespaces := w.namespaces ++ [ns] }.setCaller i (.joined ns generation)

/-- One turn of the loop of `ensure`, whose first takes the time. -/
def ensureTurn (i : Nat) (signal : Bool) : World :=
  let answer result := w.setCaller i (.returned result)
  match w.callers i with
  | .joined ns generation =>
    w.setCaller i (.waiting ns generation ⟨w.now, msecsToJiffies w.hz timeoutMs⟩)
  | .waiting ns generation deadline =>
    let l := w.lifecycle ns
    if l.generation ≠ generation then answer (.error .enetdown)
    else if l.phase = .ready then answer (.ok generation)
    else if l.phase = .idle || l.phase = .dead then answer (.error .enetdown)
    else if deadline.remaining w.hz w.now = 0 then w.setCaller i (.expired ns generation)
    else if signal then answer (.error .eintr)
    else w
  -- The lock was dropped in between.
  | .expired ns generation => (w.fail ns generation).setCaller i (.returned (.error .etimedout))
  | _ => w

/-! ## The provisioner -/

def releaseProvisioner : World :=
  let stop (w : World) ns := w.set ns ((w.lifecycle ns).stop false)
  { w.namespaces.foldl stop w with connected := false, namespaces := [] }

/-- The first half of CLAIM takes the first namespace that is pending. -/
def claim : World :=
  match w.namespaces.find? fun ns => (w.lifecycle ns).phase = .pending with
  | none => w
  | some ns =>
    let l := w.lifecycle ns
    w.set ns { l with
      live := l.generation, phase := .serving,
      provider := update l.provider l.generation .claimed }

section
variable (ns generation : Nat)

/-- The second half installs the provider and its monitor, or fails. -/
def install (ok : Bool) : World :=
  let l := w.lifecycle ns
  if ok then
    w.set ns { l with
      provider := update l.provider generation .installed
      monitor := update l.monitor generation true }
  else
    (w.set ns { l with provider := update l.provider generation .absent }).fail
      ns generation

/-! ## Providers and monitors -/

def ready : Except Errno World :=
  let l := w.lifecycle ns
  if l.live ≠ generation then .error .enetdown else .ok (w.set ns { l with phase := .ready })

def releaseProvider : World :=
  let l := w.lifecycle ns
  (w.set ns { l with provider := update l.provider generation .absent }).fail ns generation

def releaseMonitor : World :=
  let l := w.lifecycle ns
  (w.set ns { l with monitor := update l.monitor generation false }).fail ns generation

end

end World

/-! ## Runs -/

inductive Event where
  | advance (micros : Nat)
  | openProvisioner
  | releaseProvisioner
  | register (ns : Nat)
  | revokeNamespace (ns : Nat)
  | ensure (i ns : Nat) (oom : Bool)
  | ensureTurn (i : Nat) (signal : Bool)
  | claim
  | install (ns generation : Nat) (ok : Bool)
  | ready (ns generation : Nat)
  | releaseProvider (ns generation : Nat)
  | releaseMonitor (ns generation : Nat)
  | revoke (ns generation : Nat)

/-- A call needs the file it is made on, and a new caller a name that is
not in use. -/
def World.Able (w : World) : Event → Bool
  | .releaseProvisioner | .claim => w.connected
  | .ensure i .. => w.callers i = .absent
  | .install ns generation _ => (w.lifecycle ns).provider generation = .claimed
  | .ready ns generation | .releaseProvider ns generation =>
    (w.lifecycle ns).provider generation = .installed
  | .releaseMonitor ns generation | .revoke ns generation => (w.lifecycle ns).monitor generation
  | _ => true

def World.act (w : World) : Event → World
  | .advance micros => { w with now := w.now + micros }
  | .openProvisioner => { w with connected := true }
  | .releaseProvisioner => w.releaseProvisioner
  | .register ns => (w.register ns).toOption.getD w
  | .revokeNamespace ns => w.revokeNamespace ns
  | .ensure i ns oom => w.ensure i ns oom
  | .ensureTurn i signal => w.ensureTurn i signal
  | .claim => w.claim
  | .install ns generation ok => w.install ns generation ok
  | .ready ns generation => (w.ready ns generation).toOption.getD w
  | .releaseProvider ns generation => w.releaseProvider ns generation
  | .releaseMonitor ns generation => w.releaseMonitor ns generation
  | .revoke ns generation => w.fail ns generation

def World.step (w : World) (e : Event) : World := if w.Able e then w.act e else w

def run (hz : Nat) (es : List Event) : World := es.foldl World.step { hz }

end Drv.Net.Namespaces
