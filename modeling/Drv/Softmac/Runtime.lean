import Mathlib.Data.List.Basic

/-!
# The Ethernet devices of a client runtime

A link-up hands out the peer of the driver's port, which waits in a queue
until it is taken. A link-down clears the queue and closes the port; a
cleanup and a stop only close it.
-/

namespace Drv.Softmac

/-- Ports are numbered as they are made; a device has the number of its port. -/
structure DriverEthernetPort where
  id : Nat
  fd : Bool := true
  properties : Bool := true

namespace DriverEthernetPort

variable (p : DriverEthernetPort)

def isClosed : Bool := !p.fd

/-- The descriptor is closed with the link. -/
def setLink (up : Bool) : DriverEthernetPort :=
  if p.properties then { p with fd := p.fd && up } else p

def teardown : DriverEthernetPort :=
  if p.properties then { p with properties := false, fd := false } else p

/-- A device is the peer of the port, which is open. -/
def Serves (device : Nat) : Prop := p.id = device ∧ p.isClosed = false

end DriverEthernetPort

structure HostIo where
  ethernet : DriverEthernetPort := { id := 0 }
  unpublishedEthernetDevice : Option Nat := some 0
  pendingEthernetDevices : List Nat := []

/-- The epochs are numbered, the service's is 0. `linking` is the epoch and the local `host` of
a link-up that waits for the driver. -/
structure ClientRuntime where
  io : HostIo := {}
  epoch : Nat := 1
  live : List Nat := [0, 1]
  cleanup : Bool := false
  linking : Option (Nat × Option Nat) := none

namespace ClientRuntime

variable (r : ClientRuntime)

def setPort (ethernet : DriverEthernetPort) : ClientRuntime :=
  { r with io := { r.io with ethernet } }

/-- `set_ethernet_status` until it waits; `made` is whether a port could be made. -/
def setEthernetStatus (epoch : Nat) (up made : Bool) : ClientRuntime :=
  if epoch ∉ r.live then r
  else if !up then { r with io := ⟨r.io.ethernet.setLink false, none, []⟩ }
  else if r.io.ethernet.isClosed then
    let r := { r with io := { r.io with pendingEthernetDevices := [] } }
    let host := r.io.ethernet.id + 1
    if made then { r.setPort { id := host } with linking := some (epoch, some host) } else r
  else { r with
    io := { r.io with unpublishedEthernetDevice := none }
    linking := some (epoch, r.io.unpublishedEthernetDevice) }

/-- The rest of a link-up. -/
def linked (epoch : Nat) (host : Option Nat) (answered : Bool) : ClientRuntime :=
  if !answered then { r with io := ⟨r.io.ethernet.teardown, none, []⟩ }
  else if epoch ∉ r.live then r
  else { r with io := { r.io with
    ethernet := r.io.ethernet.setLink true
    pendingEthernetDevices := host.elim r.io.pendingEthernetDevices fun host => [host] } }

def takeEthernetDevice : Option Nat × ClientRuntime :=
  (r.io.pendingEthernetDevices.head?,
    { r with io := { r.io with pendingEthernetDevices := r.io.pendingEthernetDevices.tail } })

def revoke (epoch : Nat) : ClientRuntime :=
  { r with live := r.live.filter (· ≠ epoch) }

def requestStop : ClientRuntime := ((r.revoke r.epoch).revoke 0).setPort r.io.ethernet.teardown

def beginEpoch : ClientRuntime :=
  { r with epoch := r.epoch + 1, live := (r.epoch + 1) :: (r.revoke r.epoch).live }

/-- A cleanup that cannot send its requests stops the runtime. -/
def beginCleanup (sent : Bool) : ClientRuntime :=
  if r.cleanup then r
  else
    let r := r.beginEpoch.setPort (r.io.ethernet.setLink false)
    if sent then { r with cleanup := true } else r.requestStop

/-- The end of `drive_disconnect_once_inner`. -/
def finishCleanup (r : ClientRuntime) : ClientRuntime :=
  if r.cleanup then { r.revoke r.epoch with cleanup := false } else r

inductive Op where
  | setEthernetStatus (epoch : Nat) (up made : Bool)
  | linkAnswered (answered : Bool)
  | takeEthernetDevice
  | beginEpoch
  | beginCleanup (sent : Bool)
  | finishCleanup
  | requestStop

/-- The protocol has one call at a time. -/
def step : Op → ClientRuntime
  | .setEthernetStatus epoch up made =>
    if r.linking.isSome then r else r.setEthernetStatus epoch up made
  | .linkAnswered answered =>
    match r.linking with
    | none => r
    | some (epoch, host) => { r with linking := none }.linked epoch host answered
  | .takeEthernetDevice => r.takeEthernetDevice.2
  | .beginEpoch => r.beginEpoch
  | .beginCleanup sent => r.beginCleanup sent
  | .finishCleanup => r.finishCleanup
  | .requestStop => r.requestStop

end ClientRuntime

end Drv.Softmac
