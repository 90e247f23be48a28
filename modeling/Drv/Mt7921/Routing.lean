import Drv.Hardware.Backend
import Drv.Mt7921.Mechanics

/-!
# Ownership of the MCU receive rings

`RxRouting` stands between the command engine and the hardware: a frame
is prepared when its descriptor was consumed, its replacement is given
to the device, the producer index is written, and only then does the
frame become an event. Each slot counts the times it was armed. One flag
is shared with the events that were taken; `abort` clears it for good.

The flag is an `Arc` in the source. Here an owner has a number, which its
events carry: an event is live while the owner of its number is.
-/

namespace Drv.Mt7921

open Drv.Hardware (Error)

def eventCapacity : Nat := 64

structure Slot where
  ring : McuRxIrqRing
  index : Fin 8

def Slot.new (ring : McuRxIrqRing) (index : UInt16) : Except Error Slot :=
  if h : index.toNat < 8 then .ok ⟨ring, index.toNat, h⟩ else .error .outOfBounds

/-- A slot is compared with a ring and an index that may be out of
bounds. -/
def Slot.is (slot : Slot) (ring : McuRxIrqRing) (index : UInt16) : Bool :=
  slot.ring = ring ∧ slot.index.val = index.toNat

inductive SlotState where
  | available (generation : Nat)
  | armed (generation : Nat)
  deriving DecidableEq

structure Occurrence where
  slot : Slot
  generation : Nat

structure Prepared where
  occurrence : Occurrence
  posted : Slot
  route : Option McuRxRoute

structure ReceivedEvent where
  occurrence : Occurrence
  owner : Nat
  route : Option McuRxRoute

inductive PendingRx where
  | prepared (prepared : Prepared)
  | reposted (prepared : Prepared)
  | committed (event : ReceivedEvent)

structure RxRouting where
  slots : McuRxIrqRing → Fin 8 → SlotState
  pending : Option PendingRx
  events : List ReceivedEvent
  owner : Nat
  live : Bool

namespace RxRouting

/-- All slots but the last are armed. -/
def default (owner : Nat) : RxRouting where
  slots _ index := if index = 7 then .available 0 else .armed 1
  pending := none
  events := []
  owner := owner
  live := true

variable (r : RxRouting)

def setSlot (slot : Slot) (state : SlotState) : RxRouting :=
  { r with slots := fun ring index =>
      if ring = slot.ring ∧ index = slot.index then state else r.slots ring index }

def abort : RxRouting := { r with live := false, pending := none, events := [] }

def fault {η : Type} (r : RxRouting) (error : Error) (h : η) : Except Error Unit × η × RxRouting :=
  (.error error, h, r.abort)

/-- The matched response goes to the command that waits for it. -/
def offered (route : McuRxRoute) (disposition : Option FirmwareRxDisposition) : Option McuRxRoute :=
  match route with
  | .firmware response =>
    if disposition = some .matched then none else some (.firmware response)
  | route => some route

section
variable {η : Type} (r : RxRouting)

section
variable (ring : McuRxIrqRing)

def prepare (consumed posted : UInt16)
    (route : Except McuRxRouteError McuRxRoute) (disposition : Option FirmwareRxDisposition)
    (h : η) : Except Error Unit × η × RxRouting :=
  if r.live = false then (.error .staleHandle, h, r)
  else if r.pending.isSome then r.fault .deviceFault h
  else
    match Slot.new ring consumed, Slot.new ring posted with
    | .ok slot, .ok posted =>
      match r.slots slot.ring slot.index with
      | .available _ => r.fault .staleHandle h
      | .armed generation =>
        match route with
        | .error _ => r.fault .deviceFault h
        | .ok route =>
          (.ok (), h, { r.setSlot slot (.available generation) with
            pending := some (.prepared ⟨⟨slot, generation⟩, posted, offered route disposition⟩) })
    | _, _ => r.fault .outOfBounds h

/-- `writeDescriptor` is what the caller does to the hardware. -/
def repost (posted : UInt16) (writeDescriptor : η → Except Error Unit × η)
    (h : η) : Except Error Unit × η × RxRouting :=
  match r.pending with
  | some (.prepared prepared) =>
    if prepared.posted.is ring posted then
      match r.slots prepared.posted.ring prepared.posted.index with
      | .armed _ => r.fault .deviceFault h
      | .available generation =>
        if generation + 1 < 2 ^ 64 then
          match writeDescriptor h with
          | (.error error, h) => r.fault error h
          | (.ok _, h) =>
            (.ok (), h, { r.setSlot prepared.posted (.armed (generation + 1)) with
              pending := some (.reposted prepared) })
        else r.fault .limit h
    else r.fault .invalid h
  | _ => r.fault .deviceFault h

/-- `writeIndex` is what the caller does to the hardware. -/
def publish (producer : UInt16) (writeIndex : η → Except Error Unit × η)
    (h : η) : Except Error Unit × η × RxRouting :=
  match r.pending with
  | some (.reposted prepared) =>
    if prepared.occurrence.slot.is ring producer then
      match writeIndex h with
      | (.error error, h) => r.fault error h
      | (.ok _, h) =>
        (.ok (), h, { r with
          pending := some (.committed ⟨prepared.occurrence, r.owner, prepared.route⟩) })
    else r.fault .invalid h
  | _ => r.fault .deviceFault h

def complete (consumed : UInt16) (h : η) :
    Except Error Unit × η × RxRouting :=
  match r.pending with
  | some (.committed event) =>
    if event.occurrence.slot.is ring consumed then
      if event.route.isSome then
        if r.events.length = eventCapacity then r.fault .limit h
        else (.ok (), h, { r with pending := none, events := r.events ++ [event] })
      else (.ok (), h, { r with pending := none })
    else r.fault .invalid h
  | _ => r.fault .deviceFault h

end

end

def takeEvent : Option ReceivedEvent × RxRouting :=
  (r.events.head?, { r with events := r.events.tail })

/-- The rings are rebuilt under another owner. -/
def rebaseAfterWpdmaReset : RxRouting := default (r.owner + 1)

/-- The flag that an event was given. -/
def holds (event : ReceivedEvent) : Bool := r.live && event.owner == r.owner

end RxRouting

/-- `into_route` -/
def ReceivedEvent.intoRoute (event : ReceivedEvent) (r : RxRouting) : Except Error McuRxRoute :=
  if r.holds event then
    match event.route with
    | some route => .ok route
    | none => .error .invalid
  else .error .staleHandle

end Drv.Mt7921
