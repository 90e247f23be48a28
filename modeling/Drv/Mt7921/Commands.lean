import Drv.Mt7921.Active
import Drv.Softmac.Contract

/-!
# Sequences of firmware commands

`Host` is the board together with what the driver reads of its own
process: the clock and the flags of operation contexts. `FirmwareCommands`
publishes a sequence of commands through the command engine, one at a
time, and checks each completion against what the command expects.
-/

namespace Drv.Mt7921

open Drv.Hardware (Error)
open Drv.Softmac

/-! ## The host -/

/-- Other threads move the clock and clear flags between any two
readings, so each reading may answer anything. -/
structure Host (η : Type) extends Board η where
  instantNow : η → Nat × η
  isLive : OperationContext → η → Bool × η
  activeMcuViews : η → Except Error Unit × η

namespace Host

variable {η : Type} (H : Host η)

/-- One call on the hardware; every failure is `IO`. -/
def port (p : Port) : Eff η Empty Status p.Answer := fun h =>
  ⟨(H.handle p h).1.mapError fun _ => .io, (H.handle p h).2, []⟩

def now : Eff η Empty Status Nat := fun h => ⟨.ok (H.instantNow h).1, (H.instantNow h).2, []⟩

def check (context : OperationContext) (now : Nat) : Eff η Empty Status Unit := fun h =>
  ⟨context.check (H.isLive context h).1 now, (H.isLive context h).2, []⟩

/-- The views that the command engine needs are taken. -/
def takeViews : Eff η Empty Status Unit := fun h =>
  ⟨(H.activeMcuViews h).1.mapError fun _ => .io, (H.activeMcuViews h).2, []⟩

end Host

/-! ## Expected responses -/

inductive RadioResponse where
  | none | ack | clc | unified (cid : UInt8)
  deriving DecidableEq

/-- `parse_clc_set_response`, for the mask it answers. -/
def parseClcSetResponse (bytes : Bytes) : Option UInt8 := do
  let response ← slice bytes 4 72
  if halfAt response 2 ≠ 68 then none
  else if byteAt response 4 &&& ~~~ 0x1f ≠ 0 then none
  else return byteAt response 4

def classifyClcResponse (response : FirmwareRx) : Option UInt8 :=
  if response.response.eventId ≠ 0x80 then none
  else if response.response.option &&& 4 ≠ 0 then none
  else if response.bytes.length < 36 then none
  else parseClcSetResponse (response.bytes.drop 36)

/-- Whether a completion is the one that a command expects. -/
def RadioResponse.accept : RadioResponse → LoaderCompletion → Except Status Unit
  | .none, .noResponse => .ok ()
  | .ack, .response _ => .ok ()
  | .unified cid, .response response =>
    match slice response.bytes 36 44 with
    | Option.none => .error .ioDataIntegrity
    | some body =>
      if byteAt body 0 ≠ cid ∨ (body.drop 4).take 4 ≠ [0, 0, 0, 0] then .error .ioDataIntegrity
      else .ok ()
  | .clc, .response response =>
    match classifyClcResponse response with
    | Option.none => .error .ioDataIntegrity
    | some specialUniiMask => if specialUniiMask ≠ 0 then .error .notSupported else .ok ()
  | _, _ => .error .ioDataIntegrity

/-! ## Command sequences -/

structure FirmwareCommands where
  remaining : List (Bytes × RadioResponse)
  pending : Option (RadioResponse × Nat)
  failed : Bool

/-- A sequence and the engine it is given. -/
structure CommandState (η : Type) where
  commands : FirmwareCommands
  session : Session (η × RxRouting)

abbrev Radio (η α : Type) := Eff (CommandState η) Empty Status α

namespace FirmwareCommands

def new (remaining : List (Bytes × RadioResponse)) : FirmwareCommands := ⟨remaining, none, false⟩

def ready (commands : FirmwareCommands) : Bool :=
  !commands.failed && commands.remaining.isEmpty && commands.pending.isNone

/-- How many commands were discarded, and what is left. -/
def discardQueued (commands : FirmwareCommands) : Nat × FirmwareCommands :=
  (commands.remaining.length, { commands with remaining := [] })

section
variable {η : Type} (H : Host η)

def onHost {α : Type} (x : Eff η Empty Status α) : Radio η α :=
  x.zoom (fun s => s.session.transport.1)
    fun s h => { s with session.transport := (h, s.session.transport.2) }

/-- An operation of the command engine; every failure is `IO`. -/
def onEngine {α : Type} (x : Mcu (η × RxRouting) Error α) : Radio η α :=
  (x.mapError fun _ => .io).zoom CommandState.session fun s session => { s with session := session }

def update (f : FirmwareCommands → FirmwareCommands) : Radio η Unit :=
  Eff.modify fun s => { s with commands := f s.commands }

/-- The context, if there is one, is checked at a time that is read now. -/
def checkNow : Option OperationContext → Radio η Unit
  | none => return ()
  | some context => do
    let now ← onHost H.now
    onHost (H.check context now)

def reclaim (expected : RadioResponse) : Radio η Bool := do
  onHost H.takeViews
  match ← onEngine (LoaderMechanics.pollCommand (activeMcu H.toBoard)) with
  | .pending progressed => return progressed
  | .complete completion => do
    Eff.ofExcept (expected.accept completion)
    update fun c => { c with pending := none }
    return true

variable (now : Nat) (context : Option OperationContext)

def publish : List (Bytes × RadioResponse) →
    Radio η Bool
  | [] => return false
  | (bytes, expected) :: rest => do
    update fun c => { c with remaining := rest }
    onHost H.takeViews
    checkNow H context
    onEngine (LoaderMechanics.beginCommand (activeMcu H.toBoard) bytes
      (if expected = .none then .noResponse else .response))
    update fun c => { c with pending := some (expected, now + seconds 3) }
    return true

def step : Radio η Bool := do
  let s ← Eff.look id
  if s.commands.failed then Eff.fail .badState
  else
    match s.commands.pending with
    | some (expected, deadline) =>
      if now ≥ deadline then Eff.fail .timedOut else reclaim H expected
    | none =>
      if s.session.mechanics.activeCommandSlot.isSome then return false
      else publish H now context s.commands.remaining

/-- The context, if there is one, is checked at the time of the turn. -/
def checkTurn : Option OperationContext → Radio η Unit
  | none => return ()
  | some context => onHost (H.check context now)

def drive : Radio η Bool := do
  match ← (do checkTurn H now context; step H now context : Radio η Bool).attempt with
  | .ok progressed => return progressed
  | .error status => do
    update fun c => { c with failed := true }
    Eff.fail status

end

end FirmwareCommands

end Drv.Mt7921
