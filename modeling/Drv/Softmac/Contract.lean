import Mathlib.Logic.Basic

/-!
# Statuses and operation authority

What protocol owners and drivers share: the status of a failed call, and
the context under which an operation may still be published. Times are
readings of one monotonic clock, in nanoseconds.
-/

namespace Drv.Softmac

/-- `zx::Status`, an integer of which these values have a name here. -/
inductive Status where
  | internal | notSupported | noResources | invalidArgs | timedOut | shouldWait | canceled
  | badState | io | ioDataIntegrity | peerClosed
  | other (raw : Int)
  deriving DecidableEq

/-- `Duration::from_secs` -/
def seconds (n : Nat) : Nat := n * 1000000000

/-- `Duration::from_millis` -/
def millis (n : Nat) : Nat := n * 1000000

/-- Epochs are flags shared by reference; a number stands for the flag. -/
structure OperationContext where
  epoch : Nat
  parent : Option Nat
  deadline : Nat

namespace OperationContext

/-- `check`, with the answer of `is_live`. -/
def check (context : OperationContext) (isLive : Bool) (now : Nat) : Except Status Unit :=
  if !isLive then .error .canceled
  else if now ≥ context.deadline then .error .timedOut
  else .ok ()

end OperationContext

end Drv.Softmac
