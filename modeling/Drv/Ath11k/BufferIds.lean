import Drv.Ath11k.State

/-!
# Identifiers of buffers in flight

`allocate_msdu_id` and `next_unused_rx_buffer_id` take the first identifier
from a cursor on, around the end of their range, that is not in use.
-/

namespace Drv.Ath11k

def maxMsduId : Nat := 32766
def rxBufferIdMask : Nat := 0x3ffff

/-- The loop of both: `turns` candidates, and after `last` comes `first`. -/
def nextUnused (candidate : Nat → Nat) (first last : Nat) (isUsed : Nat → Bool) :
    (turns next : Nat) → Except DpError Nat × Nat
  | 0, next => (.error .noResources, next)
  | turns + 1, next =>
    let id := candidate next
    let next := if id = last then first else id + 1
    if isUsed id then nextUnused candidate first last isUsed turns next else (.ok id, next)

structure PendingTx (β : Type) where
  msduId : Nat
  buffer : β

def allocateMsduId {β : Type} (pending : List (PendingTx β)) (nextMsduId : Nat) :
    Except DpError Nat × Nat :=
  nextUnused (fun next => next) 0 maxMsduId (fun id => pending.any (·.msduId = id)) (maxMsduId + 1)
    nextMsduId

def nextUnusedRxBufferId (isUsed : Nat → Bool) (next : Nat) : Except DpError Nat × Nat :=
  nextUnused (fun next => max (next &&& rxBufferIdMask) 1) 1 rxBufferIdMask isUsed rxBufferIdMask
    next

/-- The values of `next_msdu_id`: it starts at zero, and frames are sent and
completed between two calls. -/
inductive MsduCursor (β : Type) : Nat → Prop
  | new : MsduCursor β 0
  | allocated {next : Nat} (_ : MsduCursor β next) (pending : List (PendingTx β)) :
    MsduCursor β (allocateMsduId pending next).2

end Drv.Ath11k
