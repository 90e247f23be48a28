import Drv.Hardware.Views

/-!
# Pools of DMA segments

A pool carves pages into fixed-size streaming segments. A refill keeps
one segment for its caller and puts the others on the free list up to
the high watermark; segments beyond it are dropped. A dropped segment
goes back on the free list unless the CPU may still hold unpublished
data in it.
-/

namespace Drv.Hardware

structure DmaPool (D : Type) where
  shared : Nat
  segmentSize : Nat
  pageSize : Nat
  alignment : Nat
  highWatermark : Nat
  free : List (DmaBuffer D)

/-- A segment held by the driver. -/
structure DmaSegment (D : Type) where
  dma : DmaBuffer D
  reusable : Bool

namespace DmaPool

variable {β R D I : Type}

def new (shared segmentSize pageSize alignment highWatermark : Nat) : Except Error (DmaPool D) :=
  if segmentSize = 0 ∨ pageSize < segmentSize ∨ pageSize % segmentSize ≠ 0 ∨ alignment = 0 ∨
      ¬ isPowerOfTwo alignment ∨ segmentSize % alignment ≠ 0 then .error .invalid
  else .ok { shared, segmentSize, pageSize, alignment, highWatermark, free := [] }

/-- Put a segment on the free list below the watermark, else drop it. -/
def keep (p : DmaPool D) (segment : DmaBuffer D) : DmaPool D :=
  if p.free.length < p.highWatermark then { p with free := p.free ++ [segment] } else p

/-- The loop of a refill: split off `count` segments, keeping the rest.
The pool beside the backend holds what was put on the free list, also
when a split fails. -/
def carve (B : Backend β R D I) : Nat → DmaBuffer D →
    Eff (β × DmaPool D) (Method R D I) Error (DmaBuffer D)
  | 0, remainder => return remainder
  | count + 1, remainder => do
    let pool ← Eff.look Prod.snd
    let (segment, rest) ← remainder.splitAt (B.beside _) pool.segmentSize
    Eff.modify fun s => (s.1, s.2.keep segment)
    carve B count rest

/-- A refill that fails drops the remainder of its page, and the page with
it unless a free segment still shares it. -/
def abandon (B : Backend β R D I) (page : DmaBuffer D) (e : Error) :
    Eff (β × DmaPool D) (Method R D I) Error (DmaBuffer D) := do
  let pool ← Eff.look Prod.snd
  if pool.free.any (·.allocation.id == page.allocation.id) then Eff.fail e
  else do
    let _ ← ((B.beside _).perform (.releaseDma page.allocation.token)).attempt
    Eff.fail e

/-- Allocate a page and carve it. -/
def refill (B : Backend β R D I) (id : Nat) (dir : DmaDirection) :
    Eff (β × DmaPool D) (Method R D I) Error (DmaBuffer D) := do
  let pool ← Eff.look Prod.snd
  let page ← DmaBuffer.allocate (B.beside _) pool.shared id pool.pageSize
    (.new pool.alignment) dir false
  match ← (carve B (pool.pageSize / pool.segmentSize - 1) page).attempt with
  | .ok segment => return segment
  | .error e => abandon B page e

def allocate (B : Backend β R D I) (id : Nat) (dir : DmaDirection) :
    Eff (β × DmaPool D) (Method R D I) Error (DmaSegment D) := do
  let pool ← Eff.look Prod.snd
  match pool.free.getLast? with
  | some dma => do
    Eff.modify fun s => (s.1, { s.2 with free := s.2.free.dropLast })
    return { dma, reusable := true }
  | none => do
    let dma ← refill B id dir
    return { dma, reusable := true }

end DmaPool

end Drv.Hardware
