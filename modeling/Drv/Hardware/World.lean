import Drv.Hardware.Pool

/-!
# A driver at work

The state of a run: the backend, every handle the driver holds, and its
pools with their free and live segments. One `Op` is one call the driver
makes, on a handle it names by position, or the drop of a handle; the
step answers the new state and the backend calls that were made.

Handles share allocations by reference count, so a drop releases the
backend token exactly when no other handle of that allocation is left.
-/

namespace Drv.Hardware

/-- The typed accessors of a DMA buffer. -/
inductive DmaOp where
  | coherentWrite (offset : Nat) (bytes : Bytes)
  | coherentWritePod (align offset : Nat) (value : Bytes)
  | coherentWriteOnce (offset : Nat) (value : UInt32)
  | coherentRead (offset len : Nat)
  | coherentReadPod (size align offset : Nat)
  | coherentReadOnce (offset : Nat)
  | streamingWrite (offset : Nat) (bytes : Bytes)
  | streamingWritePod (align offset : Nat) (value : Bytes)
  | streamingWriteOnce (offset : Nat) (value : UInt32)
  | syncForDevice (offset len : Nat)
  | acquireForCpu (offset len : Nat)
  | refreshForCpu (offset len : Nat)
  | syncForCpu (offset len : Nat)
  | streamingRead (offset len : Nat)
  | streamingReadPod (size align offset : Nat)
  | streamingReadOnce (offset : Nat)
  | prepareForDevice (offset len : Nat)

/-- Run an accessor; what it reads is of no concern here. -/
def DmaOp.run {β R D I : Type} (B : Backend β R D I) : DmaOp → Mut β R D I Unit
  | coherentWrite o bs => CoherentDma.write B o bs
  | coherentWritePod a o v => CoherentDma.writePod B a o v
  | coherentWriteOnce o v => CoherentDma.writeOnce B o v
  | coherentRead o n => do let _ ← CoherentDma.read B o n
  | coherentReadPod n a o => do let _ ← CoherentDma.readPod B n a o
  | coherentReadOnce o => do let _ ← CoherentDma.readOnce B o
  | streamingWrite o bs => StreamingDma.write B o bs
  | streamingWritePod a o v => StreamingDma.writePod B a o v
  | streamingWriteOnce o v => StreamingDma.writeOnce B o v
  | syncForDevice o n => StreamingDma.syncForDevice B o n
  | acquireForCpu o n => StreamingDma.acquireForCpu B o n
  | refreshForCpu o n => StreamingDma.refreshForCpu B o n
  | syncForCpu o n => StreamingDma.syncForCpu B o n
  | streamingRead o n => do let _ ← StreamingDma.read B o n
  | streamingReadPod n a o => do let _ ← StreamingDma.readPod B n a o
  | streamingReadOnce o => do let _ ← StreamingDma.readOnce B o
  | prepareForDevice o n => StreamingDma.prepareForDevice B o n

/-- The methods of a pool segment. -/
inductive SegmentOp where
  | write (offset : Nat) (bytes : Bytes)
  | syncForDevice (offset len : Nat)
  | read (offset len : Nat)
  | syncForCpu (offset len : Nat)
  | prepareForDevice

def SegmentOp.dmaOp (len : Nat) : SegmentOp → DmaOp
  | write o bs => .streamingWrite o bs
  | syncForDevice o n => .syncForDevice o n
  | read o n => .streamingRead o n
  | syncForCpu o n => .syncForCpu o n
  | prepareForDevice => .prepareForDevice 0 len

/-- Whether the segment may be reused after the method succeeded. -/
def SegmentOp.reusable (before : Bool) : SegmentOp → Bool
  | write .. | syncForCpu .. => false
  | syncForDevice .. | prepareForDevice => true
  | read .. => before

/-- A pool, whether a handle of it is left, and the segments held. -/
structure PoolState (D : Type) where
  pool : DmaPool D
  alive : Bool
  live : List (DmaSegment D)

/-- Every segment of the pool that still exists. -/
def PoolState.segments {D : Type} (p : PoolState D) : List (DmaBuffer D) :=
  p.pool.free ++ p.live.map DmaSegment.dma

structure World (β R D : Type) where
  backend : β
  regions : List (MmioRegion R)
  buffers : List (DmaBuffer D)
  addresses : List (DeviceAddress D)
  pools : List (PoolState D)
  nextId : Nat

inductive Op where
  | openRegion (index : UInt8)
  | openRegionSized (index : UInt8) (expectedSize : Nat)
  | slice (view offset len : Nat)
  | mapOffsets (view : Nat) (mapper : Nat → Option Nat)
  | readU32 (view offset : Nat)
  | writeU32 (view offset : Nat) (value : UInt32)
  | writeDeviceAddress (view low : Nat) (high : Option Nat) (address : Nat)
  | dropRegion (view : Nat)
  | alloc (size : UInt64) (constraints : DmaConstraints) (dir : DmaDirection) (coherent : Bool)
  | split (buffer offset : Nat)
  | bufferAddress (buffer offset : Nat)
  | access (buffer : Nat) (op : DmaOp)
  | dropBuffer (buffer : Nat)
  | newPool (segmentSize pageSize alignment highWatermark : UInt64)
  | allocSegment (pool : Nat) (dir : DmaDirection)
  | segmentAddress (pool segment offset : Nat)
  | accessSegment (pool segment : Nat) (op : SegmentOp)
  | dropSegment (pool segment : Nat)
  | dropPool (pool : Nat)
  | reset

namespace World

variable {β R D I : Type}

def init (backend : β) : World β R D := ⟨backend, [], [], [], [], 0⟩

variable (w : World β R D)

/-- Every DMA view that exists, wherever it is kept. -/
def views : List (DmaBuffer D) := w.buffers ++ w.pools.flatMap PoolState.segments

variable (B : Backend β R D I)

/-- Call the backend outside any view, ignoring the answer. -/
def tell (m : Method R D I) : World β R D × List (Method R D I) :=
  ({ w with backend := (B.exec m w.backend).2 }, [m])

/-- The drop of a view that `w` no longer holds. -/
def release (b : DmaBuffer D) : World β R D × List (Method R D I) :=
  if w.views.any (·.allocation.id == b.allocation.id) then (w, [])
  else w.tell B (.releaseDma b.allocation.token)

/-- The drops of a pool's free segments, in order. -/
def releaseAll (B : Backend β R D I) : World β R D → List (DmaBuffer D) →
    World β R D × List (Method R D I)
  | w, [] => (w, [])
  | w, b :: rest =>
    -- the segments still to be dropped hold their allocation too
    if rest.any (·.allocation.id == b.allocation.id) then releaseAll B w rest
    else
      let (w, calls) := w.release B b
      let (w, more) := releaseAll B w rest
      (w, calls ++ more)

def dropRegion (view : Nat) (r : MmioRegion R) : World β R D × List (Method R D I) :=
  let w := { w with regions := w.regions.eraseIdx view }
  if w.regions.any (·.allocation.id == r.allocation.id) then (w, [])
  else w.tell B (.releaseRegion r.allocation.token)

def stepRegion (view : Nat) (r : MmioRegion R) : Op → World β R D × List (Method R D I)
  | .slice _ offset len =>
    let o := r.slice B offset len w.backend
    ({ w with backend := o.state, regions := w.regions ++ o.result.toOption.toList }, o.calls)
  | .mapOffsets _ mapper =>
    match r.mapOffsets mapper with
    | .ok r' => ({ w with regions := w.regions.set view r' }, [])
    | .error _ => w.dropRegion B view r
  | .readU32 _ offset =>
    let o := r.readU32 B offset w.backend
    ({ w with backend := o.state }, o.calls)
  | .writeU32 _ offset value =>
    let o := r.writeU32 B offset value w.backend
    ({ w with backend := o.state }, o.calls)
  | .writeDeviceAddress _ low high address =>
    match w.addresses[address]? with
    | none => (w, [])
    | some a =>
      let o := r.writeDeviceAddress B low high a w.backend
      ({ w with backend := o.state }, o.calls)
  | .dropRegion _ => w.dropRegion B view r
  | _ => (w, [])

def stepBuffer (buffer : Nat) (b : DmaBuffer D) : Op → World β R D × List (Method R D I)
  | .split _ offset =>
    let o := b.splitAt B offset w.backend
    let w := { w with backend := o.state, buffers := w.buffers.eraseIdx buffer }
    match o.result with
    | .ok (left, right) => ({ w with buffers := left :: right :: w.buffers }, o.calls)
    | .error _ =>
      let (w, calls) := w.release B b
      (w, o.calls ++ calls)
  | .bufferAddress _ offset =>
    let o := b.deviceAddressAt B offset w.backend
    ({ w with backend := o.state, addresses := w.addresses ++ o.result.toOption.toList }, o.calls)
  | .access _ op =>
    let o := op.run B (w.backend, b)
    ({ w with backend := o.state.1, buffers := w.buffers.set buffer o.state.2 }, o.calls)
  | .dropBuffer _ => { w with buffers := w.buffers.eraseIdx buffer }.release B b
  | _ => (w, [])

def stepSegment (pool : Nat) (p : PoolState D) (segment : Nat) (s : DmaSegment D) :
    Op → World β R D × List (Method R D I)
  | .segmentAddress _ _ offset =>
    let o := s.dma.deviceAddressAt B offset w.backend
    ({ w with backend := o.state, addresses := w.addresses ++ o.result.toOption.toList }, o.calls)
  | .accessSegment _ _ op =>
    let o := (op.dmaOp s.dma.len).run B (w.backend, s.dma)
    let reusable := match o.result with
      | .ok _ => op.reusable s.reusable
      | .error _ => s.reusable
    let p := { p with live := p.live.set segment ⟨o.state.2, reusable⟩ }
    ({ w with backend := o.state.1, pools := w.pools.set pool p }, o.calls)
  | .dropSegment _ _ =>
    let p := { p with live := p.live.eraseIdx segment }
    if s.reusable && p.alive && p.pool.free.length < p.pool.highWatermark then
      let p := { p with pool := p.pool.keep s.dma }
      ({ w with pools := w.pools.set pool p }, [])
    else { w with pools := w.pools.set pool p }.release B s.dma
  | _ => (w, [])

def stepPool (pool : Nat) (p : PoolState D) : Op → World β R D × List (Method R D I)
  | .allocSegment _ dir =>
    if p.alive then
      let o := DmaPool.allocate B w.nextId dir (w.backend, p.pool)
      let p := { p with pool := o.state.2, live := o.result.toOption.toList ++ p.live }
      ({ w with backend := o.state.1, pools := w.pools.set pool p, nextId := w.nextId + 1 },
        o.calls)
    else (w, [])
  | .dropPool _ =>
    let dropped := p.pool.free
    let p := { p with pool := { p.pool with free := [] }, alive := false }
    releaseAll B { w with pools := w.pools.set pool p } dropped
  | _ => (w, [])

/-- A position with no handle behind it is no call at all. -/
def onHandle {α : Type} (handle : Option α) (f : α → World β R D × List (Method R D I)) :
    World β R D × List (Method R D I) :=
  match handle with
  | some a => f a
  | none => (w, [])

/-- One call of the driver. -/
def step (B : Backend β R D I) (w : World β R D) (op : Op) : World β R D × List (Method R D I) :=
  match op with
  | .openRegion index =>
    let o := MmioRegion.openRegion B 0 w.nextId index w.backend
    ({ w with backend := o.state, regions := w.regions ++ o.result.toOption.toList,
              nextId := w.nextId + 1 }, o.calls)
  | .openRegionSized index expectedSize =>
    let o := MmioRegion.openRegionSized B 0 w.nextId index expectedSize w.backend
    ({ w with backend := o.state, regions := w.regions ++ o.result.toOption.toList,
              nextId := w.nextId + 1 }, o.calls)
  | .slice view .. | .mapOffsets view _ | .readU32 view _ | .writeU32 view ..
  | .writeDeviceAddress view .. | .dropRegion view =>
    w.onHandle w.regions[view]? fun r => w.stepRegion B view r op
  | .alloc size constraints dir coherent =>
    let o := DmaBuffer.allocate B 0 w.nextId size.toNat constraints dir coherent w.backend
    ({ w with backend := o.state, buffers := o.result.toOption.toList ++ w.buffers,
              nextId := w.nextId + 1 }, o.calls)
  | .split buffer _ | .bufferAddress buffer _ | .access buffer _ | .dropBuffer buffer =>
    w.onHandle w.buffers[buffer]? fun b => w.stepBuffer B buffer b op
  | .newPool segmentSize pageSize alignment highWatermark =>
    match DmaPool.new 0 segmentSize.toNat pageSize.toNat alignment.toNat highWatermark.toNat with
    | .ok pool => ({ w with pools := w.pools ++ [⟨pool, true, []⟩] }, [])
    | .error _ => (w, [])
  | .allocSegment pool _ | .dropPool pool =>
    w.onHandle w.pools[pool]? fun p => w.stepPool B pool p op
  | .segmentAddress pool segment _ | .accessSegment pool segment _ | .dropSegment pool segment =>
    w.onHandle w.pools[pool]? fun p =>
      w.onHandle p.live[segment]? fun s => w.stepSegment B pool p segment s op
  | .reset => w.tell B .reset

end World

/-- One step of a run: the state it was taken in, the call and the
backend calls it made. -/
structure Event (β R D I : Type) where
  world : World β R D
  op : Op
  calls : List (Method R D I)

/-- A whole run, and what happened in it. -/
def World.run {β R D I : Type} (B : Backend β R D I) : World β R D → List Op →
    World β R D × List (Event β R D I)
  | w, [] => (w, [])
  | w, op :: ops =>
    let (next, calls) := w.step B op
    let (last, events) := next.run B ops
    (last, ⟨w, op, calls⟩ :: events)

end Drv.Hardware
