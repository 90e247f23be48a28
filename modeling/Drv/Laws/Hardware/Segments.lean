import Drv.Laws.Hardware.Stale
import Drv.Laws.Hardware.World

/-!
# What a pool segment holds when it is dropped

One flag of a segment stands for all of its bytes. `Marks` says what it
should stand for: the bytes that the CPU acquired, and those it wrote since
they were last synced to the device. A segment that is not clean is retired
if every sync for the device covers all marked bytes, and the backend serves
the call after each change (`unclean_retired`). An empty sync alone returns
a written segment (`written_returned`).
-/

namespace Drv.Hardware

variable {β R D I : Type} {B : Backend β R D I}

/-- The bytes of a segment that are not the device's to use. -/
structure Marks where
  acquired : Set ℕ
  dirty : Set ℕ

def Marks.clean : Marks := ⟨∅, ∅⟩

/-- A segment that may be reused is clean, and one the CPU cannot write is not dirty. -/
structure Marks.Agree (m : Marks) (dir : DmaDirection) (reusable : Bool) : Prop where
  clean : reusable → m = .clean
  unwritten : dir = .fromDevice → m.dirty = ∅

namespace SegmentOp

/-- The methods that a segment of a direction has. -/
def Offered (dir : DmaDirection) : SegmentOp → Prop
  | write .. | syncForDevice .. => dir ≠ .fromDevice
  | read .. | syncForCpu .. => dir ≠ .toDevice
  | prepareForDevice => dir = .fromDevice

/-- The marks after a method, as far as it came. -/
def mark (B : Backend β R D I) (s : β × DmaBuffer D) (m : Marks) : SegmentOp → Marks
  | write o bs =>
    -- the only call follows the store
    if (StreamingDma.write B o bs s).calls.isEmpty then m
    else { m with dirty := m.dirty ∪ Set.Ico o (o + bs.length) }
  | syncForDevice o n =>
    if (StreamingDma.syncForDevice B o n s).result.isOk then
      ⟨m.acquired \ Set.Ico o (o + n), m.dirty \ Set.Ico o (o + n)⟩
    else m
  | read .. => m
  | syncForCpu o n =>
    if (StreamingDma.acquireForCpu B o n s).result.isOk then
      { m with acquired := m.acquired ∪ Set.Ico o (o + n) }
    else m
  | prepareForDevice =>
    if (StreamingDma.prepareForDevice B 0 s.2.len s).result.isOk then { m with acquired := ∅ }
    else m

/-- A sync for the device covers what is marked, and the backend serves the call after a store,
if it is made, and the read after an acquire. -/
def Careful (B : Backend β R D I) (s : β × DmaBuffer D) (m : Marks) : SegmentOp → Prop
  | write o bs => (StreamingDma.write B o bs s).calls ≠ [] →
      (B.exec (.streamingCpuDirty s.2.allocation.token
        (s.2.backendRange ⟨o, o + bs.length⟩)) s.1).1.isOk
  | syncForDevice o n => m.acquired ∪ m.dirty ⊆ Set.Ico o (o + n)
  | syncForCpu o n =>
    let acquired := StreamingDma.acquireForCpu B o n s
    acquired.result.isOk → (StreamingDma.refreshForCpu B o n acquired.state).result.isOk
  | read .. | prepareForDevice => True

theorem range_cases (b : DmaBuffer D) (o n : Nat) (s : β) :
    (∃ e, b.range B o n s = ⟨.error e, s, []⟩) ∨ b.range B o n s = ⟨.ok ⟨o, o + n⟩, s, []⟩ := by
  by_cases hg : B.generation s = b.generation
  · rw [DmaBuffer.range, Eff.bind_of_silent (current_of_eq hg), checkedRange]
    split
    · exact .inr rfl
    · exact .inl ⟨_, rfl⟩
  · exact .inl ⟨_, Eff.bind_of_error (current_of_ne hg)⟩

variable {s : β × DmaBuffer D} {m : Marks}

theorem write_cases {o : Nat} {bs : Bytes} (h : (write o bs).Careful B s m) :
    (StreamingDma.write B o bs s).result.isOk ∨
      ∃ e, StreamingDma.write B o bs s = ⟨.error e, s, []⟩ := by
  obtain ⟨e, hr⟩ | hr := range_cases (B := B.beside _) s.2 o bs.length s
  · exact .inr ⟨e, Eff.look_bind.trans (Eff.bind_of_error hr)⟩
  · have hw : StreamingDma.write B o bs s = _ := Eff.look_bind.trans (Eff.bind_of_silent hr)
    rw [Careful, hw] at h
    rw [hw]
    exact .inl (h (List.cons_ne_nil _ _))

theorem agree_access {dir : DmaDirection} {before : Bool} (h : m.Agree dir before)
    {op : SegmentOp} (hop : op.Offered dir) (hc : op.Careful B s m) :
    (op.mark B s m).Agree dir
      (if ((op.dmaOp s.2.len).run B s).result.isOk then op.reusable before else before) := by
  cases op with
  | write o bs =>
    refine ⟨?_, fun hdir => absurd hdir hop⟩
    obtain hok | ⟨e, hw⟩ := write_cases hc
    · simp [dmaOp, DmaOp.run, hok, reusable]
    · simpa [dmaOp, DmaOp.run, mark, hw, Except.isOk, Except.toBool] using h.clean
  | syncForDevice o n =>
    refine ⟨?_, fun hdir => absurd hdir hop⟩
    obtain ⟨ha, hd⟩ := Set.union_subset_iff.mp hc
    by_cases hok : (StreamingDma.syncForDevice B o n s).result.isOk
    · simp [mark, hok, Set.sdiff_eq_empty.mpr ha, Set.sdiff_eq_empty.mpr hd, Marks.clean]
    · simpa [dmaOp, DmaOp.run, mark, hok] using h.clean
  | read => simpa [mark, reusable] using h
  | syncForCpu o n =>
    have hrun : (StreamingDma.syncForCpu B o n s).result.isOk =
        (StreamingDma.acquireForCpu B o n s).result.isOk := by
      rw [StreamingDma.syncForCpu, Eff.bind_apply]
      cases hacq : (StreamingDma.acquireForCpu B o n s).result with
      | error => rfl
      | ok => exact hc (hacq ▸ rfl)
    by_cases hok : (StreamingDma.acquireForCpu B o n s).result.isOk
    · refine ⟨?_, by simpa [mark, hok] using h.unwritten⟩
      simp [dmaOp, DmaOp.run, hrun, hok, reusable]
    · simpa [dmaOp, DmaOp.run, hrun, mark, hok] using h
  | prepareForDevice =>
    by_cases hok : (StreamingDma.prepareForDevice B 0 s.2.len s).result.isOk
    · have hmark : prepareForDevice.mark B s m = .clean := by
        rw [mark, if_pos hok, h.unwritten hop, Marks.clean]
      exact hmark ▸ ⟨fun _ => rfl, fun _ => rfl⟩
    · simpa [dmaOp, DmaOp.run, mark, hok] using h

end SegmentOp

/-! ## Runs -/

/-- A run over one segment, with the marks of its bytes. -/
structure Marked (β R D : Type) where
  world : World β R D
  marks : Marks

namespace Marked

variable (B : Backend β R D I) (pool segment : Nat)

/-- The segment at its place in its pool. -/
def held (w : World β R D) : Option (DmaSegment D) := w.pools[pool]?.bind (·.live[segment]?)

def free (w : World β R D) : Option (List (DmaBuffer D)) := w.pools[pool]?.map (·.pool.free)

def access (r : Marked β R D) (op : SegmentOp) : Marked β R D where
  world := (r.world.step B (.accessSegment pool segment op)).1
  marks := (held pool segment r.world).elim r.marks fun s =>
    op.mark B (r.world.backend, s.dma) r.marks

/-- Every method of a run is called with care. -/
def Careful : Marked β R D → List SegmentOp → Prop
  | _, [] => True
  | r, op :: ops =>
    (∀ s ∈ held pool segment r.world, op.Careful B (r.world.backend, s.dma) r.marks) ∧
      Careful (r.access B pool segment op) ops

def Agrees (dir : DmaDirection) (r : Marked β R D) : Prop :=
  ∀ s ∈ held pool segment r.world, r.marks.Agree dir s.reusable

variable {B pool segment} {w : World β R D} {r : Marked β R D} {dir : DmaDirection}

theorem held_access {s' : DmaSegment D} {op : SegmentOp}
    (h : held pool segment (w.step B (.accessSegment pool segment op)).1 = some s') :
    ∃ s, held pool segment w = some s ∧ s'.reusable =
      if ((op.dmaOp s.dma.len).run B (w.backend, s.dma)).result.isOk then op.reusable s.reusable
      else s.reusable := by
  unfold held at *
  simp only [World.step] at h
  cases hp : w.pools[pool]? with
  | none => simp [World.onHandle, hp] at h
  | some p =>
    cases hs : p.live[segment]? with
    | none => simp [World.onHandle, hp, hs] at h
    | some s =>
      refine ⟨s, hs, ?_⟩
      rw [hp, World.onHandle, hs] at h
      simp only [World.onHandle, World.stepSegment] at h
      rw [List.getElem?_set_self (lt_of_getElem? hp), Option.bind_some,
        List.getElem?_set_self (lt_of_getElem? hs)] at h
      cases h
      cases ((op.dmaOp s.dma.len).run B (w.backend, s.dma)).result <;> rfl

theorem Agrees.run {ops : List SegmentOp} (h : Agrees pool segment dir r)
    (hops : ∀ op ∈ ops, op.Offered dir) (hcare : Careful B pool segment r ops) :
    Agrees pool segment dir (ops.foldl (access B pool segment) r) := by
  induction ops generalizing r with
  | nil => exact h
  | cons op rest ih =>
    obtain ⟨hop, hrest⟩ := List.forall_mem_cons.mp hops
    refine ih (fun s' hs' => ?_) hrest hcare.2
    obtain ⟨s, hs, hre⟩ := held_access hs'
    rw [hre, access, hs]
    exact SegmentOp.agree_access (h s hs) hop (hcare.1 s hs)

theorem drop_retires (h : ∀ s ∈ held pool segment w, s.reusable = false) :
    free pool (w.step B (.dropSegment pool segment)).1 = free pool w := by
  rw [World.step]
  cases hp : w.pools[pool]? with
  | none => rfl
  | some p =>
    rw [World.onHandle]
    cases hs : p.live[segment]? with
    | none => rfl
    | some s =>
      have hre := h s (by rw [held, hp]; exact hs)
      rw [World.onHandle, World.stepSegment, hre, if_neg (by simp)]
      obtain ⟨_, hpools⟩ := (release_frame (B := B) _ s.dma).handles
      rw [hpools, free, free, List.getElem?_set_self (lt_of_getElem? hp), hp]
      rfl

/-- A dropped segment is clean or retired, if its methods were called with care. -/
theorem unclean_retired (dir : DmaDirection) (w : World β R D) (ops : List SegmentOp)
    (hops : ∀ op ∈ ops, op.Offered dir) (hcare : Careful B pool segment ⟨w, .clean⟩ ops) :
    let r := ops.foldl (access B pool segment) ⟨w, .clean⟩
    r.marks = .clean ∨
      free pool (r.world.step B (.dropSegment pool segment)).1 = free pool r.world := by
  have hagree : Agrees pool segment dir ⟨w, .clean⟩ := fun _ _ => ⟨fun _ => rfl, fun _ => rfl⟩
  refine or_iff_not_imp_left.mpr fun hdirty => drop_retires fun s hs => ?_
  exact Bool.eq_false_iff.mpr fun hre => hdirty ((hagree.run hops hcare s hs).clean hre)

/-- A coherent backend that only serves stores. -/
def storing : Backend Unit Unit Unit Unit where
  generation _ := 0
  isCacheCoherent _ := true
  regionLen _ _ := 0
  exec m _ := (match m with
    | .streamingCpuDirty .. | .dmaWrite .. => .ok ()
    | _ => .error .unsupported, ())

/-- A pool with room for its only segment, which is held. -/
def oneHeld : World Unit Unit Unit :=
  { World.init () with
    pools := [⟨⟨0, 4, 4, 1, 1, []⟩, true, [⟨⟨⟨0, 0, (), 4⟩, 0, 0, 1, [0, 0, 0, 0]⟩, true⟩]⟩] }

theorem synced_retired :
    let r := [.write 1 [7], .syncForDevice 0 4].foldl (access storing 0 0) ⟨oneHeld, .clean⟩
    r.marks = .clean ∨
      free 0 (r.world.step storing (.dropSegment 0 0)).1 = free 0 r.world := by
  refine unclean_retired .toDevice oneHeld _ (by simp [SegmentOp.Offered]) ⟨?_, ?_, trivial⟩
  · rintro s ⟨⟩ _
    rfl
  · rintro s ⟨⟩
    show (∅ ∪ (∅ ∪ Set.Ico 1 2) : Set ℕ) ⊆ Set.Ico 0 4
    simpa using Set.Ico_subset_Ico (by decide : 0 ≤ 1) (by decide : 2 ≤ 4)

/-- An empty sync returns a written segment. -/
theorem written_returned :
    let r := [.write 1 [7], .syncForDevice 0 0].foldl (access storing 0 0) ⟨oneHeld, .clean⟩
    1 ∈ r.marks.dirty ∧ (free 0 r.world).map List.length = some 0 ∧
      (free 0 (r.world.step storing (.dropSegment 0 0)).1).map List.length = some 1 := by
  refine ⟨?_, rfl, rfl⟩
  show (1 : ℕ) ∈ (∅ ∪ Set.Ico 1 2) \ Set.Ico 0 0
  simp

end Marked

end Drv.Hardware
