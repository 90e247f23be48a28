import Drv.Laws.Hardware.Pool

/-!
# A driver stays in its views

Every step of a driver keeps all its handles inside their allocations,
carves the DMA views it holds (`Carving`) and makes only calls confined
to the view it was asked to use. Hence, in every state a run reaches, no
two DMA views of one allocation overlap, whether they are halves of a
split, live segments or free ones.

The handles are used one call at a time. What a device does with an
address it was given is not modelled, nor calls from two threads.
-/

namespace Drv.Hardware

open List hiding Disjoint
open DmaBuffer World PoolState

variable {α : Type}

theorem perm_of_getElem? {l : List α} {i : Nat} {a : α} (h : l[i]? = some a) :
    l.Perm (a :: l.eraseIdx i) := by
  obtain ⟨hi, ha⟩ := List.getElem?_eq_some_iff.mp h
  exact ha ▸ (getElem_cons_eraseIdx_perm hi).symm

section
variable {β R D I : Type} {B : Backend β R D I} {w : World β R D}

/-! ## The invariant -/

structure PoolState.Ok (p : PoolState D) : Prop where
  pool : p.pool.Ok
  segments : ∀ b ∈ p.segments, p.pool.Segment b

/-- Every handle of the driver lies in its allocation. -/
structure World.Ok (w : World β R D) : Prop where
  regions : ∀ r ∈ w.regions, r.Valid
  buffers : ∀ b ∈ w.buffers, b.Valid
  addresses : ∀ a ∈ w.addresses, a.offset ∈ a.dma.window
  pools : ∀ p ∈ w.pools, p.Ok

/-- What the driver holds, as pieces of allocations. -/
def World.carved (w : World β R D) : Carved := ⟨w.nextId, w.views.map piece⟩

/-- The views behind the calls of one step: the handle the driver named,
or the whole of a fresh allocation. -/
def Op.IssuedThrough (w : World β R D) (via : Via R D) : Op → Prop
  | .readU32 view _ | .writeU32 view .. => via = ⟨w.regions[view]?, none⟩
  | .writeDeviceAddress view _ _ address =>
    via = ⟨w.regions[view]?, w.addresses[address]?.map DeviceAddress.dma⟩
  | .bufferAddress buffer _ | .access buffer _ => via = ⟨none, w.buffers[buffer]?⟩
  | .segmentAddress pool segment _ | .accessSegment pool segment _ =>
    via = ⟨none, (w.pools[pool]?.bind fun p => p.live[segment]?).map DmaSegment.dma⟩
  | .alloc size .. => via.WholeOf size.toNat
  | .allocSegment pool _ => ∀ p ∈ w.pools[pool]?, via.WholeOf p.pool.pageSize
  | _ => via = ⟨none, none⟩

/-- What one step does. -/
structure StepOutcome (w : World β R D) (op : Op) (o : World β R D × List (Method R D I)) :
    Prop where
  ok : o.1.Ok
  carving : Carving w.carved o.1.carved
  confined : ∃ via : Via R D, op.IssuedThrough w via ∧ ∀ m ∈ o.2, Confined via m

/-! ## Replacing one handle -/

theorem carving_of_views {w' : World β R D} (hid : w'.nextId = w.nextId)
    (hviews : w'.views = w.views) : Carving w.carved w'.carved := by
  rw [carved, carved, hid, hviews]

variable {b : DmaBuffer D} {buffers : List (DmaBuffer D)}

theorem carving_replaceBuffer {i : Nat} (hb : w.buffers[i]? = some b) (new : List (DmaBuffer D))
    (hperm : buffers.Perm (new ++ w.buffers.eraseIdx i))
    (h : Carving ⟨w.nextId, [b.piece]⟩ ⟨w.nextId, new.map piece⟩) (s : β) :
    Carving w.carved { w with backend := s, buffers := buffers }.carved := by
  let rest := w.buffers.eraseIdx i ++ w.pools.flatMap segments
  have hbeside := h.beside (rest.map piece)
  rw [← map_append, ← append_assoc] at hbeside
  exact .of_perm (((perm_of_getElem? hb).append_right _).map _) hbeside
    ((hperm.symm.append_right _).map _)

variable {p : PoolState D}

theorem carving_replacePool {i n : Nat} {p' : PoolState D} (hp : w.pools[i]? = some p)
    (h : Carving ⟨w.nextId, p.segments.map piece⟩ ⟨n, p'.segments.map piece⟩) (s : β) :
    Carving w.carved { w with backend := s, pools := w.pools.set i p', nextId := n }.carved := by
  have hi := lt_of_getElem? hp
  let rest := w.buffers ++ (w.pools.eraseIdx i).flatMap segments
  -- the pool's own segments in front of everything else
  have hfront {pools : List (PoolState D)} {q : PoolState D}
      (hq : pools.Perm (q :: w.pools.eraseIdx i)) :
      (w.buffers ++ pools.flatMap segments).Perm (q.segments ++ rest) := by
    have hflat := Perm.append_left w.buffers (hq.flatMap_right segments)
    rw [flatMap_cons] at hflat
    refine hflat.trans ?_
    rw [← append_assoc, ← append_assoc]
    exact perm_append_comm.append_right _
  have hbeside := h.beside (rest.map piece)
  rw [← map_append, ← map_append] at hbeside
  exact .of_perm ((hfront (perm_of_getElem? hp)).map _) hbeside
    ((hfront (set_perm_cons_eraseIdx hi p')).map _).symm

theorem DmaBuffer.SameShape.valid {b' : DmaBuffer D} (h : b.SameShape b') (hb : b.Valid) :
    b'.Valid := by
  obtain ⟨halloc, -, hoff, halign, hlen⟩ := h
  refine ⟨?_, ?_, ?_⟩
  · rw [hoff, hlen, halloc]
    exact hb.within
  · rw [halloc]
    exact hb.addressable
  · rw [hoff, halign]
    exact hb.aligned

theorem DmaBuffer.SameShape.piece {b' : DmaBuffer D} (h : b.SameShape b') : b'.piece = b.piece := by
  rw [DmaBuffer.piece, DmaBuffer.piece, h.allocation, h.offset, h.len]

theorem new_ok {shared n : Nat} {segmentSize pageSize alignment : UInt64} {pool : DmaPool D}
    (h : DmaPool.new shared segmentSize.toNat pageSize.toNat alignment.toNat n = .ok pool) :
    pool.Ok ∧ pool.free = [] := by
  unfold DmaPool.new at h
  split at h
  next => cases h
  next hgood =>
    cases h
    have hpos : 0 < segmentSize.toNat := by omega
    have hmod : pageSize.toNat % segmentSize.toNat = 0 := by omega
    have hfits : segmentSize.toNat ≤ pageSize.toNat := by omega
    exact ⟨⟨hpos, Nat.dvd_of_mod_eq_zero hmod, hfits, pageSize.toNat_lt⟩, rfl⟩

theorem PoolState.Ok.replace (h : p.Ok) (p' : PoolState D) (hsame : p.pool.SameParameters p'.pool)
    (hseg : ∀ b ∈ p'.segments, b ∈ p.segments ∨ p.pool.Segment b) : p'.Ok := by
  obtain ⟨⟨hpos, hdivides, hfits, haddr⟩, hsegs⟩ := h
  refine ⟨⟨?_, ?_, ?_, ?_⟩, fun b hb => ?_⟩
  · rwa [hsame.segmentSize]
  · rwa [hsame.segmentSize, hsame.pageSize]
  · rwa [hsame.segmentSize, hsame.pageSize]
  · rwa [hsame.pageSize]
  · rcases hseg b hb with hb | hb
    · exact (hsegs b hb).congr hsame.symm
    · exact hb.congr hsame.symm

theorem segments_perm {segment : Nat} {s : DmaSegment D} (hs : p.live[segment]? = some s) :
    p.segments.Perm (s.dma :: { p with live := p.live.eraseIdx segment }.segments) := by
  have hlive := (perm_of_getElem? hs).map DmaSegment.dma
  exact (hlive.append_left _).trans perm_middle

/-! ## Drops -/

section
variable (w)

/-- A drop changes no handle, and its calls name no offset. -/
structure Frame (o : World β R D × List (Method R D I)) : Prop where
  handles : ∃ s, o.1 = { w with backend := s }
  harmless : ∀ via : Via R D, ∀ m ∈ o.2, Confined via m

theorem Frame.refl : Frame (I := I) w (w, []) := ⟨⟨w.backend, rfl⟩, by simp⟩

theorem tell_frame {m : Method R D I}
    (hm : ∀ via : Via R D, Confined via m) : Frame w (w.tell B m) :=
  ⟨⟨_, rfl⟩, fun via => forall_mem_singleton.mpr (hm via)⟩

theorem release_frame (b : DmaBuffer D) : Frame w (w.release B b) := by
  unfold release
  split
  · exact .refl w
  · exact tell_frame w fun _ => trivial

theorem releaseAll_frame (bs : List (DmaBuffer D)) :
    Frame w (releaseAll B w bs) := by
  induction bs generalizing w with
  | nil => exact .refl w
  | cons b rest ih =>
    rw [releaseAll]
    split
    · exact ih w
    · obtain ⟨⟨s, hs⟩, hcs⟩ := release_frame (B := B) w b
      obtain ⟨⟨s', hs'⟩, hmore⟩ := ih (w.release B b).1
      exact ⟨⟨s', by rw [hs', hs]⟩, fun via => forall_mem_append.mpr ⟨hcs via, hmore via⟩⟩

end

variable {op : Op}

theorem Frame.outcome {w' : World β R D} {o : World β R D × List (Method R D I)}
    (h : Frame w' o) (hw : w'.Ok) (hcarve : Carving w.carved w'.carved)
    (hop : op.IssuedThrough w ⟨none, none⟩) : StepOutcome w op o := by
  obtain ⟨⟨s, hs⟩, hcs⟩ := h
  refine ⟨?_, ?_, ⟨none, none⟩, hop, hcs _⟩
  · rw [hs]
    exact { hw with }
  · rw [hs]
    exact hcarve

theorem Op.exists_issuedThrough (w : World β R D) (op : Op) : ∃ via, op.IssuedThrough w via := by
  cases op with
  | alloc => exact ⟨⟨none, none⟩, rfl, by simp⟩
  | allocSegment => exact ⟨⟨none, none⟩, fun _ _ => ⟨rfl, by simp⟩⟩
  | _ => exact ⟨_, rfl⟩

theorem StepOutcome.idle (hw : w.Ok) (op : Op) : StepOutcome (I := I) w op (w, []) := by
  obtain ⟨via, hop⟩ := op.exists_issuedThrough w
  exact ⟨hw, .refl, via, hop, by simp⟩

/-! ## Steps on regions -/

theorem openRegion_issues (shared id : Nat) (index : UInt8) (via : Via R D) :
    Issues (fun _ => True) (Confined via) MmioRegion.Valid
      (MmioRegion.openRegion B shared id index) := by
  refine .bind (.look fun _ _ => trivial) fun generation (_ : True) => ?_
  refine .bind (call_issues trivial fun _ _ => trivial) fun token _ => ?_
  refine .bind (.look fun _ _ => trivial) fun len (_ : True) => .pure ?_
  exact ⟨(Nat.zero_add _).le, len.toNat_lt⟩

theorem openRegionSized_issues (shared id : Nat) (index : UInt8) (size : Nat) (via : Via R D) :
    Issues (fun _ => True) (Confined via) MmioRegion.Valid
      (MmioRegion.openRegionSized B shared id index size) := by
  refine .ite (fun _ => .fail _ trivial) fun _ => ?_
  refine .bind (openRegion_issues shared id index via) fun region hreg => ?_
  refine .ite (fun _ => ?_) fun _ => .pure hreg
  exact .bind (.attempt (call_issues trivial fun _ _ => trivial)) fun _ _ => .fail _ trivial

theorem mem_toOption {r : Except Error α} {a : α} : a ∈ r.toOption.toList ↔ r = .ok a := by
  cases r with
  | error => simp [Except.toOption]
  | ok => simp [Except.toOption, eq_comm]

section
variable (hw : w.Ok)
include hw

theorem World.Ok.region {view : Nat} {r : MmioRegion R} (hr : w.regions[view]? = some r) :
    r.Valid := hw.regions r (mem_of_getElem? hr)

theorem addRegion_outcome {via : Via R D} (hop : op.IssuedThrough w via)
    {x : Hw β R D I (MmioRegion R)} {Q : MmioRegion R → Prop} (hQ : ∀ r, Q r → r.Valid)
    (hx : Issues (fun _ => True) (Confined via) Q x) (n : Nat)
    (hn : Carving w.carved ⟨n, w.views.map piece⟩) :
    StepOutcome w op ({ w with backend := (x w.backend).state,
                               regions := w.regions ++ (x w.backend).result.toOption.toList,
                               nextId := n }, (x w.backend).calls) := by
  obtain ⟨-, hcs, hans, -⟩ := hx w.backend trivial
  refine ⟨{ hw with regions := forall_mem_append.mpr ⟨hw.regions, fun r hr => ?_⟩ }, hn, via, hop,
    hcs⟩
  exact hQ r (hans r (mem_toOption.mp hr))

theorem access_outcome {via : Via R D} (hop : op.IssuedThrough w via)
    {x : Hw β R D I α} {Q : α → Prop} (hx : Issues (fun _ => True) (Confined via) Q x) :
    StepOutcome w op ({ w with backend := (x w.backend).state }, (x w.backend).calls) :=
  ⟨{ hw with }, .refl, via, hop, (hx w.backend trivial).2.1⟩

theorem dropRegion_outcome (hop : op.IssuedThrough w ⟨none, none⟩)
    (view : Nat) (r : MmioRegion R) : StepOutcome w op (w.dropRegion B view r) := by
  have hok : { w with regions := w.regions.eraseIdx view }.Ok :=
    { hw with regions := fun r hr => hw.regions r (mem_of_mem_eraseIdx hr) }
  have hframe : Frame { w with regions := w.regions.eraseIdx view } (w.dropRegion B view r) := by
    unfold dropRegion
    dsimp only
    split
    · exact .refl _
    · exact tell_frame _ fun _ => trivial
  exact hframe.outcome hok .refl hop

theorem mapOffsets_outcome {view : Nat} {r : MmioRegion R}
    (hr : w.regions[view]? = some r) (hop : op.IssuedThrough w ⟨none, none⟩)
    (mapper : Nat → Option Nat) :
    StepOutcome w op (w.stepRegion B view r (.mapOffsets view mapper)) := by
  rw [stepRegion, MmioRegion.mapOffsets]
  split
  next r' hmap =>
    split at hmap
    · cases hmap
    · cases hmap
      refine ⟨{ hw with regions := fun r' hr' => ?_ }, .refl, _, hop, by simp⟩
      rcases mem_or_eq_of_mem_set hr' with hr' | rfl
      · exact hw.regions r' hr'
      · -- the mapper changes neither the window nor the allocation
        exact ⟨(hw.region hr).within, (hw.region hr).addressable⟩
  next => exact dropRegion_outcome hw hop view r

/-! ## Steps on buffers -/

theorem address_outcome (hb : b.Valid) (offset : Nat) (hop : op.IssuedThrough w (.ofDma b)) :
    StepOutcome w op
      ({ w with backend := (b.deviceAddressAt B offset w.backend).state,
                addresses := w.addresses ++
                  (b.deviceAddressAt B offset w.backend).result.toOption.toList },
        (b.deviceAddressAt B offset w.backend).calls) := by
  obtain ⟨-, hcs, hans, -⟩ := deviceAddressAt_confined hb offset w.backend trivial
  refine ⟨{ hw with addresses := forall_mem_append.mpr ⟨hw.addresses, fun a ha => ?_⟩ }, .refl, _,
    hop, hcs⟩
  obtain ⟨rfl, hin⟩ := hans a (mem_toOption.mp ha)
  exact hin

theorem World.Ok.replaceBuffer (i : Nat) (new : List (DmaBuffer D))
    (hperm : buffers.Perm (new ++ w.buffers.eraseIdx i)) (hnew : ∀ b ∈ new, b.Valid) (s : β) :
    { w with backend := s, buffers := buffers }.Ok := by
  refine { hw with buffers := fun b hb => ?_ }
  rcases mem_append.mp (hperm.mem_iff.mp hb) with hb | hb
  · exact hnew b hb
  · exact hw.buffers b (mem_of_mem_eraseIdx hb)

variable {buffer : Nat}

theorem dropBuffer_outcome (hb : w.buffers[buffer]? = some b)
    (hop : op.IssuedThrough w ⟨none, none⟩) :
    StepOutcome w op ({ w with buffers := w.buffers.eraseIdx buffer }.release B b) := by
  have hperm := Perm.refl ([] ++ w.buffers.eraseIdx buffer)
  exact (release_frame _ b).outcome (hw.replaceBuffer buffer [] hperm (by simp) w.backend)
    (carving_replaceBuffer hb [] hperm (.forget _ _) w.backend) hop

theorem split_outcome (hb : w.buffers[buffer]? = some b) (offset : Nat)
    (hop : op.IssuedThrough w ⟨none, none⟩) :
    StepOutcome w op (w.stepBuffer B buffer b (.split buffer offset)) := by
  have hval := hw.buffers b (mem_of_getElem? hb)
  rw [stepBuffer]
  rcases splitAt_cases b offset w.backend with ⟨e, he⟩ | ⟨-, hlt, hdvd, hok⟩
  · rw [he]
    exact dropBuffer_outcome hw hb hop
  · rw [hok]
    have hperm := Perm.refl ([b.left offset, b.right offset] ++ w.buffers.eraseIdx buffer)
    have hnew : ∀ b' ∈ [b.left offset, b.right offset], b'.Valid := by
      simpa using ⟨hval.left hlt, hval.right hlt hdvd⟩
    exact ⟨hw.replaceBuffer buffer _ hperm hnew w.backend,
      carving_replaceBuffer hb _ hperm (hval.cut hlt _ []) w.backend, _, hop, by simp⟩

theorem accessBuffer_outcome (hb : w.buffers[buffer]? = some b) (access : DmaOp)
    (hop : op.IssuedThrough w (.ofDma b)) :
    StepOutcome w op (w.stepBuffer B buffer b (.access buffer access)) := by
  have hval := hw.buffers b (mem_of_getElem? hb)
  have hi := lt_of_getElem? hb
  obtain ⟨⟨-, hshape⟩, hcs, -⟩ := dmaOp_confined hval access (w.backend, b) ⟨trivial, .refl b⟩
  rw [stepBuffer]
  generalize access.run B (w.backend, b) = o at hshape hcs
  have hperm := set_perm_cons_eraseIdx hi o.state.2
  refine ⟨hw.replaceBuffer buffer [o.state.2] hperm ?_ _,
    carving_replaceBuffer hb [o.state.2] hperm ?_ _, _, hop, hcs⟩
  · simpa using hshape.valid hval
  · rw [map_singleton, hshape.piece]

/-! ## Steps on pools -/

theorem World.Ok.replacePool (i n : Nat) (hp : p.Ok) (s : β) :
    { w with backend := s, pools := w.pools.set i p, nextId := n }.Ok := by
  refine { hw with pools := fun q hq => ?_ }
  rcases mem_or_eq_of_mem_set hq with hq | rfl
  · exact hw.pools q hq
  · exact hp

section
variable {pool segment : Nat} {s : DmaSegment D} (hp : w.pools[pool]? = some p)
include hp

theorem allocSegment_outcome (dir : DmaDirection) :
    StepOutcome w (.allocSegment pool dir) (w.stepPool B pool p (.allocSegment pool dir)) := by
  have hok := hw.pools p (mem_of_getElem? hp)
  obtain ⟨⟨via, hvia, hcs⟩, hsame, hcarv, hfree, hres⟩ :=
    allocate_outcome w.nextId dir (w.backend, p.pool) hok.pool
  have hop : (Op.allocSegment pool dir).IssuedThrough w via := by
    intro q hq
    rw [hp] at hq
    cases hq
    exact hvia
  rw [stepPool]
  split
  next =>
    generalize DmaPool.allocate B w.nextId dir (w.backend, p.pool) = o at *
    refine ⟨hw.replacePool pool _ (hok.replace _ hsame fun b hb => ?_) _,
      carving_replacePool hp ?_ _, via, hop, hcs⟩
    · rcases mem_append.mp hb with hb | hb
      · exact (hfree b hb).imp_left (mem_append_left _)
      · obtain ⟨segment, hsegm, rfl⟩ := mem_map.mp hb
        rcases mem_append.mp hsegm with hnew | hold
        · exact (hres segment (mem_toOption.mp hnew)).imp_left (mem_append_left _)
        · exact .inl (mem_append_right _ (mem_map_of_mem hold))
    · have hbeside := hcarv.beside ((p.live.map DmaSegment.dma).map piece)
      rw [← map_append, ← map_append] at hbeside
      refine hbeside.trans (Carving.perm (Perm.map _ ?_))
      simp only [segments, map_append]
      rw [← append_assoc]
      exact perm_append_comm.append_right _
  next => exact .idle hw _

theorem segment_of_live (hs : p.live[segment]? = some s) : p.pool.Segment s.dma := by
  refine (hw.pools p (mem_of_getElem? hp)).segments _ (mem_append_right _ ?_)
  exact mem_map_of_mem (mem_of_getElem? hs)

theorem accessSegment_outcome (hs : p.live[segment]? = some s) (access : SegmentOp)
    (hop : op.IssuedThrough w (.ofDma s.dma)) :
    StepOutcome w op (w.stepSegment B pool p segment s (.accessSegment pool segment access)) := by
  have hseg := segment_of_live hw hp hs
  have hok := hw.pools p (mem_of_getElem? hp)
  have hi := lt_of_getElem? hs
  obtain ⟨⟨-, hshape⟩, hcs, -⟩ := dmaOp_confined hseg.valid
    (access.dmaOp s.dma.len) (w.backend, s.dma) ⟨trivial, .refl s.dma⟩
  rw [stepSegment]
  generalize (access.dmaOp s.dma.len).run B (w.backend, s.dma) = o at hshape hcs
  have hperm (reusable : Bool) :
      { p with live := p.live.set segment ⟨o.state.2, reusable⟩ }.segments.Perm
        (o.state.2 :: { p with live := p.live.eraseIdx segment }.segments) := by
    have hlive := (set_perm_cons_eraseIdx hi ⟨o.state.2, reusable⟩).map DmaSegment.dma
    exact (hlive.append_left _).trans perm_middle
  refine ⟨hw.replacePool pool _ (hok.replace { p with live := p.live.set segment ⟨o.state.2, _⟩ }
    (.refl _) fun b hb => ?_) _, carving_replacePool hp (.perm ?_) _, _, hop, hcs⟩
  · rcases mem_cons.mp ((hperm _).mem_iff.mp hb) with rfl | hb
    · exact .inr ⟨hshape.valid hseg.valid, hshape.len.trans hseg.len,
        hshape.alignment.trans hseg.alignment⟩
    · exact .inl ((segments_perm hs).mem_iff.mpr (mem_cons_of_mem _ hb))
  · refine ((segments_perm hs).map _).trans (Perm.trans ?_ ((hperm _).map _).symm)
    rw [map_cons, map_cons, hshape.piece]

theorem dropSegment_outcome (hs : p.live[segment]? = some s)
    (hop : op.IssuedThrough w ⟨none, none⟩) :
    StepOutcome w op (w.stepSegment B pool p segment s (.dropSegment pool segment)) := by
  have hok := hw.pools p (mem_of_getElem? hp)
  have hperm := segments_perm hs
  let p' : PoolState D := { p with live := p.live.eraseIdx segment }
  have hforget : Carving ⟨w.nextId, p.segments.map piece⟩ ⟨w.nextId, p'.segments.map piece⟩ :=
    (Carving.perm (hperm.map _)).trans (Carving.forget _ _)
  have hsub : ∀ b ∈ p'.segments, b ∈ p.segments ∨ p.pool.Segment b :=
    fun b hb => .inl (hperm.mem_iff.mpr (mem_cons_of_mem _ hb))
  rw [stepSegment]
  split
  next =>
    rcases p.pool.keep_cases s.dma with hkeep | hkeep
    · rw [hkeep]
      exact ⟨hw.replacePool pool _ (hok.replace p' (.refl _) hsub) _,
        carving_replacePool hp hforget _, _, hop, by simp⟩
    · rw [hkeep]
      let q : PoolState D := { p' with pool := { p.pool with free := p.pool.free ++ [s.dma] } }
      have hq : p.segments.Perm q.segments := by
        refine hperm.trans (perm_middle.symm.trans ?_)
        rw [segments, append_assoc, singleton_append]
      exact ⟨hw.replacePool pool _ (hok.replace q ⟨rfl, rfl, rfl, rfl, rfl⟩
        fun b hb => .inl (hq.mem_iff.mpr hb)) _,
        carving_replacePool hp (.perm (hq.map _)) _, _, hop, by simp⟩
  next =>
    exact (release_frame _ _).outcome
      (hw.replacePool pool w.nextId (hok.replace p' (.refl _) hsub) w.backend)
      (carving_replacePool hp hforget w.backend) hop

theorem dropPool_outcome (hop : op.IssuedThrough w ⟨none, none⟩) :
    StepOutcome w op (w.stepPool B pool p (.dropPool pool)) := by
  have hok := hw.pools p (mem_of_getElem? hp)
  let p' : PoolState D := { p with pool := { p.pool with free := [] }, alive := false }
  have hforget : Carving ⟨w.nextId, p.segments.map piece⟩ ⟨w.nextId, p'.segments.map piece⟩ := by
    rw [segments, map_append]
    exact .forgetAll _ _
  have hsub : ∀ b ∈ p'.segments, b ∈ p.segments ∨ p.pool.Segment b :=
    fun b hb => .inl (mem_append_right _ hb)
  exact (releaseAll_frame _ _).outcome
    (hw.replacePool pool w.nextId (hok.replace p' ⟨rfl, rfl, rfl, rfl, rfl⟩ hsub) w.backend)
    (carving_replacePool hp hforget w.backend) hop

end

/-! ## Every step, every run -/

theorem alloc_outcome (size : UInt64) (c : DmaConstraints) (dir : DmaDirection)
    (coherent : Bool) :
    StepOutcome w (.alloc size c dir coherent) (w.step B (.alloc size c dir coherent)) := by
  obtain ⟨via, hvia, hcs⟩ := allocate_confined 0 w.nextId size.toNat c dir coherent w.backend
  obtain ⟨-, -, hwhole, -⟩ := allocate_issues (fun _ => True) (fun _ _ h => h) 0 w.nextId
    size.toNat c dir coherent w.backend trivial
  rw [step]
  generalize allocate B 0 w.nextId size.toNat c dir coherent w.backend = o at hcs hwhole
  refine ⟨{ hw with buffers := forall_mem_append.mpr ⟨fun b hb => ?_, hw.buffers⟩ }, ?_, via, hvia,
    hcs⟩
  · exact (hwhole b (mem_toOption.mp hb)).valid size.toNat_lt
  · cases hres : o.result with
    | error => exact .skip w.nextId _
    | ok b =>
      show Carving w.carved ⟨w.nextId + 1, b.piece :: w.views.map piece⟩
      rw [(hwhole b hres).piece]
      exact .single (.fresh _ _ _ _)

theorem newPool_outcome (segmentSize pageSize alignment highWatermark : UInt64) :
    StepOutcome w (.newPool segmentSize pageSize alignment highWatermark)
      (w.step B (.newPool segmentSize pageSize alignment highWatermark)) := by
  rw [step]
  split
  next pool hnew =>
    obtain ⟨hpool, hfree⟩ := new_ok hnew
    refine ⟨{ hw with pools := forall_mem_concat hw.pools ?_ }, ?_, _, rfl, by simp⟩
    · exact ⟨hpool, by simp [segments, hfree]⟩
    · refine carving_of_views rfl ?_
      simp [views, segments, hfree]
  next => exact .idle hw _

theorem StepOutcome.handle {handle : Option α}
    {f : α → World β R D × List (Method R D I)}
    (h : ∀ a, handle = some a → StepOutcome w op (f a)) :
    StepOutcome w op (w.onHandle handle f) := by
  cases handle with
  | none => exact .idle hw _
  | some a => exact h a rfl

theorem step_outcome (op : Op) : StepOutcome w op (w.step B op) := by
  cases op with
  | openRegion index =>
    exact addRegion_outcome hw (by rfl) (fun _ h => h) (openRegion_issues 0 w.nextId index _)
      (w.nextId + 1) (.skip _ _)
  | openRegionSized index size =>
    exact addRegion_outcome hw (by rfl) (fun _ h => h)
      (openRegionSized_issues 0 w.nextId index size _) (w.nextId + 1) (.skip _ _)
  | slice view offset len =>
    exact .handle hw fun r hr => addRegion_outcome hw (by rfl) (fun _ h => h.1)
      (slice_issues (hw.region hr) offset len) w.nextId .refl
  | mapOffsets view mapper =>
    exact .handle hw fun r hr => mapOffsets_outcome hw hr (by rfl) mapper
  | readU32 view offset =>
    exact .handle hw fun r hr => access_outcome hw (by rw [Op.IssuedThrough, hr]; rfl)
      (readU32_confined (hw.region hr) offset)
  | writeU32 view offset value =>
    exact .handle hw fun r hr => access_outcome hw (by rw [Op.IssuedThrough, hr]; rfl)
      (writeU32_confined (hw.region hr) offset value)
  | writeDeviceAddress view low high address =>
    refine .handle hw fun r hr => ?_
    rw [stepRegion]
    cases ha : w.addresses[address]? with
    | none => exact .idle hw _
    | some a =>
      have hin := hw.addresses a (mem_of_getElem? ha)
      exact access_outcome hw (by rw [Op.IssuedThrough, hr, ha]; rfl)
        (writeDeviceAddress_confined (hw.region hr) low high hin)
  | dropRegion view => exact .handle hw fun r hr => dropRegion_outcome hw (by rfl) view r
  | alloc size c dir coherent => exact alloc_outcome hw size c dir coherent
  | split buffer offset =>
    exact .handle hw fun b hb => split_outcome hw hb offset (by rfl)
  | bufferAddress buffer offset =>
    refine .handle hw fun b hb => ?_
    have hval := hw.buffers b (mem_of_getElem? hb)
    exact address_outcome hw hval offset (by rw [Op.IssuedThrough, hb]; rfl)
  | access buffer op =>
    exact .handle hw fun b hb =>
      accessBuffer_outcome hw hb op (by rw [Op.IssuedThrough, hb]; rfl)
  | dropBuffer => exact .handle hw fun b hb => dropBuffer_outcome hw hb (by rfl)
  | newPool segmentSize pageSize alignment highWatermark =>
    exact newPool_outcome hw segmentSize pageSize alignment highWatermark
  | allocSegment pool dir => exact .handle hw fun p hp => allocSegment_outcome hw hp dir
  | segmentAddress pool segment offset =>
    refine .handle hw fun p hp => .handle hw fun s hs => ?_
    exact address_outcome hw (segment_of_live hw hp hs).valid offset
      (by rw [Op.IssuedThrough, hp, Option.bind_some, hs]; rfl)
  | accessSegment pool segment op =>
    exact .handle hw fun p hp => .handle hw fun s hs =>
      accessSegment_outcome hw hp hs op (by rw [Op.IssuedThrough, hp, Option.bind_some, hs]; rfl)
  | dropSegment =>
    exact .handle hw fun p hp => .handle hw fun s hs =>
      dropSegment_outcome hw hp hs (by rfl)
  | dropPool => exact .handle hw fun p hp => dropPool_outcome hw hp (by rfl)
  | reset => exact (tell_frame (m := .reset) w fun _ => trivial).outcome hw .refl (by rfl)

/-- What a run leaves and what happened in it. -/
structure RunOutcome (w : World β R D) (o : World β R D × List (Event β R D I)) : Prop where
  ok : o.1.Ok
  carving : Carving w.carved o.1.carved
  confined : ∀ e ∈ o.2, ∃ via : Via R D, e.op.IssuedThrough e.world via ∧
    ∀ m ∈ e.calls, Confined via m

theorem run_outcome (ops : List Op) : RunOutcome w (w.run B ops) := by
  induction ops generalizing w with
  | nil => exact ⟨hw, .refl, by simp [run]⟩
  | cons op ops ih =>
    have hstep := step_outcome (B := B) hw op
    obtain ⟨hok, hcarv, hconf⟩ := ih hstep.ok
    exact ⟨hok, hstep.carving.trans hcarv, forall_mem_cons.mpr ⟨hstep.confined, hconf⟩⟩

end

/-! ## What the views guarantee -/

/-- The two halves of a view cut at `offset`. -/
structure Halves (b : DmaBuffer D) (offset : Nat) (left right : DmaBuffer D) : Prop where
  allocation : left.allocation = b.allocation ∧ right.allocation = b.allocation
  leftWindow : left.window = Set.Ico b.offset (b.offset + offset)
  rightWindow : right.window = Set.Ico (b.offset + offset) (b.offset + b.len)
  len : left.len = offset ∧ right.len = b.len - offset
  alignment : left.alignment = b.alignment ∧ right.alignment = b.alignment
  aligned : b.alignment ∣ left.offset ∧ b.alignment ∣ right.offset

theorem splitAt_halves {left right : DmaBuffer D} (hb : b.Valid) {offset : Nat} {s : β}
    (h : (b.splitAt B offset s).result = .ok (left, right)) : Halves b offset left right := by
  rcases splitAt_cases b offset s with ⟨e, he⟩ | ⟨-, hlt, hdvd, hok⟩
  · rw [he] at h
    cases h
  · rw [hok] at h
    cases h
    have hright := hb.offset_right hlt
    refine ⟨⟨rfl, rfl⟩, ?_, ?_, ⟨len_left hlt, b.len_right offset⟩, ⟨rfl, rfl⟩,
      (hb.left hlt).aligned, (hb.right hlt hdvd).aligned⟩
    · rw [window, len_left hlt]
      rfl
    · have hend : b.offset + offset + (b.len - offset) = b.offset + b.len := by omega
      rw [window, hright, b.len_right, hend]

/-- The driver's handles in one state: every view in its allocation,
slices in what they were cut from, DMA views of one allocation apart,
halves and segments of the size and alignment asked for. -/
structure World.Confining (B : Backend β R D I) (w : World β R D) : Prop where
  regions : ∀ r ∈ w.regions, r.window ⊆ Set.Ico 0 r.allocation.size
  slices : ∀ r ∈ w.regions, ∀ offset len r',
    (r.slice B offset len w.backend).result = .ok r' → r'.window ⊆ r.window
  views : ∀ b ∈ w.views, b.window ⊆ Set.Ico 0 b.allocation.size ∧ b.alignment ∣ b.offset
  apart : w.views.Pairwise fun b b' =>
    b.allocation.id = b'.allocation.id → Disjoint b.window b'.window
  halves : ∀ b ∈ w.buffers, ∀ offset left right,
    (b.splitAt B offset w.backend).result = .ok (left, right) →
      Halves b offset left right ∧ Disjoint left.window right.window
  segments : ∀ p ∈ w.pools, ∀ b ∈ p.segments,
    b.len = p.pool.segmentSize ∧ p.pool.alignment ∣ b.offset

theorem World.Ok.valid (hw : w.Ok) (hb : b ∈ w.views) : b.Valid := by
  rcases mem_append.mp hb with hb | hb
  · exact hw.buffers b hb
  · obtain ⟨p, hp, hb⟩ := mem_flatMap.mp hb
    exact ((hw.pools p hp).segments b hb).valid

theorem World.Ok.confining (hw : w.Ok) (hsound : w.carved.Sound) : w.Confining B where
  regions r hr := Set.Ico_subset_Ico (Nat.zero_le _) (hw.regions r hr).within
  slices r hr offset len r' h := by
    obtain ⟨-, -, hans, -⟩ :=
      slice_issues (P := fun _ => True) (hw.regions r hr) offset len w.backend trivial
    exact (hans r' h).2.2.2
  views b hb := by
    have hval := hw.valid hb
    exact ⟨Set.Ico_subset_Ico (Nat.zero_le _) hval.within, hval.aligned⟩
  apart := pairwise_map.mp hsound.apart
  halves b hb offset left right h := by
    have hhalves := splitAt_halves (hw.buffers b hb) h
    refine ⟨hhalves, ?_⟩
    rw [hhalves.leftWindow, hhalves.rightWindow]
    exact Set.Ico_disjoint_Ico_same
  segments p hp b hb := by
    have hseg := (hw.pools p hp).segments b hb
    exact ⟨hseg.len, hseg.alignment ▸ hseg.valid.aligned⟩

/-- Whatever a driver does and whatever the backend answers, every call
stays in the view it was issued through and the views stay apart. -/
theorem run_confining (B : Backend β R D I) (backend : β) (ops : List Op) :
    (∀ e ∈ ((init backend).run B ops).2, ∃ via : Via R D,
      e.op.IssuedThrough e.world via ∧ ∀ m ∈ e.calls, Confined via m) ∧
    ((init backend).run B ops).1.Confining B := by
  have hinit : (.init backend : World β R D).Ok :=
    ⟨by simp [init], by simp [init], by simp [init], by simp [init]⟩
  have hnone : (.init backend : World β R D).carved.pieces = [] := rfl
  have hsound : (.init backend : World β R D).carved.Sound := ⟨by simp [hnone], by simp [hnone]⟩
  have hrun := run_outcome (B := B) hinit ops
  exact ⟨hrun.confined, hrun.ok.confining (hrun.carving.sound hsound)⟩

end

end Drv.Hardware
