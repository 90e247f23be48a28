import Drv.Base.Carve
import Drv.Laws.Hardware.Confinement

/-!
# Allocating, splitting and carving

What the operations that make DMA views answer, as one lemma each: an
allocation covers itself from offset zero, a split cuts a view at an
aligned offset, and a refill cuts its page into segments of the pool's
size, some of them on the free list and one answered, with nothing
overlapping. A view is the `Piece` of its allocation; the cutting is
`Carving` of these pieces. Where an allocation lies in memory is the
backend's matter and not looked at.
-/

namespace Drv.Hardware

open Eff (bind_apply bind_of_error bind_of_ok look_bind)
open List DmaBuffer

section
variable {σ R D I : Type} {B : Backend σ R D I}

/-- The piece of its allocation a view stands for. -/
def DmaBuffer.piece (b : DmaBuffer D) : Piece := ⟨b.allocation.id, b.offset, b.offset + b.len⟩

/-- A view of a whole allocation just made. -/
structure DmaBuffer.Whole (key total align : Nat) (b : DmaBuffer D) : Prop where
  id : b.allocation.id = key
  size : b.allocation.size = total
  offset : b.offset = 0
  len : b.len = total
  alignment : b.alignment = align

variable {b : DmaBuffer D} {id size alignment : Nat}

theorem DmaBuffer.Whole.valid (h : b.Whole id size alignment) (hsz : size < 2 ^ 64) : b.Valid := by
  refine ⟨?_, ?_, ?_⟩
  · rw [h.offset, h.len, h.size, Nat.zero_add]
  · rw [h.size]
    exact hsz
  · rw [h.offset]
    exact Nat.dvd_zero _

theorem DmaBuffer.Whole.piece (h : b.Whole id size alignment) : b.piece = ⟨id, 0, size⟩ := by
  rw [DmaBuffer.piece, h.id, h.offset, h.len, Nat.zero_add]

/-- The only DMA view of these calls, if there is one, is a whole
allocation of this size. -/
def Via.WholeOf (size : Nat) (v : Via R D) : Prop :=
  v.mmio = none ∧ ∀ b ∈ v.dma, b.offset = 0 ∧ b.len = size

theorem zeroFill_confined {v : DmaBuffer D} (hv : v.offset = 0) (coherent : Bool) :
    Makes (fun _ => True) (Confined (.ofDma v)) (zeroFill B v.allocation.token v.len coherent) := by
  have hmem : (Via.ofDma v : Via R D).Memory v.allocation.token 0 v.len := by
    refine ⟨v, rfl, rfl, ?_⟩
    rw [window, hv, Nat.zero_add]
  refine .bind (call_issues hmem fun _ _ => trivial) fun _ _ => ?_
  refine .ite (fun _ => .pure trivial) fun _ => ?_
  exact unlessCoherent_issues (call_issues hmem fun _ _ => trivial)

theorem allocate_confined (shared id size : Nat) (c : DmaConstraints) (dir : DmaDirection)
    (coherent : Bool) (s : σ) :
    ∃ via : Via R D, via.WholeOf size ∧
      ∀ m ∈ (allocate B shared id size c dir coherent s).calls, Confined via m := by
  unfold allocate
  split
  next => exact ⟨⟨none, none⟩, ⟨rfl, by simp⟩, by simp⟩
  next =>
    rw [bind_of_ok (Eff.look_apply _ _)]
    cases halloc : B.exec (.allocDmaConstrained size c dir coherent) s with
    | mk result next =>
    have hcall : B.perform (.allocDmaConstrained size c dir coherent) s =
        ⟨result, next, [.allocDmaConstrained size c dir coherent]⟩ := by
      rw [Backend.perform, Eff.call_apply, halloc]
    cases result with
    | error =>
      rw [bind_of_error hcall]
      exact ⟨⟨none, none⟩, ⟨rfl, by simp⟩, by simp [Confined]⟩
    | ok token =>
      rw [bind_of_ok hcall]
      let v : DmaBuffer D := ⟨⟨shared, id, token, size⟩, 0, 0, 1, replicate size 0⟩
      have hlen : v.len = size := length_replicate
      refine ⟨.ofDma v, ⟨rfl, fun b hb => by cases hb; exact ⟨rfl, hlen⟩⟩, fun m hm => ?_⟩
      rw [nil_append, mem_append, mem_singleton] at hm
      rcases hm with rfl | hm
      · trivial
      refine ((?_ : Makes (fun _ => True) (Confined (.ofDma v)) _) next trivial).2.1 m hm
      have hz := zeroFill_confined (B := B) (v := v) rfl coherent
      rw [hlen] at hz
      refine .bind (.attempt hz) fun r _ => ?_
      cases r with
      | error =>
        exact .bind (.attempt (call_issues trivial fun _ _ => trivial)) fun _ _ => .fail _ trivial
      | ok => exact .pure trivial

theorem allocate_issues (Inv : σ → Prop) (hInv : ∀ m s, Inv s → Inv (B.exec m s).2)
    (shared id size : Nat) (c : DmaConstraints) (dir : DmaDirection) (coherent : Bool) :
    Issues Inv (fun _ => True) (Whole id size c.alignment)
      (allocate B shared id size c dir coherent) := by
  have hperform (m : Method R D I) : Makes Inv (fun _ => True) (B.perform m) :=
    call_issues trivial (hInv m)
  refine .ite (fun _ => .fail _ trivial) fun _ => ?_
  refine .bind (.look fun _ _ => trivial) fun generation (_ : True) => ?_
  refine .bind (hperform _) fun token _ => ?_
  have hz : Makes Inv (fun _ => True) (zeroFill B token size coherent) :=
    .bind (hperform _) fun _ _ => .ite (fun _ => .pure trivial)
      fun _ => unlessCoherent_issues (hperform _)
  refine .bind (.attempt hz) fun r _ => ?_
  cases r with
  | error => exact .bind (.attempt (hperform _)) fun _ _ => .fail _ trivial
  | ok => exact .pure ⟨rfl, rfl, rfl, length_replicate, rfl⟩

/-! ## Splitting -/

def DmaBuffer.left (b : DmaBuffer D) (offset : Nat) : DmaBuffer D :=
  { b with bytes := b.bytes.take offset }

def DmaBuffer.right (b : DmaBuffer D) (offset : Nat) : DmaBuffer D :=
  { b with offset := usizeAdd b.offset offset, bytes := b.bytes.drop offset }

/-- A split either fails or cuts the view at an aligned inner offset; it
calls nobody. -/
theorem splitAt_cases (b : DmaBuffer D) (offset : Nat) (s : σ) :
    (∃ e, b.splitAt B offset s = ⟨.error e, s, []⟩) ∨
      (0 < offset ∧ offset < b.len ∧ b.alignment ∣ offset ∧
        b.splitAt B offset s = ⟨.ok (b.left offset, b.right offset), s, []⟩) := by
  unfold DmaBuffer.splitAt Backend.current
  by_cases hgen : B.generation s = b.generation
  · by_cases hbad : offset = 0 ∨ b.len ≤ offset ∨ offset % b.alignment ≠ 0
    · left
      exact ⟨.invalid, by simp [bind_apply, hgen, hbad]⟩
    · right
      refine ⟨by omega, by omega, Nat.dvd_of_mod_eq_zero (by omega), ?_⟩
      simp [bind_apply, hgen, hbad, left, right]
  · left
    exact ⟨.staleHandle, by simp [bind_apply, hgen]⟩

variable {offset : Nat}

theorem DmaBuffer.len_left (hlt : offset < b.len) :
    (b.left offset).len = offset := length_take_of_le hlt.le

theorem DmaBuffer.len_right (b : DmaBuffer D) (offset : Nat) :
    (b.right offset).len = b.len - offset := length_drop

theorem DmaBuffer.Valid.offset_right (hb : b.Valid)
    (hlt : offset < b.len) : (b.right offset).offset = b.offset + offset := by
  have := hb.within
  have := hb.addressable
  exact usizeAdd_of_lt (by omega)

theorem DmaBuffer.Valid.left (hb : b.Valid) (hlt : offset < b.len) : (b.left offset).Valid := by
  refine ⟨?_, hb.addressable, hb.aligned⟩
  rw [len_left hlt]
  exact (Nat.add_le_add_left hlt.le _).trans hb.within

theorem DmaBuffer.Valid.right (hb : b.Valid)
    (hlt : offset < b.len) (hdvd : b.alignment ∣ offset) : (b.right offset).Valid := by
  have := hb.within
  refine ⟨?_, hb.addressable, ?_⟩
  · rw [hb.offset_right hlt, len_right]
    show b.offset + offset + (b.len - offset) ≤ b.allocation.size
    omega
  · rw [hb.offset_right hlt]
    exact Nat.dvd_add hb.aligned hdvd

theorem DmaBuffer.Valid.cut (hb : b.Valid) (hlt : offset < b.len) (n : Nat) (rest : List Piece) :
    Carving ⟨n, b.piece :: rest⟩ ⟨n, (b.left offset).piece :: (b.right offset).piece :: rest⟩ := by
  have hl : (b.left offset).piece = ⟨b.allocation.id, b.offset, b.offset + offset⟩ := by
    rw [piece, len_left hlt]
    rfl
  have hright : (b.right offset).piece =
      ⟨b.allocation.id, b.offset + offset, b.offset + b.len⟩ := by
    have hend : b.offset + offset + (b.len - offset) = b.offset + b.len := by omega
    rw [piece, hb.offset_right hlt, len_right, hend]
    rfl
  rw [hl, hright]
  exact .single (.cut n _ rest (by omega) (by omega))

/-! ## Carving a page -/

/-- What a pool asks of every segment it hands out. -/
structure DmaPool.Segment (p : DmaPool D) (b : DmaBuffer D) : Prop where
  valid : b.Valid
  len : b.len = p.segmentSize
  alignment : b.alignment = p.alignment

/-- What `DmaPool.new` checked. -/
structure DmaPool.Ok (p : DmaPool D) : Prop where
  positive : 0 < p.segmentSize
  divides : p.segmentSize ∣ p.pageSize
  fits : p.segmentSize ≤ p.pageSize
  addressable : p.pageSize < 2 ^ 64

/-- The parameters of a pool never change. -/
structure DmaPool.SameParameters (p q : DmaPool D) : Prop where
  shared : q.shared = p.shared
  segmentSize : q.segmentSize = p.segmentSize
  pageSize : q.pageSize = p.pageSize
  alignment : q.alignment = p.alignment
  highWatermark : q.highWatermark = p.highWatermark

theorem DmaPool.SameParameters.trans {p q r : DmaPool D} (h : p.SameParameters q)
    (h' : q.SameParameters r) : p.SameParameters r :=
  ⟨h'.shared.trans h.shared, h'.segmentSize.trans h.segmentSize, h'.pageSize.trans h.pageSize,
    h'.alignment.trans h.alignment, h'.highWatermark.trans h.highWatermark⟩

variable (p : DmaPool D)

theorem DmaPool.SameParameters.refl : p.SameParameters p := ⟨rfl, rfl, rfl, rfl, rfl⟩

theorem DmaPool.SameParameters.symm {p q : DmaPool D} (h : p.SameParameters q) :
    q.SameParameters p :=
  ⟨h.shared.symm, h.segmentSize.symm, h.pageSize.symm, h.alignment.symm, h.highWatermark.symm⟩

theorem DmaPool.Segment.congr {p q : DmaPool D} (hb : q.Segment b)
    (h : p.SameParameters q) : p.Segment b :=
  ⟨hb.valid, hb.len.trans h.segmentSize, hb.alignment.trans h.alignment⟩

theorem DmaPool.keep_cases (b : DmaBuffer D) :
    p.keep b = p ∨ p.keep b = { p with free := p.free ++ [b] } := by
  unfold DmaPool.keep
  split
  · exact .inr rfl
  · exact .inl rfl

theorem DmaPool.keep_same (b : DmaBuffer D) : p.SameParameters (p.keep b) := by
  rcases p.keep_cases b with h | h <;> rw [h]
  · exact .refl p
  · exact ⟨rfl, rfl, rfl, rfl, rfl⟩

end

section
variable {β R D I : Type} {B : Backend β R D I}

/-- What the loop of a refill leaves: it calls nobody and keeps the
backend; the free list grows by segments cut from the remainder, which
the remainder and the old free list make up. -/
structure CarveOutcome (count : Nat) (rem : DmaBuffer D) (s : β × DmaPool D)
    (o : Outcome (β × DmaPool D) (Method R D I) Error (DmaBuffer D)) : Prop where
  calls : o.calls = []
  backend : o.state.1 = s.1
  parameters : s.2.SameParameters o.state.2
  free : ∃ added, o.state.2.free = s.2.free ++ added ∧ (∀ b ∈ added, s.2.Segment b) ∧
    ∀ n, Carving ⟨n, [rem.piece]⟩ ⟨n, (o.result.toOption.toList ++ added).map piece⟩
  result : ∀ b, o.result = .ok b → s.2.Segment b

variable {s : β × DmaPool D} {o : Outcome (β × DmaPool D) (Method R D I) Error (DmaBuffer D)}

theorem CarveOutcome.cut_first {count : Nat} {rem : DmaBuffer D}
    (h : CarveOutcome count (rem.right s.2.segmentSize)
      (s.1, s.2.keep (rem.left s.2.segmentSize)) o)
    (hrem : rem.Valid) (hlt : s.2.segmentSize < rem.len)
    (hl : s.2.Segment (rem.left s.2.segmentSize)) : CarveOutcome (count + 1) rem s o := by
  have hsame := s.2.keep_same (rem.left s.2.segmentSize)
  obtain ⟨added, hfree, hseg, hcarve⟩ := h.free
  refine ⟨h.calls, h.backend, hsame.trans h.parameters, ?_, fun b hb => ?_⟩
  · have hcut := fun n => hrem.cut hlt n []
    rcases s.2.keep_cases (rem.left s.2.segmentSize) with hd | hkeep
    · -- the segment went over the watermark
      refine ⟨added, by rw [hfree, hd], fun b hb => (hseg b hb).congr hsame, fun n => ?_⟩
      exact (hcut n).trans ((Carving.forget _ _).trans (hcarve n))
    · refine ⟨rem.left s.2.segmentSize :: added, ?_, ?_, fun n => ?_⟩
      · rw [hfree, hkeep, append_assoc, singleton_append]
      · exact forall_mem_cons.mpr ⟨hl, fun b hb => (hseg b hb).congr hsame⟩
      · refine (hcut n).trans (Carving.of_perm (Perm.swap _ _ _)
          ((hcarve n).beside [(rem.left s.2.segmentSize).piece]) ?_)
        rw [map_append, map_append, map_cons, append_assoc]
        exact Perm.append_left _ (perm_append_singleton _ _)
  · exact (h.result b hb).congr hsame

theorem carve_outcome (count : Nat) (rem : DmaBuffer D) (s : β × DmaPool D) (hrem : rem.Valid)
    (hlen : rem.len = (count + 1) * s.2.segmentSize) (hpos : 0 < s.2.segmentSize)
    (halign : rem.alignment = s.2.alignment) :
    CarveOutcome count rem s (DmaPool.carve B count rem s) := by
  induction count generalizing rem s with
  | zero =>
    refine ⟨rfl, rfl, ⟨rfl, rfl, rfl, rfl, rfl⟩, ⟨[], (append_nil _).symm, by simp, ?_⟩, ?_⟩
    · exact fun n => .refl
    · intro b hb
      cases hb
      exact ⟨hrem, by rw [hlen, Nat.zero_add, Nat.one_mul], halign⟩
  | succ count ih =>
    rw [DmaPool.carve, look_bind]
    rcases splitAt_cases rem s.2.segmentSize s with
      ⟨e, he⟩ | ⟨-, hlt, hdvd, hok⟩
    · rw [bind_of_error he]
      refine ⟨rfl, rfl, ⟨rfl, rfl, rfl, rfl, rfl⟩, ⟨[], (append_nil _).symm, by simp, ?_⟩, by simp⟩
      exact fun n => .forget _ _
    · rw [bind_of_ok hok, nil_append]
      dsimp only
      have hsame := s.2.keep_same (rem.left s.2.segmentSize)
      have hright : (rem.right s.2.segmentSize).len =
          (count + 1) * (s.2.keep (rem.left s.2.segmentSize)).segmentSize := by
        rw [len_right, hlen, hsame.segmentSize, Nat.succ_mul (count + 1), Nat.add_sub_cancel]
      have hnx := ih (rem.right s.2.segmentSize) (s.1, s.2.keep (rem.left s.2.segmentSize))
        (hrem.right hlt hdvd) hright (by rw [hsame.segmentSize]; exact hpos)
        (by rw [hsame.alignment]; exact halign)
      have hl : s.2.Segment (rem.left s.2.segmentSize) := ⟨hrem.left hlt, len_left hlt, halign⟩
      exact hnx.cut_first hrem hlt hl

/-- What a refill or an allocation from a pool leaves. Its calls stay in
one page; the free list and the answer are what they were, with a page of
the number `id` cut up among them. -/
structure PoolOutcome {α : Type} (dma : α → DmaBuffer D) (id : Nat) (s : β × DmaPool D)
    (o : Outcome (β × DmaPool D) (Method R D I) Error α) : Prop where
  confined : ∃ via : Via R D, via.WholeOf s.2.pageSize ∧ ∀ m ∈ o.calls, Confined via m
  parameters : s.2.SameParameters o.state.2
  carving : Carving ⟨id, s.2.free.map piece⟩
    ⟨id + 1, (o.result.toOption.toList.map dma ++ o.state.2.free).map piece⟩
  free : ∀ b ∈ o.state.2.free, b ∈ s.2.free ∨ s.2.Segment b
  result : ∀ a, o.result = .ok a → dma a ∈ s.2.free ∨ s.2.Segment (dma a)

theorem CarveOutcome.poolOutcome {count id hi : Nat} {page : DmaBuffer D}
    (h : CarveOutcome count page s o) (hpage : page.piece = ⟨id, 0, hi⟩) :
    PoolOutcome (fun b => b) id s o := by
  obtain ⟨added, hfree, hseg, hcut⟩ := h.free
  refine ⟨⟨⟨none, none⟩, ⟨rfl, by simp⟩, by simp [h.calls]⟩, h.parameters, ?_, fun b hb => ?_,
    fun b hb => .inr (h.result b hb)⟩
  · have hbeside := (hcut (id + 1)).beside (s.2.free.map piece)
    rw [hpage] at hbeside
    refine (Relation.ReflTransGen.single (.fresh id 0 hi _)).trans (hbeside.trans (Carving.perm ?_))
    rw [hfree, map_id', ← map_append, append_assoc]
    exact (Perm.append_left _ perm_append_comm).map _
  · rw [hfree, mem_append] at hb
    exact hb.imp_right (hseg b)

theorem abandon_issues (via : Via R D) (page : DmaBuffer D) (p : DmaPool D) (e : Error) :
    Issues (fun t => t.2 = p) (Confined via) (fun _ => False) (DmaPool.abandon B page e) := by
  refine .bind (.look fun _ _ => trivial) fun pool (_ : True) => ?_
  refine .ite (fun _ => .fail e trivial) fun _ => ?_
  exact .bind (.attempt (call_issues trivial fun _ ht => ht)) fun _ _ => .fail e trivial

theorem refill_outcome (id : Nat) (dir : DmaDirection) (s : β × DmaPool D) (hp : s.2.Ok) :
    PoolOutcome (fun b => b) id s (DmaPool.refill B id dir s) := by
  obtain ⟨via, hvia, hconf⟩ := allocate_confined s.2.shared id
    s.2.pageSize (.new s.2.alignment) dir false s
  obtain ⟨hkeep, -, hwhole, -⟩ := allocate_issues (B := B.beside (DmaPool D)) (fun t => t.2 = s.2)
    (fun m t ht => ht) s.2.shared id s.2.pageSize (.new s.2.alignment) dir false s rfl
  rw [DmaPool.refill, look_bind]
  generalize halloc : allocate (B.beside (DmaPool D)) s.2.shared id s.2.pageSize
    (.new s.2.alignment) dir false s = alloc at hconf hkeep hwhole
  obtain ⟨result, ⟨b', p'⟩, calls⟩ := alloc
  obtain rfl : p' = s.2 := hkeep
  cases result with
  | error =>
    rw [bind_of_error halloc]
    exact ⟨⟨via, hvia, hconf⟩, ⟨rfl, rfl, rfl, rfl, rfl⟩, .skip _ _, fun b hb => .inl hb, by simp⟩
  | ok page =>
    have hpage := hwhole page rfl
    have hcnt : s.2.pageSize / s.2.segmentSize - 1 + 1 = s.2.pageSize / s.2.segmentSize :=
      Nat.sub_add_cancel (Nat.div_pos hp.fits hp.positive)
    have hcarve := carve_outcome (B := B) (s.2.pageSize / s.2.segmentSize - 1) page (b', s.2)
      (hpage.valid hp.addressable)
      (by rw [hcnt, hpage.len, Nat.div_mul_cancel hp.divides]) hp.positive hpage.alignment
    have hnil := hcarve.calls
    have hpool := hcarve.poolOutcome hpage.piece
    rw [bind_of_ok halloc, bind_of_ok (Eff.attempt_apply _ _), hnil]
    generalize DmaPool.carve B (s.2.pageSize / s.2.segmentSize - 1) page (b', s.2) = run at hpool
    obtain ⟨result, ⟨b'', p''⟩, calls'⟩ := run
    cases result with
    | ok =>
      exact ⟨⟨via, hvia, by simpa using hconf⟩, hpool.parameters, hpool.carving, hpool.free,
        hpool.result⟩
    | error e =>
      obtain ⟨hst, hcs, hn, -⟩ := abandon_issues via page p'' e (b'', p'') rfl
      dsimp only
      generalize DmaPool.abandon B page e (b'', p'') = last at hst hcs hn ⊢
      obtain ⟨result, ⟨b₃, p₃⟩, calls₃⟩ := last
      obtain rfl : p₃ = p'' := hst
      cases result with
      | ok segment => exact (hn segment rfl).elim
      | error =>
        exact ⟨⟨via, hvia, forall_mem_append.mpr ⟨hconf, hcs⟩⟩, hpool.parameters, hpool.carving,
          hpool.free, by simp⟩

theorem allocate_outcome (id : Nat) (dir : DmaDirection) (s : β × DmaPool D) (hp : s.2.Ok) :
    PoolOutcome DmaSegment.dma id s (DmaPool.allocate B id dir s) := by
  rw [DmaPool.allocate, look_bind]
  cases hlast : s.2.free.getLast? with
  | some dma =>
    have hfree : s.2.free = s.2.free.dropLast ++ [dma] := (dropLast_append_getLast? dma hlast).symm
    dsimp only
    rw [bind_of_ok (Eff.modify_apply _ _)]
    have hmem : dma ∈ s.2.free := mem_of_getLast? hlast
    refine ⟨⟨⟨none, none⟩, ⟨rfl, by simp⟩, by simp⟩, ⟨rfl, rfl, rfl, rfl, rfl⟩, ?_,
      fun b hb => .inl (dropLast_subset _ hb), ?_⟩
    · have hperm : s.2.free.Perm (dma :: s.2.free.dropLast) := by
        nth_rewrite 1 [hfree]
        exact perm_append_singleton _ _
      exact (Carving.perm (hperm.map _)).trans (Carving.skip id _)
    · rintro a ⟨⟩
      exact .inl hmem
  | none =>
    have hrefill := refill_outcome (B := B) id dir s hp
    dsimp only
    generalize hrun : DmaPool.refill B id dir s = run at hrefill
    obtain ⟨result, t, calls⟩ := run
    obtain ⟨hconf, hparam, hcarv, hfree, hres⟩ := hrefill
    cases result with
    | error =>
      rw [bind_of_error hrun]
      exact ⟨hconf, hparam, hcarv, hfree, by simp⟩
    | ok dma =>
      rw [bind_of_ok hrun]
      refine ⟨by simpa using hconf, hparam, hcarv, hfree, ?_⟩
      rintro a ⟨⟩
      exact hres dma rfl

end

end Drv.Hardware
