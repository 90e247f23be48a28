import Mathlib.Order.Interval.Set.Basic
import Drv.Hardware.World

/-!
# Views confine what reaches the backend

A view's window is the half-open interval of offsets it covers in its
allocation. `Confined via m` says that every register offset and every
DMA byte range in the backend call `m` lies in the window of a view of
`via`, and that the call carries that view's token; calls that name no
offset are unconstrained.

Each method is shown to make only calls confined to the view it was
called on, whatever the backend answers. A view is `Valid` when its
window lies in an allocation that `usize` can address; the additions the
methods do not check cannot wrap on a valid view.
-/

namespace Drv.Hardware

open List

/-! ## Windows -/

section
variable {R D : Type}

def MmioRegion.window (r : MmioRegion R) : Set ℕ := Set.Ico r.offset (r.offset + r.len)

def DmaBuffer.window (b : DmaBuffer D) : Set ℕ := Set.Ico b.offset (b.offset + b.len)

structure MmioRegion.Valid (r : MmioRegion R) : Prop where
  within : r.offset + r.len ≤ r.allocation.size
  addressable : r.allocation.size < 2 ^ 64

structure DmaBuffer.Valid (b : DmaBuffer D) : Prop where
  within : b.offset + b.len ≤ b.allocation.size
  addressable : b.allocation.size < 2 ^ 64
  aligned : b.alignment ∣ b.offset

/-- The views a call was issued through. -/
structure Via (R D : Type) where
  mmio : Option (MmioRegion R)
  dma : Option (DmaBuffer D)

def Via.ofMmio (r : MmioRegion R) : Via R D := ⟨some r, none⟩
def Via.ofDma (b : DmaBuffer D) : Via R D := ⟨none, some b⟩

/-- Register words at these offsets are in the window of an MMIO view. -/
def Via.Registers (v : Via R D) (token : R) (offsets : List Nat) : Prop :=
  ∃ r ∈ v.mmio, token = r.allocation.token ∧ ∀ o ∈ offsets, Set.Ico o (o + 4) ⊆ r.window

/-- This byte range is in the window of a DMA view. -/
def Via.Memory (v : Via R D) (token : D) (start stop : Nat) : Prop :=
  ∃ b ∈ v.dma, token = b.allocation.token ∧ Set.Ico start stop ⊆ b.window

def Confined {I : Type} (v : Via R D) : Method R D I → Prop
  | .readU32 region offset | .writeU32 region offset _ => v.Registers region [offset]
  | .writeDmaAddress region low high dma offset =>
    v.Registers region (low :: high.toList) ∧ v.Memory dma offset (offset + 1)
  | .dmaDeviceAddress dma offset => v.Memory dma offset (offset + 1)
  | .dmaRead dma r | .dmaWrite dma r _ | .streamingCpuDirty dma r | .streamingCpuRead dma r
  | .syncForCpu dma r | .syncForDevice dma r => v.Memory dma r.start r.stop
  | .dmaReadOnceU32 dma offset | .dmaWriteOnceU32 dma offset _ => v.Memory dma offset (offset + 4)
  | _ => True

end

theorem usizeAdd_of_lt {a b : Nat} (h : a + b < 2 ^ 64) : usizeAdd a b = a + b := Nat.mod_eq_of_lt h

variable {offset length total : Nat}

theorem checkedRange_eq_ok {r : Range} :
    checkedRange offset length total = .ok r ↔
      offset + length < 2 ^ 64 ∧ offset + length ≤ total ∧ r = ⟨offset, offset + length⟩ := by
  unfold checkedRange
  split
  next h =>
    rw [Except.ok.injEq]
    exact ⟨fun hr => ⟨h.1, h.2, hr.symm⟩, fun hr => hr.2.2.symm⟩
  next h => simp only [reduceCtorEq, false_iff]; exact fun hr => h ⟨hr.1, hr.2.1⟩

section
variable {σ R D I : Type} {B : Backend σ R D I} {Inv : σ → Prop} {P : Method R D I → Prop}
  {E : Error → Prop}

/-- The errors of the checks on a handle of generation `g`: any of them,
and the stale one only where the generation has moved. -/
structure Tolerates (B : Backend σ R D I) (Inv : σ → Prop) (g : UInt64) (E : Error → Prop) :
    Prop where
  other : ∀ e, e ≠ .staleHandle → E e
  stale : ∀ s, Inv s → B.generation s ≠ g → E .staleHandle

theorem Tolerates.any (Inv : σ → Prop) (g : UInt64) : Tolerates B Inv g (fun _ => True) :=
  ⟨fun _ _ => trivial, fun _ _ _ => trivial⟩

/-! ## The checks make no call -/

theorem current_issues {g : UInt64} (h : Tolerates B Inv g E) : Makes Inv P (B.current g) E := by
  refine .bind (Q := fun g' => ∃ s, Inv s ∧ B.generation s = g')
    (.look fun s hs => ⟨s, hs, rfl⟩) fun g' hg' => ?_
  obtain ⟨s, hs, rfl⟩ := hg'
  exact .ite (fun _ => .pure trivial) fun hne => .fail _ (h.stale s hs hne)

theorem checkedRange_ne_stale {e : Error} (h : checkedRange offset length total = .error e) :
    e ≠ .staleHandle := by
  unfold checkedRange at h
  split at h
  · cases h
  · cases h
    simp

theorem translate_ne_stale {r : MmioRegion R} {offset : Nat} {e : Error}
    (h : r.translate offset = .error e) : e ≠ .staleHandle := by
  unfold MmioRegion.translate at h
  split at h
  · split at h
    · cases h
    · cases h
      simp
  · cases h

theorem mappedOffset_issues {r : MmioRegion R} (h : Tolerates B Inv r.generation E)
    (offset width : Nat) :
    Issues Inv P (fun m => m + width ≤ r.len) (r.mappedOffset B offset width) E := by
  refine .bind (current_issues h) fun _ _ => ?_
  refine .ite (fun _ => .fail _ (h.other _ (by simp))) fun _ => ?_
  refine .bind (.ofExcept (fun _ _ => trivial)
    fun e he => h.other e (translate_ne_stale he)) fun mapped (_ : True) => ?_
  refine .ite (fun _ => .fail _ (h.other _ (by simp))) fun _ => ?_
  refine .bind (.ofExcept (fun range hrng => ?_)
    fun e he => h.other e (checkedRange_ne_stale he)) fun range hlen => .pure hlen
  exact (checkedRange_eq_ok.mp hrng).2.1

theorem range_issues {b : DmaBuffer D} (h : Tolerates B Inv b.generation E) (o n : Nat) :
    Issues Inv P (fun r => r = ⟨o, o + n⟩ ∧ o + n ≤ b.len) (b.range B o n) E := by
  refine .bind (current_issues h) fun _ _ => .ofExcept (fun r hr => ?_)
    fun e he => h.other e (checkedRange_ne_stale he)
  obtain ⟨-, hle, rfl⟩ := checkedRange_eq_ok.mp hr
  exact ⟨rfl, hle⟩

theorem unlessCoherent_issues {x : Eff σ (Method R D I) Error Unit}
    (hx : Makes Inv P x E) : Makes Inv P (B.unlessCoherent x) E :=
  Issues.bind (.look fun _ _ => trivial) fun _ (_ : True) =>
    .ite (fun _ => .pure trivial) fun _ => hx

theorem perform_issues {m : Method R D I} (hm : P m) (hI : ∀ s, Inv s → Inv (B.exec m s).2)
    (he : ∀ s, Inv s → ∀ e, (B.exec m s).1 = .error e → E e) :
    Makes Inv P (B.perform m) E :=
  Issues.call hm hI (fun _ _ _ => trivial) he

theorem call_issues {m : Method R D I} (hm : P m) (hI : ∀ s, Inv s → Inv (B.exec m s).2) :
    Makes Inv P (B.perform m) :=
  perform_issues hm hI fun _ _ _ _ => trivial

end

section
variable {β R D I : Type} {B : Backend β R D I}

/-! ## MMIO views -/

variable {r : MmioRegion R}

theorem MmioRegion.Valid.register (hr : r.Valid) {m : Nat} (hm : m + 4 ≤ r.len) :
    Set.Ico (usizeAdd r.offset m) (usizeAdd r.offset m + 4) ⊆ r.window := by
  have := hr.within
  have := hr.addressable
  rw [usizeAdd_of_lt (by omega)]
  exact Set.Ico_subset_Ico (by omega) (by omega)

theorem readU32_confined (hr : r.Valid) (offset : Nat) :
    Makes (fun _ => True) (Confined (.ofMmio r)) (r.readU32 B offset) := by
  refine .bind (mappedOffset_issues (.any _ _) offset 4) fun m hm => ?_
  exact call_issues ⟨r, rfl, rfl, forall_mem_singleton.mpr (hr.register hm)⟩ fun _ _ => trivial

theorem writeU32_confined (hr : r.Valid) (offset : Nat) (value : UInt32) :
    Makes (fun _ => True) (Confined (.ofMmio r)) (r.writeU32 B offset value) := by
  refine .bind (mappedOffset_issues (.any _ _) offset 4) fun m hm => ?_
  exact call_issues ⟨r, rfl, rfl, forall_mem_singleton.mpr (hr.register hm)⟩ fun _ _ => trivial

variable {P : Method R D I → Prop} {E : Error → Prop}

theorem mappedHigh_issues {Inv : β → Prop}
    (h : Tolerates B Inv r.generation E) (high : Option Nat) :
    Issues Inv P (fun h => ∀ m ∈ h, m + 4 ≤ r.len) (r.mappedHigh B high) E := by
  cases high with
  | none => exact .pure (by simp)
  | some offset =>
    refine .bind (mappedOffset_issues h offset 4) fun m hm => .pure ?_
    intro m' hm'
    cases hm'
    exact hm

theorem writeDeviceAddress_confined (hr : r.Valid) (low : Nat)
    (high : Option Nat) {address : DeviceAddress D} (ha : address.offset ∈ address.dma.window) :
    Makes (fun _ => True) (Confined ⟨some r, some address.dma⟩)
      (r.writeDeviceAddress B low high address) := by
  refine .bind (mappedOffset_issues (.any _ _) low 4) fun l hl => ?_
  refine .bind (mappedHigh_issues (.any _ _) high) fun h hh => ?_
  refine .ite (fun _ => .fail _ trivial) fun _ => ?_
  refine .bind (current_issues (.any _ _)) fun _ _ => call_issues ⟨⟨r, rfl, rfl, ?_⟩, ?_⟩
    fun _ _ => trivial
  · intro o ho
    rcases mem_cons.mp ho with rfl | ho
    · exact hr.register hl
    · obtain ⟨m, hm, rfl⟩ := Option.map_eq_some_iff.mp (Option.mem_toList.mp ho)
      exact hr.register (hh m hm)
  · refine ⟨address.dma, rfl, rfl, fun x hx => ?_⟩
    have : x = address.offset := by
      rw [Set.mem_Ico] at hx
      omega
    exact this ▸ ha

theorem slice_issues (hr : r.Valid) (offset len : Nat) :
    Issues (fun _ => True) P
      (fun r' => r'.Valid ∧ r'.allocation = r.allocation ∧ r'.generation = r.generation ∧
        r'.window ⊆ r.window) (r.slice B offset len) := by
  refine .ite (fun _ => .fail _ trivial) fun _ => ?_
  refine .bind (.ofExcept (fun range h => checkedRange_eq_ok.mp h)
    fun _ _ => trivial) fun range hrng => ?_
  obtain ⟨-, hle, rfl⟩ := hrng
  refine .bind (current_issues (.any _ _)) fun _ _ => ?_
  refine .ite (fun _ => .pure ?_) fun _ => .fail _ trivial
  have := hr.within
  refine ⟨⟨?_, hr.addressable⟩, rfl, rfl, Set.Ico_subset_Ico ?_ ?_⟩ <;>
    simp only [Range.len] <;> omega

/-! ## DMA views -/

/-- The same view, up to the contents of its shadow. -/
structure DmaBuffer.SameShape (b b' : DmaBuffer D) : Prop where
  allocation : b'.allocation = b.allocation
  generation : b'.generation = b.generation
  offset : b'.offset = b.offset
  alignment : b'.alignment = b.alignment
  len : b'.len = b.len

theorem DmaBuffer.SameShape.refl (b : DmaBuffer D) : b.SameShape b := ⟨rfl, rfl, rfl, rfl, rfl⟩

theorem DmaBuffer.len_store (b : DmaBuffer D) (start : Nat) (data : Bytes) :
    (b.store start data).len = b.len := by
  simp only [DmaBuffer.store, DmaBuffer.len, length_append, length_take, length_drop]
  omega

/-- A call on the memory of the view `b`. -/
def DmaCall (b : DmaBuffer D) : Method R D I → Prop
  | .dmaRead dma r | .dmaWrite dma r _ | .streamingCpuDirty dma r | .streamingCpuRead dma r
  | .syncForCpu dma r | .syncForDevice dma r =>
    dma = b.allocation.token ∧ Set.Ico r.start r.stop ⊆ b.window
  | .dmaReadOnceU32 dma offset | .dmaWriteOnceU32 dma offset _ =>
    dma = b.allocation.token ∧ Set.Ico offset (offset + 4) ⊆ b.window
  | _ => False

variable {b : DmaBuffer D}

theorem DmaCall.confined {m : Method R D I} (h : DmaCall b m) : Confined (.ofDma b) m := by
  cases m with
  | dmaRead | dmaWrite | streamingCpuDirty | streamingCpuRead | syncForCpu | syncForDevice
  | dmaReadOnceU32 | dmaWriteOnceU32 => exact ⟨b, rfl, h⟩
  | _ => exact h.elim

/-- The backend keeps `J` on calls for `b`, and the errors of these calls
and of the checks on `b` are in `E`. -/
structure Serves (B : Backend β R D I) (b : DmaBuffer D) (J : β → Prop) (E : Error → Prop) :
    Prop where
  other : ∀ e, e ≠ .staleHandle → E e
  stale : ∀ s, J s → B.generation s ≠ b.generation → E .staleHandle
  keeps : ∀ m, DmaCall b m → ∀ s, J s → J (B.exec m s).2
  error : ∀ m, DmaCall b m → ∀ s, J s → ∀ e, (B.exec m s).1 = .error e → E e

section
variable {P : Method R D I → Prop} {J : β → Prop} {E : Error → Prop}

/-- The state beside a buffer that still has the shape of `b`. -/
def Holds (b : DmaBuffer D) (J : β → Prop) (s : β × DmaBuffer D) : Prop := J s.1 ∧ b.SameShape s.2

theorem store_issues (b : DmaBuffer D) (start : Nat) (data : Bytes) :
    Makes (Holds b J) P (Mut.store start data : Mut β R D I Unit) E :=
  Issues.modify fun _ hs => ⟨hs.1, hs.2.allocation, hs.2.generation, hs.2.offset, hs.2.alignment,
    (DmaBuffer.len_store _ _ _).trans hs.2.len⟩

theorem beside_issues (h : Serves B b J E) {m : Method R D I} (hm : DmaCall b m) :
    Makes (Holds b J) (DmaCall b) ((B.beside _).perform m) E :=
  perform_issues hm (fun s hs => ⟨h.keeps m hm s.1 hs.1, hs.2⟩) fun s hs => h.error m hm s.1 hs.1

end

/-- What a range check on a view of the shape of `b` gives: the backend
range is in the window of `b` and as long as asked. -/
structure InView (b b' : DmaBuffer D) (n : Nat) (r : Range) : Prop where
  token : b'.allocation.token = b.allocation.token
  stop : (b'.backendRange r).stop = (b'.backendRange r).start + n
  subset : Set.Ico (b'.backendRange r).start (b'.backendRange r).stop ⊆ b.window

variable {b' : DmaBuffer D}

theorem InView.memory {n : Nat} {r : Range} (h : InView b b' n r) :
    b'.allocation.token = b.allocation.token ∧
      Set.Ico (b'.backendRange r).start (b'.backendRange r).stop ⊆ b.window :=
  ⟨h.token, h.subset⟩

theorem InView.word {r : Range} (h : InView b b' 4 r) :
    b'.allocation.token = b.allocation.token ∧
      Set.Ico (b'.backendRange r).start ((b'.backendRange r).start + 4) ⊆ b.window :=
  h.stop ▸ h.memory

theorem inView_of_le (hb : b.Valid) (hs : b.SameShape b') {o n : Nat}
    (hle : o + n ≤ b'.len) : InView b b' n ⟨o, o + n⟩ := by
  have := hb.within
  have := hb.addressable
  rw [hs.len] at hle
  have hstart : (b'.backendRange ⟨o, o + n⟩).start = b.offset + o := by
    show usizeAdd b'.offset o = b.offset + o
    rw [hs.offset, usizeAdd_of_lt (by omega)]
  have hstop : (b'.backendRange ⟨o, o + n⟩).stop = b.offset + (o + n) := by
    show usizeAdd b'.offset (o + n) = b.offset + (o + n)
    rw [hs.offset, usizeAdd_of_lt (by omega)]
  refine ⟨by rw [hs.allocation], by rw [hstart, hstop, Nat.add_assoc], ?_⟩
  exact Set.Ico_subset_Ico (by omega) (by omega)

section
variable {α : Type} {b : DmaBuffer D} {k : DmaBuffer D → Range → Mut β R D I α}
  {J : β → Prop} {E : Error → Prop}

theorem Serves.tolerates (h : Serves B b J E) (hs : b.SameShape b') :
    Tolerates (B.beside (DmaBuffer D)) (Holds b J) b'.generation E :=
  ⟨h.other, fun s hJ hne => h.stale s.1 hJ.1 (hs.generation ▸ hne)⟩

theorem ranged_issues (h : Serves B b J E) (hb : b.Valid) (o n : Nat)
    (hk : ∀ b' r, InView b b' n r → Makes (Holds b J) (DmaCall b) (k b' r) E) :
    Makes (Holds b J) (DmaCall b)
      (Mut.self >>= fun b' => b'.range (B.beside _) o n >>= k b') E := by
  refine .bind (.look fun _ hs => hs.2) fun b' (hs : b.SameShape b') => ?_
  refine .bind (range_issues (h.tolerates hs) o n) fun r hr => ?_
  obtain ⟨rfl, hle⟩ := hr
  exact hk b' _ (inView_of_le hb hs hle)

theorem podRanged_issues (h : Serves B b J E) (hb : b.Valid) (size align o : Nat)
    (hk : ∀ b' r, InView b b' size r →
      Makes (Holds b J) (DmaCall b) (k b' r) E) : Makes (Holds b J) (DmaCall b)
      (Mut.self >>= fun b' => b'.podRange (B.beside _) size align o >>= k b') E := by
  refine .bind (.look fun _ hs => hs.2) fun b' (hs : b.SameShape b') => ?_
  refine .bind (.ite (fun _ => .fail _ (h.other _ (by simp))) fun _ =>
    range_issues (h.tolerates hs) o size) fun r hr => ?_
  obtain ⟨rfl, hle⟩ := hr
  exact hk b' _ (inView_of_le hb hs hle)

end

theorem discard_issues {α : Type} {σ : Type} {Inv : σ → Prop} {x : Eff σ (Method R D I) Error α}
    (hx : Makes Inv P x E) : Makes Inv P (x >>= fun _ => pure ()) E :=
  Issues.bind hx fun _ _ => .pure trivial

/-- Every accessor of a DMA view only calls for that view, in its window,
and keeps its shape. -/
theorem dmaOp_issues {J : β → Prop} (h : Serves B b J E) (hb : b.Valid) (op : DmaOp) :
    Makes (Holds b J) (DmaCall b) (op.run B) E := by
  cases op with
  | coherentWrite o bs | streamingWrite o bs =>
    refine ranged_issues h hb o bs.length fun b' r hr => ?_
    exact .bind (store_issues b _ _) fun _ _ => beside_issues h hr.memory
  | coherentWritePod a o v | streamingWritePod a o v =>
    refine podRanged_issues h hb v.length a o fun b' r hr => ?_
    exact .bind (store_issues b _ _) fun _ _ => beside_issues h hr.memory
  | coherentWriteOnce o =>
    refine podRanged_issues h hb 4 4 o fun b' r hr => ?_
    exact .bind (beside_issues h hr.word) fun _ _ => store_issues b _ _
  | coherentRead o n =>
    refine discard_issues (ranged_issues h hb o n fun b' r hr => ?_)
    refine .bind (beside_issues h hr.memory) fun out _ => ?_
    exact .bind (store_issues b _ _) fun _ _ => .pure trivial
  | coherentReadPod n a o =>
    refine discard_issues (podRanged_issues h hb n a o fun b' r hr => ?_)
    refine .bind (beside_issues h hr.memory) fun out _ => ?_
    refine .bind (store_issues b _ _) fun _ _ => ?_
    exact .bind (.look fun _ hs => hs.2) fun _ _ => .pure trivial
  | coherentReadOnce o =>
    refine discard_issues (podRanged_issues h hb 4 4 o fun b' r hr => ?_)
    refine .bind (beside_issues h hr.word) fun value _ => ?_
    exact .bind (store_issues b _ _) fun _ _ => .pure trivial
  | streamingWriteOnce o =>
    refine podRanged_issues h hb 4 4 o fun b' r hr => ?_
    refine .bind (beside_issues h hr.word) fun _ _ => ?_
    refine .bind (unlessCoherent_issues (beside_issues h hr.memory)) fun _ _ => ?_
    exact store_issues b _ _
  | syncForDevice o n =>
    refine ranged_issues h hb o n fun b' r hr => ?_
    refine .bind (beside_issues h hr.memory) fun _ _ => ?_
    exact unlessCoherent_issues (beside_issues h hr.memory)
  | acquireForCpu o n | prepareForDevice o n =>
    exact ranged_issues h hb o n fun b' r hr => unlessCoherent_issues (beside_issues h hr.memory)
  | refreshForCpu o n =>
    refine ranged_issues h hb o n fun b' r hr => ?_
    exact .bind (beside_issues h hr.memory) fun out _ => store_issues b _ _
  | syncForCpu o n =>
    refine .bind (ranged_issues h hb o n fun b' r hr =>
      unlessCoherent_issues (beside_issues h hr.memory)) fun _ _ => ?_
    refine ranged_issues h hb o n fun b' r hr => ?_
    exact .bind (beside_issues h hr.memory) fun out _ => store_issues b _ _
  | streamingRead o n =>
    refine discard_issues (ranged_issues h hb o n fun b' r hr => ?_)
    exact .bind (beside_issues h hr.memory) fun _ _ => .pure trivial
  | streamingReadPod n a o =>
    refine discard_issues (podRanged_issues h hb n a o fun b' r hr => ?_)
    exact .bind (beside_issues h hr.memory) fun _ _ => .pure trivial
  | streamingReadOnce o =>
    refine discard_issues (podRanged_issues h hb 4 4 o fun b' r hr => ?_)
    refine .bind (unlessCoherent_issues (beside_issues h hr.memory)) fun _ _ => ?_
    refine .bind (beside_issues h hr.word) fun value _ => ?_
    exact .bind (store_issues b _ _) fun _ _ => .pure trivial

theorem dmaOp_confined (hb : b.Valid) (op : DmaOp) :
    Makes (Holds b fun _ => True) (Confined (.ofDma b)) (op.run B) := by
  have hserves : Serves B b (fun _ => True) (fun _ => True) := by constructor <;> simp
  exact (dmaOp_issues hserves hb op).weaken (fun _ hm => hm.confined) fun _ _ => trivial

theorem deviceAddressAt_confined (hb : b.Valid) (offset : Nat) :
    Issues (fun _ => True) (Confined (.ofDma b))
      (fun a => a.dma = b ∧ a.offset ∈ b.window) (b.deviceAddressAt B offset) := by
  refine .ite (fun _ => .fail _ trivial) fun hlt => ?_
  have := hb.within
  have := hb.addressable
  have hmem : usizeAdd b.offset offset ∈ b.window := by
    rw [usizeAdd_of_lt (by omega)]
    exact Set.mem_Ico.mpr ⟨by omega, by omega⟩
  refine .bind (call_issues ⟨b, rfl, rfl, fun x hx => ?_⟩ fun _ _ => trivial)
    fun bits _ => .pure ⟨rfl, hmem⟩
  have : x = usizeAdd b.offset offset := by
    rw [Set.mem_Ico] at hx
    omega
  exact this ▸ hmem

end

end Drv.Hardware
