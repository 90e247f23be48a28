import Drv.Laws.Hardware.Stale
import Drv.Laws.Vfio.Frame

/-!
# Handles the backend knows

The backend looks handles up in its tables and nowhere else: a handle in
the table of its kind is never answered as stale, and a call that only
asks for such handles leaves them there (`linuxVfio_serving`). A DMA
handle out of its table has no device address (`linuxVfio_forgets`). Both
halves are followed through a method at once (`Tame`). Other errors are
not excluded: the kernel may refuse any of the calls.
-/

namespace Drv.Vfio

open Drv.Hardware (Error Method Handle Names Serving Forgets)
open List

abbrev Token := Handle Nat Nat Nat

/-- The handle is in the table of its kind. -/
def LinuxVfio.Holds (s : LinuxVfio) : Token → Prop
  | .region id _ => id ∈ s.regions
  | .dma id _ => id ∈ s.dmas
  | .interrupt id _ => id ∈ s.interrupts

theorem quiet_holds {s s' : LinuxVfio} (h : Quiet s s') {t : Token} (ht : s.Holds t) :
    s'.Holds t := by
  cases t with
  | region id => exact h.regions id ht
  | dma id =>
    show id ∈ s'.dmas
    rw [h.dmas]
    exact ht
  | interrupt id => exact h.interrupts id ht

/-- These handles are current and in their tables. -/
def Knows (hs : List Token) (s : LinuxVfio) : Prop :=
  ∀ t ∈ hs, s.generation = t.generation ∧ s.Holds t

theorem knows_quiet {hs : List Token} {s s' : LinuxVfio} (hq : Quiet s s') (h : Knows hs s) :
    Knows hs s' :=
  fun t ht => ⟨hq.generation.trans (h t ht).1, quiet_holds hq (h t ht).2⟩

/-- `x` is quiet, and from a state that knows the handles it does not fail
as stale. -/
structure Tame {α : Type} (hs : List Token) (x : Vf α) : Prop where
  quiet : Within Quiet x
  current : ∀ s, Knows hs s → (x s).result ≠ .error .staleHandle

namespace Tame

variable {α β : Type} {hs : List Token}

theorem pure (a : α) : Tame hs (pure a : Vf α) := ⟨.pure a, by simp⟩

theorem fail {e : Error} (h : e ≠ .staleHandle) : Tame hs (Eff.fail e : Vf α) :=
  ⟨.fail e, fun _ _ => by simpa using h⟩

theorem bind {x : Vf α} {f : α → Vf β} (hx : Tame hs x) (hf : ∀ a, Tame hs (f a)) :
    Tame hs (x >>= f) where
  quiet := .bind hx.quiet fun a => (hf a).quiet
  current s hknows := by
    have hpre := hx.current s hknows
    rw [Eff.bind_apply]
    split
    next a _ => exact (hf a).current _ (knows_quiet (hx.quiet s) hknows)
    next e he => simpa [he] using hpre

theorem ite {c : Prop} [Decidable c] {x y : Vf α} (hx : Tame hs x) (hy : Tame hs y) :
    Tame hs (if c then x else y) := by
  split
  · exact hx
  · exact hy

theorem look (f : LinuxVfio → α) : Tame hs (Eff.look f : Vf α) := ⟨.look f, by simp⟩

theorem sys {x : Sys α} (h : Asks Syscall.Inert x) : Tame hs (sys x) :=
  ⟨LinuxVfio.sys_quiet h, fun _ _ he => by cases he⟩

theorem modify {f : LinuxVfio → LinuxVfio} (h : Within Quiet (Eff.modify f : Vf Unit)) :
    Tame hs (Eff.modify f : Vf Unit) := ⟨h, by simp⟩

end Tame

namespace LinuxVfio

section
variable (P : Platform) {hs : List Token}

/-! ## Lookups -/

variable {id : Nat}

theorem lookup_of_mem {V : Type} {table : Table V} (h : id ∈ table) :
    ∃ v, table.lookup id = some v :=
  Option.isSome_iff_exists.mp (AList.lookup_isSome.mpr h)

variable {g : UInt64}

theorem dma_tame (h : .dma id g ∈ hs) : Tame hs (dma id) where
  quiet := by
    refine .look_bind fun dmas => ?_
    split
    · exact .pure _
    · exact .fail _
  current s hknows := by
    obtain ⟨d, hd⟩ := lookup_of_mem (hknows _ h).2
    rw [dma, Eff.look_bind, hd]
    simp

theorem interrupt_tame (h : .interrupt id g ∈ hs) : Tame hs (interrupt id) where
  quiet := by
    refine .look_bind fun interrupts => ?_
    split
    · exact .pure _
    · exact .fail _
  current s hknows := by
    obtain ⟨entry, hent⟩ := lookup_of_mem (hknows _ h).2
    rw [interrupt, Eff.look_bind, hent]
    simp

theorem register_tame {region : Nat} (h : .region region g ∈ hs) (offset : Nat) :
    Tame hs (register region offset) where
  quiet := by
    refine .look_bind fun regions => ?_
    split
    · exact .fail _
    · exact .ite (.pure _) (.fail _)
  current s hknows := by
    obtain ⟨mapping, hmapping⟩ := lookup_of_mem (hknows _ h).2
    rw [register, Eff.look_bind, hmapping]
    exact Tame.current (.ite (.pure mapping) (.fail (by simp))) s hknows

theorem keepIrq_tame (id : Nat) (vector : UInt32) (irq : VfioIrq) :
    Tame hs (keepIrq id vector irq) :=
  .modify (.modify fun s => { Quiet.refl s with
    interrupts := fun _ h => (AList.mem_insert _).mpr (.inr h) })

theorem now_tame : Tame hs (now P) := by
  refine .bind (.sys (.ask P trivial)) fun answer => ?_
  cases answer with
  | none => exact .fail (by simp)
  | some => exact .pure _

/-! ## Calls that name known handles -/

theorem writeU32_tame {region : Nat} (h : .region region g ∈ hs) (offset : Nat)
    (value : UInt32) : Tame hs (writeU32 P region offset value) :=
  .bind (register_tame h offset) fun _ => .sys (.ask P trivial)

theorem dmaDeviceAddress_tame (h : .dma id g ∈ hs) (offset : Nat) :
    Tame hs (dmaDeviceAddress id offset) :=
  .bind (dma_tame h) fun _ => .ite (.fail (by simp)) (.ite (.pure _) (.fail (by simp)))

theorem writeDmaAddress_tame {region dma : Nat} {g' : UInt64} (h : .region region g ∈ hs)
    (h' : .dma dma g' ∈ hs) (low : Nat) (high : Option Nat) (offset : Nat) :
    Tame hs (writeDmaAddress P region low high dma offset) := by
  refine .bind (dmaDeviceAddress_tame h' offset) fun address => .ite (.fail (by simp)) ?_
  refine .bind (writeU32_tame P h low _) fun _ => ?_
  cases high with
  | none => exact .pure _
  | some high => exact writeU32_tame P h high _

theorem sync_tame {operation : BrokerOp} (h : operation = .syncCpu ∨ operation = .syncDevice)
    (range : Hardware.Range) (dma : Dma) : Tame hs (sync P operation range dma) := by
  refine .bind (.look _) fun flavor => ?_
  cases flavor with
  | coherent => exact .pure _
  | pciCoherent => exact .pure _
  | broker =>
    dsimp only
    split
    · exact .fail (by simp)
    · refine .bind (.bind (.sys (.ask P h)) fun reply => ?_) fun _ => .pure _
      cases reply with
      | none => exact .fail (by simp)
      | some => exact .pure _

theorem waitInterrupt_tame (h : .interrupt id g ∈ hs)
    (deadlineNs : UInt64) : Tame hs (waitInterrupt P id deadlineNs) := by
  refine .bind (interrupt_tame h) fun (vector, irq) => ?_
  refine .bind (.sys (waitUntil_inert P irq deadlineNs)) fun (answer, irq) => ?_
  refine .bind (keepIrq_tame id vector irq) fun _ => ?_
  cases answer with
  | none => exact .fail (by simp)
  | some => exact .bind (now_tame P) fun _ => .pure _

theorem pollInterrupt_tame (h : .interrupt id g ∈ hs) : Tame hs (pollInterrupt P id) := by
  refine .bind (.modify (.modify fun s => { Quiet.refl s with })) fun _ => ?_
  refine .bind (interrupt_tame h) fun (vector, irq) => .ite ?_ (.fail (by simp))
  refine .bind (.sys (prepareWait_inert P irq)) fun (ok, irq) => ?_
  refine .bind (keepIrq_tame id vector irq) fun _ => .ite ?_ (.fail (by simp))
  refine .bind (.sys (.ask P trivial)) fun answer => ?_
  cases answer with
  | pending => exact .bind (.modify (.modify fun s => { Quiet.refl s with })) fun _ => .pure _
  | failed => exact .fail (by simp)
  | ready =>
    refine .bind (keepIrq_tame id vector _) fun _ => ?_
    exact .bind (now_tame P) fun _ => .pure _

variable {ids : List Nat}

theorem prepareAll_tame (h : ∀ id ∈ ids, ∃ g, .interrupt id g ∈ hs) :
    Tame hs (prepareAll P ids) := by
  induction ids with
  | nil => exact .pure _
  | cons id rest ih =>
    obtain ⟨g, hid⟩ := h id mem_cons_self
    refine .bind (interrupt_tame hid) fun (vector, irq) => ?_
    refine .bind (.sys (prepareWait_inert P irq)) fun (ok, irq) => ?_
    refine .bind (keepIrq_tame id vector irq) fun _ => .ite ?_ (.fail (by simp))
    refine .bind (ih fun id' hid' => ?_) fun _ => .pure _
    exact h id' (mem_cons_of_mem id hid')

theorem readReady_tame (atNs : UInt64)
    (h : ∀ id ∈ ids, ∃ g, .interrupt id g ∈ hs) : Tame hs (readReady P atNs ids) := by
  induction ids with
  | nil => exact .pure _
  | cons id rest ih =>
    obtain ⟨g, hid⟩ := h id mem_cons_self
    have hr := ih fun id' hid' => h id' (mem_cons_of_mem id hid')
    refine .bind (interrupt_tame hid) fun (vector, irq) => ?_
    refine .bind (.sys (tryRead_inert P irq)) fun (answer, irq) => ?_
    refine .bind (keepIrq_tame id vector irq) fun _ => ?_
    match answer with
    | none => exact .fail (by simp)
    | some none => exact hr
    | some (some count) => exact .bind hr fun _ => .pure _

theorem waitAny_tame (h : ∀ id ∈ ids, ∃ g, .interrupt id g ∈ hs)
    (deadlineNs : UInt64) : Tame hs (waitAny P ids deadlineNs) := by
  refine .ite (.fail (by simp)) (.bind (prepareAll_tame P h) fun fds => ?_)
  refine .bind (.sys (.ask P trivial)) fun ready => ?_
  cases ready with
  | none => exact .fail (by simp)
  | some =>
    refine .bind (now_tame P) fun atNs => readReady_tame P atNs fun id hid => ?_
    obtain ⟨index, -, hidx⟩ := mem_filterMap.mp hid
    exact h id (mem_of_getElem? hidx)

variable {m : Method Nat Nat Nat}

theorem method_tame (h : Names hs m) : Tame hs (method P m) := by
  cases m with
  | readU32 region offset =>
    obtain ⟨g, h⟩ := h
    exact .bind (register_tame h offset) fun _ => .sys (.ask P trivial)
  | writeU32 region offset value =>
    obtain ⟨g, h⟩ := h
    exact writeU32_tame P h offset value
  | writeDmaAddress region low high dma offset =>
    obtain ⟨⟨g, h⟩, g', h'⟩ := h
    exact writeDmaAddress_tame P h h' low high offset
  | dmaDeviceAddress dma offset =>
    obtain ⟨g, h⟩ := h
    exact dmaDeviceAddress_tame h offset
  | dmaRead dma range | dmaWrite dma range bytes =>
    obtain ⟨g, h⟩ := h
    refine .bind (dma_tame h) fun dma => .ite (.fail (by simp)) (.ite (.fail (by simp)) ?_)
    exact .ite (.sys (.ask P trivial)) (.fail (by simp))
  | streamingCpuDirty => exact .pure _
  | streamingCpuRead => exact .pure _
  | dmaReadOnceU32 dma offset | dmaWriteOnceU32 dma offset value =>
    obtain ⟨g, h⟩ := h
    exact .bind (dma_tame h) fun _ => .ite (.sys (.ask P trivial)) (.fail (by simp))
  | syncForCpu dma range =>
    obtain ⟨g, h⟩ := h
    refine .bind (dma_tame h) fun dma => .ite (.fail (by simp)) (.ite (.fail (by simp)) ?_)
    exact sync_tame P (.inl rfl) range dma
  | syncForDevice dma range =>
    obtain ⟨g, h⟩ := h
    refine .bind (dma_tame h) fun dma => .ite (.fail (by simp)) ?_
    exact sync_tame P (.inr rfl) range dma
  | waitInterrupt interrupt deadlineNs =>
    obtain ⟨g, h⟩ := h
    exact waitInterrupt_tame P h deadlineNs
  | pollInterrupt =>
    obtain ⟨g, h⟩ := h
    exact pollInterrupt_tame P h
  | waitAny interrupts deadlineNs => exact waitAny_tame P h deadlineNs
  | disableInterrupt interrupt =>
    obtain ⟨g, h⟩ := h
    refine .bind (interrupt_tame h) fun (vector, irq) => ?_
    refine .bind (.sys (disable_inert P irq)) fun (ok, irq) => ?_
    exact .bind (keepIrq_tame interrupt vector irq) fun _ => .ite (.pure _) (.fail (by simp))
  | _ => exact h.elim

/-- The methods that give nothing to the device and take no handle away. -/
def Plain : Method Nat Nat Nat → Prop
  | .allocDmaConstrained .. | .releaseRegion _ | .releaseDma _ | .releaseInterrupt _
  | .reset => False
  | _ => True

theorem plain_quiet (h : Plain m) : Within Quiet (method P m) := by
  -- which handles a method names does not matter for what it leaves alone
  have hnamed {m : Method Nat Nat Nat} (hs : List Token) (h : Names hs m) :
      Within Quiet (method P m) := (method_tame P h).quiet
  cases m with
  | openRegion index => exact (openRegion_opens P index).quiet
  | openInterrupt vector => exact (openInterrupt_opens P vector).quiet
  | disableInterruptVector vector => exact disableInterruptVector_quiet P vector
  | readU32 region | writeU32 region => exact hnamed [.region region 0] ⟨0, by simp⟩
  | writeDmaAddress region _ _ dma =>
    exact hnamed [.region region 0, .dma dma 0] ⟨⟨0, by simp⟩, 0, by simp⟩
  | dmaDeviceAddress dma | dmaRead dma | dmaWrite dma | streamingCpuDirty dma
  | streamingCpuRead dma | dmaReadOnceU32 dma | dmaWriteOnceU32 dma | syncForCpu dma
  | syncForDevice dma => exact hnamed [.dma dma 0] ⟨0, by simp⟩
  | waitInterrupt interrupt | pollInterrupt interrupt | disableInterrupt interrupt =>
    exact hnamed [.interrupt interrupt 0] ⟨0, by simp⟩
  | waitAny interrupts =>
    exact hnamed (interrupts.map (.interrupt · 0)) fun _ h => ⟨0, mem_map_of_mem h⟩
  | allocDmaConstrained | releaseRegion | releaseDma | releaseInterrupt | reset => exact h.elim

theorem linuxVfio_serving (hs : List Token) : Serving (linuxVfio P) hs (Knows hs) where
  current t ht _ h := (h t ht).1
  keeps _ hm s h := knows_quiet ((method_tame P hm).quiet s) h
  known _ hm := (method_tame P hm).current

theorem linuxVfio_forgets {s : LinuxVfio} (h : id ∉ s.dmas) : Forgets (linuxVfio P) s id := by
  intro offset
  have hlook : s.dmas.lookup id = none := AList.lookup_eq_none.mpr h
  have hdma : dma id s = ⟨.error .staleHandle, s, []⟩ := by
    rw [dma, Eff.look_bind, hlook]
    rfl
  have hrun : method P (.dmaDeviceAddress id offset) s = ⟨.error .staleHandle, s, []⟩ :=
    Eff.bind_of_error hdma
  show ((method P (.dmaDeviceAddress id offset) s).result,
    (method P (.dmaDeviceAddress id offset) s).state) = _
  rw [hrun]

end

end LinuxVfio

end Drv.Vfio
