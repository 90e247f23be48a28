import Drv.Vfio.Backend

/-!
# What most methods leave alone

All but five methods of the VFIO backend touch no DMA mapping, no counter
of device addresses and no generation, and take no handle away. `Quiet`
says so of the states around a call. It is proved here of the methods that
open something, whatever the kernel answers, and in the next module of
those that use a handle (`plain_quiet`). The other five are the subject of
the modules that follow.
-/

namespace Drv.Vfio

open Drv.Hardware (Error)
open Syscall

/-! ## Requests made -/

/-- Requests that neither map nor unmap DMA memory, nor reset the device. -/
def Syscall.Inert : Syscall → Prop
  | mmap .. | munmap .. | ioasMap .. | ioasUnmap .. | reset => False
  | broker command => command.operation = .syncCpu ∨ command.operation = .syncDevice
  | _ => True

/-- The trace grows by requests in `p`. -/
def Extends (p : Syscall → Prop) (t t' : Trace) : Prop := ∃ ext, t' = t ++ ext ∧ ∀ e ∈ ext, p e.call

variable {p : Syscall → Prop}

theorem Extends.refl (t : Trace) : Extends p t t :=
  ⟨[], (List.append_nil t).symm, by simp⟩

theorem Extends.trans {t t' t'' : Trace} (h : Extends p t t') (h' : Extends p t' t'') :
    Extends p t t'' := by
  obtain ⟨ext, rfl, hext⟩ := h
  obtain ⟨ext', rfl, hext'⟩ := h'
  exact ⟨ext ++ ext', List.append_assoc .., List.forall_mem_append.mpr ⟨hext, hext'⟩⟩

theorem bind_run {α β : Type} (x : Sys α) (f : α → Sys β) (t : Trace) :
    (x >>= f) t = f (x t).1 (x t).2 := rfl

theorem ask_run (P : Platform) (c : Syscall) (t : Trace) :
    ask P c t = (P.answer t c, t ++ [⟨c, P.answer t c⟩]) := rfl

/-- Every request of `x` is in `p`. -/
def Asks {α : Type} (p : Syscall → Prop) (x : Sys α) : Prop := ∀ t, Extends p t (x t).2

namespace Asks

variable {α β : Type} {p : Syscall → Prop}

theorem pure (a : α) : Asks p (pure a : Sys α) := fun t => .refl t

theorem get : Asks p (StateT.get : Sys Trace) := fun t => .refl t

theorem ask (P : Platform) {c : Syscall} (h : p c) : Asks p (ask P c) := by
  intro t
  exact ⟨[⟨c, P.answer t c⟩], rfl, List.forall_mem_singleton.mpr h⟩

theorem bind {x : Sys α} {f : α → Sys β} (hx : Asks p x) (hf : ∀ a, Asks p (f a)) :
    Asks p (x >>= f) :=
  fun t => (hx t).trans (hf (x t).1 (x t).2)

theorem ite {c : Prop} [Decidable c] {x y : Sys α} (hx : Asks p x) (hy : Asks p y) :
    Asks p (if c then x else y) := by
  split
  · exact hx
  · exact hy

end Asks

section
variable (P : Platform)

theorem region_teardown_inert (r : RegionMapping) : Asks Inert (r.teardown P) := by
  refine .ite (.bind (.ask P trivial) fun _ => ?_) (.pure _)
  exact .ite (.pure _) (.pure _)

theorem irqCapability_inert (index : UInt32) : Asks Inert (irqCapability P index) := by
  refine .bind (.ask P trivial) fun info => ?_
  cases info with
  | none => exact .pure _
  | some => exact .pure _

variable (i : VfioIrq)

theorem prepareWait_inert : Asks Inert (i.prepareWait P) :=
  Asks.ite (.bind (.ask P trivial) fun _ => .pure _) (.pure _)

theorem tryRead_inert : Asks Inert (i.tryRead P) := by
  refine .bind (.ask P trivial) fun answer => ?_
  match answer with
  | some (some _) => exact .pure _
  | some none => exact .pure _
  | none => exact .pure _

theorem waitUntil_inert (deadlineNs : UInt64) : Asks Inert (i.waitUntil P deadlineNs) := by
  refine .bind (prepareWait_inert P i) fun prepared => ?_
  match prepared with
  | (false, i) => exact .pure _
  | (true, i) =>
    refine .bind (.ask P trivial) fun ready => ?_
    match ready with
    | none => exact .pure _
    | some [] => exact .pure _
    | some (_ :: _) => exact tryRead_inert P i

theorem disable_inert : Asks Inert (i.disable P) := by
  refine .ite (.bind (prepareWait_inert P i) fun prepared => ?_) (.pure _)
  match prepared with
  | (false, i) => exact .pure _
  | (true, i) => exact .bind (.ask P trivial) fun _ => .pure _

end

/-! ## Quiet methods -/

/-- The states around a call that leaves the DMA mappings alone and takes
no handle away. -/
structure Quiet (s s' : LinuxVfio) : Prop where
  flavor : s'.flavor = s.flavor
  generation : s'.generation = s.generation
  nextIova : s'.nextIova = s.nextIova
  dmas : s'.dmas = s.dmas
  quarantinedDmas : s'.quarantinedDmas = s.quarantinedDmas
  nextId : s.nextId ≤ s'.nextId
  regions : ∀ id ∈ s.regions, id ∈ s'.regions
  interrupts : ∀ id ∈ s.interrupts, id ∈ s'.interrupts
  trace : Extends Inert s.trace s'.trace

open Quiet

theorem Quiet.refl (s : LinuxVfio) : Quiet s s :=
  ⟨rfl, rfl, rfl, rfl, rfl, le_rfl, fun _ h => h, fun _ h => h, .refl _⟩

theorem Quiet.trans {s s' s'' : LinuxVfio} (h : Quiet s s') (h' : Quiet s' s'') : Quiet s s'' where
  flavor := h'.flavor.trans h.flavor
  generation := h'.generation.trans h.generation
  nextIova := h'.nextIova.trans h.nextIova
  dmas := h'.dmas.trans h.dmas
  quarantinedDmas := h'.quarantinedDmas.trans h.quarantinedDmas
  nextId := h.nextId.trans h'.nextId
  regions id hid := h'.regions id (h.regions id hid)
  interrupts id hid := h'.interrupts id (h.interrupts id hid)
  trace := h.trace.trans h'.trace

instance : IsPreorder LinuxVfio Quiet where
  refl := refl
  trans _ _ _ := trans

namespace LinuxVfio

theorem sys_quiet {α : Type} {x : Sys α} (h : Asks Inert x) : Within Quiet (sys x) :=
  fun s => { refl s with trace := h s.trace }

theorem id_cases (s : LinuxVfio) :
    (id s = ⟨.error .limit, s, []⟩) ∨
      (id s = ⟨.ok s.nextId, { s with nextId := s.nextId + 1 }, []⟩) := by
  unfold id
  rw [Eff.bind_of_ok (Eff.look_apply _ _)]
  split
  · exact .inr rfl
  · exact .inl rfl

theorem id_quiet : Within Quiet id := by
  intro s
  rcases id_cases s with h | h
  · rw [h]
    exact .refl s
  · rw [h]
    exact { refl s with nextId := Nat.le_succ _ }

variable (P : Platform)

/-! ### Handles that come -/

variable (vector : UInt32)

theorem vectorCapability_quiet : Within Quiet (vectorCapability P vector) := by
  refine .look_bind fun pciIrq => ?_
  cases pciIrq with
  | some => exact .guard (.pure _)
  | none =>
    refine .bind (sys_quiet (irqCapability_inert P vector)) fun capability => ?_
    cases capability with
    | some => exact .pure _
    | none => exact .fail _

theorem preparedEvent_quiet : Within Quiet preparedEvent := by
  refine .look_bind fun prepared => ?_
  match prepared with
  | none => exact .pure _
  | some [] => exact .fail _
  | some (event :: rest) =>
    refine .bind (.modify fun s => ?_) fun _ => .pure _
    exact { refl s with }

theorem irqEvent_quiet (prepared : Option InterruptEvent) : Within Quiet (irqEvent P prepared) := by
  cases prepared with
  | some => exact .pure _
  | none =>
    refine .bind (sys_quiet (.ask P trivial)) fun fd => ?_
    cases fd with
    | some => exact .pure _
    | none => exact .fail _

/-- A call that is quiet, and answers a new handle of the table. -/
structure Opens (holds : LinuxVfio → Nat → Prop) (x : Vf Nat) : Prop where
  quiet : Within Quiet x
  issued : Answers (fun s id s' => s.nextId ≤ id ∧ id < s'.nextId ∧ holds s' id) x

namespace Opens

variable {holds : LinuxVfio → Nat → Prop} {α : Type}

theorem fail (e : Error) : Opens holds (Eff.fail e) := ⟨.fail e, .fail e⟩

theorem guard {c : Prop} [Decidable c] {e : Error} {x : Vf Nat} (h : Opens holds x) :
    Opens holds (if c then Eff.fail e else x) :=
  ⟨.guard h.quiet, .ite (.fail e) h.issued⟩

theorem after {x : Vf α} {f : α → Vf Nat} (hx : Within Quiet x) (hf : ∀ a, Opens holds (f a)) :
    Opens holds (x >>= f) :=
  ⟨.bind hx fun a => (hf a).quiet,
    .after hx (fun h h' => ⟨h.nextId.trans h'.1, h'.2⟩) fun a => (hf a).issued⟩

/-- A number is taken, and the table keeps what was opened under it. -/
theorem number {f : Except Error Nat → Vf Nat} (herr : ∀ e, Opens holds (f (.error e)))
    (hok : ∀ id s, Quiet s (f (.ok id) s).state ∧ (f (.ok id) s).result = .ok id ∧
      holds (f (.ok id) s).state id) : Opens holds (id.attempt >>= f) := by
  constructor
  · refine .bind (.attempt id_quiet) fun answer => ?_
    cases answer with
    | error e => exact (herr e).quiet
    | ok id => exact fun s => (hok id s).1
  · intro s id hid
    rcases id_cases s with h | h
    · rw [Eff.bind_of_silent (by rw [Eff.attempt_apply, h])] at hid ⊢
      exact (herr .limit).issued s id hid
    · rw [Eff.bind_of_silent (by rw [Eff.attempt_apply, h])] at hid ⊢
      obtain ⟨hquiet, hres, hholds⟩ := hok s.nextId { s with nextId := s.nextId + 1 }
      cases hres.symm.trans hid
      exact ⟨le_rfl, hquiet.nextId, hholds⟩

end Opens

theorem openRegion_opens (index : UInt8) :
    Opens (fun s id => id ∈ s.regions) (openRegion P index) := by
  refine .after (.look _) fun flavor => .guard ?_
  refine .after (sys_quiet (.ask P trivial)) fun answer => ?_
  cases answer with
  | none => exact .fail _
  | some =>
    refine .guard (.guard ?_)
    refine .after (sys_quiet (.ite (.pure _) (.bind .get fun _ => .bind (.ask P trivial) fun _ =>
      .ite (.pure _) (.pure _)))) fun mapping => ?_
    cases mapping with
    | none => exact .fail _
    | some mapping =>
      refine .number (fun e => ?_) fun id s => ⟨?_, rfl, (AList.mem_insert _).mpr (.inl rfl)⟩
      · exact .after (sys_quiet (region_teardown_inert P mapping)) fun _ => .fail _
      · refine { refl s with regions := fun _ h => ?_ }
        exact (AList.mem_insert _).mpr (.inr h)

theorem openInterrupt_opens : Opens (fun s id => id ∈ s.interrupts) (openInterrupt P vector) := by
  refine .after (vectorCapability_quiet P vector) fun (capability, start) => ?_
  refine .after preparedEvent_quiet fun prepared => ?_
  refine .after (.modify fun s => { refl s with }) fun _ => ?_
  refine .after (irqEvent_quiet P prepared) fun event => ?_
  refine .after (sys_quiet (.ite (.pure _) (.bind (.ask P trivial) fun _ =>
    .ite (.pure _) (.pure _)))) fun irq => ?_
  cases irq with
  | none => exact .fail _
  | some irq =>
    refine .number (fun e => ?_) fun id s => ⟨?_, rfl, (AList.mem_insert _).mpr (.inl rfl)⟩
    · exact .after (sys_quiet (disable_inert P irq)) fun _ => .fail _
    · refine { refl s with interrupts := fun _ h => ?_ }
      exact (AList.mem_insert _).mpr (.inr h)

theorem disableInterruptVector_quiet : Within Quiet (disableInterruptVector P vector) := by
  refine .bind (vectorCapability_quiet P vector) fun (capability, _) => ?_
  refine .bind (.modify fun s => { refl s with }) fun _ => ?_
  exact .bind (sys_quiet (.ask P trivial)) fun _ =>
    .ite (.modify fun s => { refl s with }) (.fail _)

end LinuxVfio

end Drv.Vfio
