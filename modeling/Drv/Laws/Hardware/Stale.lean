import Drv.Hardware.ViewOp
import Drv.Laws.Hardware.Confinement

/-!
# Handles of an earlier generation

When the generation of the backend has moved past a handle's, each
operation on it fails with the stale error and leaves the backend as it
was, provided that the checks the operation makes before it looks at the
generation pass (`ViewOp.Checked`). Two operations stand apart: a remap
of offsets looks at no generation, and a device address is asked of the
backend without a look at it.
-/

namespace Drv.Hardware

open List Eff MmioRegion

section
variable {β R D I : Type} {B : Backend β R D I} {s : β}

/-- A register offset that the view translates to a word inside it. -/
def MmioRegion.Maps (r : MmioRegion R) (offset : Nat) : Prop :=
  offset % 4 = 0 ∧ ∃ mapped, r.translate offset = .ok mapped ∧ mapped % 4 = 0 ∧
    mapped + 4 < 2 ^ 64 ∧ mapped + 4 ≤ r.len

/-- The plain value an accessor places: size, alignment and offset. -/
def DmaOp.pod : DmaOp → Option (Nat × Nat × Nat)
  | coherentWritePod align offset value | streamingWritePod align offset value =>
    some (value.length, align, offset)
  | coherentReadPod size align offset | streamingReadPod size align offset =>
    some (size, align, offset)
  | coherentWriteOnce offset _ | coherentReadOnce offset | streamingWriteOnce offset _
  | streamingReadOnce offset => some (4, 4, offset)
  | _ => none

/-- An earlier interrupt, or this one, is stale, and up to it all belong
to one backend. -/
def MeetsStale (shared : Nat) (generation : UInt64) : List (Interrupt I) → Prop
  | [] => False
  | i :: rest => shared = i.shared ∧ (generation ≠ i.generation ∨ MeetsStale shared generation rest)

/-- The checks an operation makes before it looks at the generation of a
stale handle. A remap makes no such look. -/
def ViewOp.Checked (B : Backend β R D I) (s : β) : ViewOp R D I → Prop
  | slice r offset len => r.offsetMapper = none ∧ offset + len < 2 ^ 64 ∧ offset + len ≤ r.len
  | mapOffsets .. => False
  | writeDeviceAddress r low high address =>
    B.generation s ≠ r.generation ∨
      r.Maps low ∧ (∀ offset ∈ high, r.Maps offset) ∧
        r.allocation.shared = address.dma.allocation.shared
  | deviceAddressAt b offset => offset < b.len
  | access b op => ∀ size align offset, op.pod = some (size, align, offset) →
      size ≠ 0 ∧ usizeAdd b.offset offset % align = 0
  | waitAny interrupts _ => match interrupts with
    | [] => False
    | first :: _ => MeetsStale first.shared (B.generation s) interrupts
  | _ => True

/-- The backend is left as it was, and the operation fails as stale
exactly when the checks before its look at the generation pass. -/
def ViewOp.Refused (B : Backend β R D I) (s : β) (op : ViewOp R D I) : Prop :=
  (op.run B s).state = s ∧ ((op.run B s).result = .error .staleHandle ↔ op.Checked B s)

/-! ## The generation check -/

variable {g : UInt64}

theorem current_of_ne (h : B.generation s ≠ g) : B.current g s = ⟨.error .staleHandle, s, []⟩ := by
  rw [Backend.current, look_bind, if_neg h, fail_apply]

theorem current_of_eq (h : B.generation s = g) : B.current g s = ⟨.ok (), s, []⟩ := by
  rw [Backend.current, look_bind, if_pos h, pure_apply]

/-! ## Operations that change nothing -/

section
variable {α γ : Type} {x : Hw β R D I α} {f : α → Hw β R D I γ} {P Q C : Prop}

/-- The state is left as it was. The operation answers, and fails as
stale, exactly under these conditions. -/
def Settles (s : β) (x : Hw β R D I α) (P C : Prop) : Prop :=
  ∃ r cs, x s = ⟨r, s, cs⟩ ∧ ((∃ a, r = .ok a) ↔ P) ∧ (r = .error .staleHandle ↔ C)

/-- The operation fails. -/
abbrev Refuses (s : β) (x : Hw β R D I α) (C : Prop) : Prop := Settles s x False C

namespace Settles

theorem congr {P' C' : Prop} (h : Settles s x P C) (hP : P ↔ P') (hC : C ↔ C') :
    Settles s x P' C' := by
  rwa [← hP, ← hC]

theorem pure (a : α) : Settles s (pure a : Hw β R D I α) True False :=
  ⟨.ok a, [], rfl, by simp, by simp⟩

theorem guard {p : Prop} [Decidable p] {e : Error} (he : e ≠ .staleHandle)
    (h : Settles s x P C) : Settles s (if p then fail e else x) (¬ p ∧ P) (¬ p ∧ C) := by
  by_cases hp : p
  · rw [if_pos hp]
    exact ⟨.error e, [], rfl, by simp [hp], by simp [hp, he]⟩
  · rw [if_neg hp]
    exact h.congr (by simp [hp]) (by simp [hp])

theorem bind {E : Prop} (hx : Settles s x P C) (hf : ∀ a, P → Settles s (f a) Q E) :
    Settles s (x >>= f) (P ∧ Q) (C ∨ P ∧ E) := by
  obtain ⟨r, cs, hx, hok, hstale⟩ := hx
  cases r with
  | error e =>
    have hP : ¬ P := fun h => by simpa using hok.mpr h
    refine ⟨.error e, cs, bind_of_error hx, by simp [hP], ?_⟩
    simpa [hP] using hstale
  | ok a =>
    have hP : P := hok.mp ⟨a, rfl⟩
    have hC : ¬ C := fun h => nomatch hstale.mpr h
    obtain ⟨r, cs', hfa, hfine, hstale'⟩ := hf a hP
    refine ⟨r, cs ++ cs', ?_, by simpa [hP] using hfine, by simpa [hP, hC] using hstale'⟩
    rw [bind_of_ok hx, hfa]

theorem ofExcept_bind {r : Except Error α} (hr : ∀ e, r = .error e → e ≠ .staleHandle)
    {P C : α → Prop} (hf : ∀ a, Settles s (f a) (P a) (C a)) :
    Settles s (ofExcept r >>= f) (∃ a, r = .ok a ∧ P a) (∃ a, r = .ok a ∧ C a) := by
  cases r with
  | error e => exact ⟨.error e, [], rfl, by simp, by simpa using hr e rfl⟩
  | ok a => exact (hf a).congr (by simp) (by simp)

end Settles

theorem Refuses.bind (h : Refuses s x C) : Refuses s (x >>= f) C :=
  .congr (.bind (Q := True) (E := True) h fun _ => False.elim) (by simp) (by simp)

theorem current_settles (h : B.generation s = g) : Settles s (B.current g) True False :=
  ⟨_, _, current_of_eq h, by simp, by simp⟩

theorem current_refuses (h : B.generation s ≠ g) : Refuses s (B.current g) True :=
  ⟨_, _, current_of_ne h, by simp, by simp⟩

end

variable {op : ViewOp R D I} {r : MmioRegion R}

theorem Settles.refused {P C : Prop} (h : Settles s (op.run B) P C) (hC : C ↔ op.Checked B s) :
    op.Refused B s := by
  obtain ⟨r, cs, hrun, -, hstale⟩ := h
  rw [ViewOp.Refused, hrun]
  exact ⟨rfl, hstale.trans hC⟩

theorem mappedOffset_settles (hr : B.generation s = r.generation) (offset : Nat) :
    Settles s (r.mappedOffset B offset 4) (r.Maps offset) False := by
  have hinvalid : Error.invalid ≠ .staleHandle := by simp
  refine .congr (.bind (current_settles hr) fun _ _ => .guard hinvalid
    (.ofExcept_bind (fun _ => translate_ne_stale) fun m => .guard hinvalid
      (.ofExcept_bind (fun _ => checkedRange_ne_stale) fun _ => .pure m))) ?_ (by simp)
  simp [Maps, checkedRange_eq_ok]

theorem mappedOffset_refuses (hr : B.generation s ≠ r.generation) (offset width : Nat) :
    Refuses s (r.mappedOffset B offset width) True :=
  .bind (current_refuses hr)

theorem mappedHigh_settles (hr : B.generation s = r.generation) (high : Option Nat) :
    Settles s (r.mappedHigh B high) (∀ offset ∈ high, r.Maps offset) False := by
  cases high with
  | none => exact .congr (.pure none) (by simp) .rfl
  | some offset =>
    exact .congr (.bind (mappedOffset_settles hr offset) fun m _ => .pure (some m))
      (by simp) (by simp)

/-! ## Each kind of operation -/

theorem slice_refused (hr : B.generation s ≠ r.generation)
    (offset len : Nat) : (ViewOp.slice r offset len : ViewOp R D I).Refused B s := by
  have hslice : Settles s (r.slice B offset len) _ _ := .guard (by simp)
    (.ofExcept_bind (fun _ => checkedRange_ne_stale) fun _ => Refuses.bind (current_refuses hr))
  refine Settles.refused (.bind hslice fun _ _ => .pure ()) ?_
  simp [ViewOp.Checked, checkedRange_eq_ok]

theorem mapOffsets_refused (r : MmioRegion R) (mapper : Nat → Option Nat) :
    (ViewOp.mapOffsets r mapper : ViewOp R D I).Refused B s := by
  refine Settles.refused (.ofExcept_bind (fun e he => ?_) fun _ => .pure ()) ?_
  · unfold mapOffsets at he
    split at he
    · cases he
      simp
    · cases he
  · simp [ViewOp.Checked]

theorem writeDeviceAddress_refused {address : DeviceAddress D}
    (h : B.generation s ≠ r.generation ∨ B.generation s ≠ address.dma.generation) (low : Nat)
    (high : Option Nat) :
    (ViewOp.writeDeviceAddress r low high address : ViewOp R D I).Refused B s := by
  by_cases hr : B.generation s = r.generation
  · have ha : B.generation s ≠ address.dma.generation := h.resolve_left (not_not.mpr hr)
    -- the register view is current: its own checks come first
    refine Settles.refused (.bind (mappedOffset_settles hr low) fun _ _ =>
      .bind (mappedHigh_settles hr high) fun _ _ => .guard (by simp)
        (Refuses.bind (current_refuses ha))) ?_
    simp [ViewOp.Checked, hr]
  · refine Settles.refused (Refuses.bind (mappedOffset_refuses hr low 4)) ?_
    simp [ViewOp.Checked, hr]

/-! ## Accessors of a DMA view -/

/-- How an accessor of a stale view fails: a misplaced plain value is
seen before the generation. -/
def DmaOp.refusal (b : DmaBuffer D) (op : DmaOp) : Error :=
  match op.pod with
  | none => .staleHandle
  | some (size, align, offset) =>
    if size = 0 ∨ usizeAdd b.offset offset % align ≠ 0 then .invalid else .staleHandle

section
variable {α : Type} {b : DmaBuffer D} (hb : B.generation s ≠ b.generation)
  {k : DmaBuffer D → Range → Mut β R D I α}
include hb

theorem ranged_stale (o n : Nat) :
    (Mut.self >>= fun b' => b'.range (B.beside _) o n >>= k b') (s, b) =
      ⟨.error .staleHandle, (s, b), []⟩ := by
  rw [bind_of_silent (t := (s, b)) rfl]
  exact bind_of_error (bind_of_error (current_of_ne hb))

theorem podRanged_stale (size align o : Nat) :
    (Mut.self >>= fun b' => b'.podRange (B.beside _) size align o >>= k b') (s, b) =
      ⟨.error (if size = 0 ∨ usizeAdd b.offset o % align ≠ 0 then .invalid else .staleHandle),
        (s, b), []⟩ := by
  rw [bind_of_silent (t := (s, b)) rfl]
  apply bind_of_error
  unfold DmaBuffer.podRange
  split
  · rfl
  · exact bind_of_error (current_of_ne hb)

theorem dmaOp_stale (op : DmaOp) : op.run B (s, b) = ⟨.error (op.refusal b), (s, b), []⟩ := by
  cases op with
  | coherentWrite o bs | streamingWrite o bs => exact ranged_stale hb o bs.length
  | coherentWritePod a o v | streamingWritePod a o v => exact podRanged_stale hb v.length a o
  | coherentWriteOnce o v | streamingWriteOnce o v => exact podRanged_stale hb 4 4 o
  | coherentRead o n | syncForCpu o n | streamingRead o n =>
    exact bind_of_error (ranged_stale hb o n)
  | coherentReadPod n a o | streamingReadPod n a o => exact bind_of_error (podRanged_stale hb n a o)
  | coherentReadOnce o | streamingReadOnce o => exact bind_of_error (podRanged_stale hb 4 4 o)
  | syncForDevice o n | acquireForCpu o n | refreshForCpu o n | prepareForDevice o n =>
    exact ranged_stale hb o n

theorem access_refused (op : DmaOp) : (ViewOp.access b op : ViewOp R D I).Refused B s := by
  have hrun : (.access b op : ViewOp R D I).run B s = ⟨.error (op.refusal b), s, []⟩ := by
    show (⟨_, _, _⟩ : Outcome β (Method R D I) Error Unit) = _
    rw [dmaOp_stale hb op]
  rw [ViewOp.Refused, hrun]
  refine ⟨rfl, ?_⟩
  rw [Except.error.injEq, DmaOp.refusal, ViewOp.Checked]
  cases op.pod with
  | none => simp
  | some => grind

end

/-! ## Interrupts -/

variable {interrupts : List (Interrupt I)}

theorem checkAll_refuses (shared : Nat) (h : ∃ i ∈ interrupts, B.generation s ≠ i.generation) :
    Refuses s (Interrupt.checkAll B shared interrupts)
      (MeetsStale shared (B.generation s) interrupts) := by
  induction interrupts with
  | nil => simp at h
  | cons i rest ih =>
    by_cases hi : B.generation s = i.generation
    · have hrest : ∃ j ∈ rest, B.generation s ≠ j.generation := by simpa [hi] using h
      refine .congr (.guard (by simp) (.bind (current_settles hi) fun _ _ => ih hrest)) ?_ ?_
      · simp
      · simp [MeetsStale, hi]
    · refine .congr (.guard (by simp) (Refuses.bind (current_refuses hi))) ?_ ?_
      · simp
      · simp [MeetsStale, hi]

theorem waitAny_refused
    (h : ∃ i ∈ interrupts, B.generation s ≠ i.generation) (deadlineNs : UInt64) :
    (ViewOp.waitAny interrupts deadlineNs : ViewOp R D I).Refused B s := by
  cases interrupts with
  | nil => simp at h
  | cons first =>
    exact Settles.refused (Refuses.bind (Refuses.bind (checkAll_refuses first.shared h))) .rfl

/-! ## Every operation -/

/-- The backend has forgotten the storage behind a token: it answers no
device address for it. -/
def Forgets (B : Backend β R D I) (s : β) (token : D) : Prop :=
  ∀ offset, B.exec (.dmaDeviceAddress token offset) s = (.error .staleHandle, s)

variable {b : DmaBuffer D}

theorem deviceAddressAt_refused (hb : Forgets B s b.allocation.token)
    (offset : Nat) : (ViewOp.deviceAddressAt b offset : ViewOp R D I).Refused B s := by
  have haddress : Refuses s (B.perform (.dmaDeviceAddress b.allocation.token
      (usizeAdd b.offset offset))) True :=
    ⟨_, _, by rw [Backend.perform, call_apply, hb], by simp, by simp⟩
  refine Settles.refused (.bind (.guard (by simp) (Refuses.bind haddress)) fun _ _ => .pure ()) ?_
  simp [ViewOp.Checked]

/-- With a handle of an earlier generation, and its storage forgotten by
the backend, an operation is refused. -/
theorem viewOp_refused {h : Handle R D I} (hmem : h ∈ op.handles)
    (hstale : B.generation s ≠ h.generation)
    (hforgets : ∀ token g, h = .dma token g → Forgets B s token) : op.Refused B s := by
  cases op with
  | slice r offset len =>
    cases mem_singleton.mp hmem
    exact slice_refused hstale offset len
  | mapOffsets r mapper => exact mapOffsets_refused r mapper
  | readU32 r offset =>
    cases mem_singleton.mp hmem
    exact Settles.refused (Refuses.bind (Refuses.bind (mappedOffset_refuses hstale offset 4))) .rfl
  | writeU32 r offset =>
    cases mem_singleton.mp hmem
    exact Settles.refused (Refuses.bind (mappedOffset_refuses hstale offset 4)) .rfl
  | writeDeviceAddress =>
    apply writeDeviceAddress_refused
    rcases mem_cons.mp hmem with rfl | hmem
    · exact .inl hstale
    · cases mem_singleton.mp hmem
      exact .inr hstale
  | splitAt b offset | waitUntil i deadlineNs | next i =>
    cases mem_singleton.mp hmem
    exact Settles.refused (Refuses.bind (Refuses.bind (current_refuses hstale))) .rfl
  | deviceAddressAt b offset =>
    cases mem_singleton.mp hmem
    exact deviceAddressAt_refused (hforgets _ _ rfl) offset
  | access b op =>
    cases mem_singleton.mp hmem
    exact access_refused hstale op
  | disable =>
    cases mem_singleton.mp hmem
    exact Settles.refused (Refuses.bind (current_refuses hstale)) .rfl
  | waitAny interrupts deadlineNs =>
    obtain ⟨i, hi, rfl⟩ := mem_map.mp hmem
    exact waitAny_refused ⟨i, hi, hstale⟩ deadlineNs

/-! ## Handles of the current generation -/

/-- A call that asks only for tokens of these handles, and gives none of
them back. -/
def Names (hs : List (Handle R D I)) : Method R D I → Prop
  | .readU32 region _ | .writeU32 region .. => ∃ g, .region region g ∈ hs
  | .writeDmaAddress region _ _ dma _ => (∃ g, .region region g ∈ hs) ∧ ∃ g, .dma dma g ∈ hs
  | .dmaDeviceAddress dma _ | .dmaRead dma _ | .dmaWrite dma .. | .streamingCpuDirty dma _
  | .streamingCpuRead dma _ | .dmaReadOnceU32 dma _ | .dmaWriteOnceU32 dma .. | .syncForCpu dma _
  | .syncForDevice dma _ => ∃ g, .dma dma g ∈ hs
  | .waitInterrupt interrupt _ | .pollInterrupt interrupt | .disableInterrupt interrupt =>
    ∃ g, .interrupt interrupt g ∈ hs
  | .waitAny interrupts _ => ∀ interrupt ∈ interrupts, ∃ g, .interrupt interrupt g ∈ hs
  | _ => False

theorem DmaCall.names {m : Method R D I} {hs : List (Handle R D I)}
    (h : DmaCall b m) (hmem : b.handle ∈ hs) : Names hs m := by
  cases m with
  | dmaRead | dmaWrite | streamingCpuDirty | streamingCpuRead | syncForCpu | syncForDevice
  | dmaReadOnceU32 | dmaWriteOnceU32 =>
    obtain ⟨rfl, -⟩ := h
    exact ⟨b.generation, hmem⟩
  | _ => exact h.elim

/-- Views as the API builds them. -/
def ViewOp.Valid : ViewOp R D I → Prop
  | access b _ => b.Valid
  | _ => True

/-- In the states of `J` these handles are current, and the backend knows
them as long as it is only asked for them. -/
structure Serving (B : Backend β R D I) (hs : List (Handle R D I)) (J : β → Prop) : Prop where
  current : ∀ h ∈ hs, ∀ s, J s → B.generation s = h.generation
  keeps : ∀ m, Names hs m → ∀ s, J s → J (B.exec m s).2
  known : ∀ m, Names hs m → ∀ s, J s → (B.exec m s).1 ≠ .error .staleHandle

section
variable {hs : List (Handle R D I)} {J : β → Prop} (hB : Serving B hs J)
include hB

theorem Serving.tolerates {h : Handle R D I} (hmem : h ∈ hs) :
    Tolerates B J h.generation (· ≠ .staleHandle) :=
  ⟨fun _ he => he, fun s hs hne => absurd (hB.current h hmem s hs) hne⟩

theorem Serving.perform {m : Method R D I} (hm : Names hs m) :
    Makes J (Names hs) (B.perform m) (· ≠ .staleHandle) := by
  refine perform_issues hm (hB.keeps m hm) ?_
  intro s hs e he hstale
  exact hB.known m hm s hs (hstale ▸ he)

theorem Serving.serves (hmem : b.handle ∈ hs) : Serves B b J (· ≠ .staleHandle) := by
  refine ⟨fun _ he => he, (hB.tolerates hmem).stale, fun m hm => hB.keeps m (hm.names hmem), ?_⟩
  intro m hm s hs e he hstale
  exact hB.known m (hm.names hmem) s hs (hstale ▸ he)

theorem checkAll_issues (shared : Nat) (hmem : ∀ i ∈ interrupts, i.handle ∈ hs) :
    Makes J (Names hs) (Interrupt.checkAll B shared interrupts) (· ≠ .staleHandle) := by
  induction interrupts with
  | nil => exact .pure trivial
  | cons i rest ih =>
    refine .ite (fun _ => .fail _ (by simp)) fun _ => ?_
    refine .bind (current_issues (hB.tolerates (hmem i mem_cons_self))) fun _ _ => ?_
    exact ih fun j hj => hmem j (mem_cons_of_mem i hj)

theorem viewOp_issues (hop : op.Valid) (hmem : ∀ h ∈ op.handles, h ∈ hs) :
    Makes J (Names hs) (op.run B) (· ≠ .staleHandle) := by
  cases op with
  | slice r =>
    have hr := hmem r.handle mem_cons_self
    refine discard_issues (.ite (fun _ => .fail _ (by simp)) fun _ => ?_)
    refine .bind (.ofExcept (fun _ _ => trivial) fun e => checkedRange_ne_stale)
      fun _ (_ : True) => ?_
    refine .bind (current_issues (hB.tolerates hr)) fun _ _ => ?_
    exact .ite (fun _ => .pure trivial) fun _ => .fail _ (by simp)
  | mapOffsets =>
    refine discard_issues (.ofExcept (fun _ _ => trivial) fun e he => ?_)
    unfold mapOffsets at he
    split at he
    · cases he
      simp
    · cases he
  | readU32 r offset =>
    have hr := hmem r.handle mem_cons_self
    refine discard_issues (.bind (mappedOffset_issues (hB.tolerates hr) offset 4) fun _ _ => ?_)
    exact hB.perform ⟨_, hr⟩
  | writeU32 r offset =>
    have hr := hmem r.handle mem_cons_self
    refine .bind (mappedOffset_issues (hB.tolerates hr) offset 4) fun _ _ => ?_
    exact hB.perform ⟨_, hr⟩
  | writeDeviceAddress r low high address =>
    have hr := hmem r.handle mem_cons_self
    have ha := hmem address.dma.handle (by simp [ViewOp.handles])
    refine .bind (mappedOffset_issues (hB.tolerates hr) low 4) fun _ _ => ?_
    refine .bind (mappedHigh_issues (hB.tolerates hr) high) fun _ _ => ?_
    refine .ite (fun _ => .fail _ (by simp)) fun _ => ?_
    refine .bind (current_issues (hB.tolerates ha)) fun _ _ => ?_
    exact hB.perform ⟨⟨_, hr⟩, _, ha⟩
  | splitAt b =>
    have hb := hmem b.handle mem_cons_self
    refine discard_issues (.bind (current_issues (hB.tolerates hb)) fun _ _ => ?_)
    exact .ite (fun _ => .fail _ (by simp)) fun _ => .pure trivial
  | deviceAddressAt b =>
    have hb := hmem b.handle mem_cons_self
    refine discard_issues (.ite (fun _ => .fail _ (by simp)) fun _ => ?_)
    exact .bind (hB.perform ⟨_, hb⟩) fun _ _ => .pure trivial
  | access b op =>
    have hb := hmem b.handle mem_cons_self
    intro s hs
    obtain ⟨hst, hcs, -, herr⟩ := dmaOp_issues (hB.serves hb) hop op (s, b) ⟨hs, .refl b⟩
    exact ⟨hst.1, fun m hm => (hcs m hm).names hb, fun _ _ => trivial, herr⟩
  | disable i =>
    have hi := hmem i.handle mem_cons_self
    refine .bind (current_issues (hB.tolerates hi)) fun _ _ => ?_
    exact hB.perform ⟨_, hi⟩
  | waitUntil i | next i =>
    have hi := hmem i.handle mem_cons_self
    refine discard_issues (.bind (current_issues (hB.tolerates hi)) fun _ _ => ?_)
    exact hB.perform ⟨_, hi⟩
  | waitAny interrupts =>
    have hi : ∀ i ∈ interrupts, i.handle ∈ hs := fun i hi => hmem _ (mem_map_of_mem hi)
    cases interrupts with
    | nil => exact discard_issues (.fail _ (by simp))
    | cons =>
      refine discard_issues (.bind (checkAll_issues hB _ hi) fun _ _ => ?_)
      exact hB.perform (forall_mem_map.mpr fun i hmem => ⟨_, hi i hmem⟩)

end

end

end Drv.Hardware
