import Drv.Laws.Vfio.Transitions

/-!
# A reset revokes the handles issued before it

Handles are numbered once and for all, and each carries the generation it
was issued in. `Sound` says of one call what it does to handles, and
`Accounted` is what this amounts to over a run: all handles are older
than the next number, those of the current generation that were not given
back are still in their tables, and no DMA handle of an earlier
generation is.

The last part needs that each reset ends what it began. A reset moves the
generation first; where the kernel then refuses to disable an interrupt,
or the broker to reset the device, it returns with the table of DMA
handles as it was, and the query for a device address looks nowhere
else.
-/

namespace Drv.Vfio

open Drv.Hardware (Error Method Handle ViewOp Backend DmaConstraints DmaDirection)
open List AList

/-! ## Handles along a run -/

def tokenId : Token → Nat
  | .region id _ | .dma id _ | .interrupt id _ => id

/-- The handle a call answers; a view takes the generation before it. -/
def Step.issued : Step → List Token
  | ⟨s, .openRegion _, .ok id, _⟩ => [.region id s.generation]
  | ⟨s, .allocDmaConstrained .., .ok id, _⟩ => [.dma id s.generation]
  | ⟨s, .openInterrupt _, .ok id, _⟩ => [.interrupt id s.generation]
  | _ => []

/-- The call gives the handle back. -/
def Step.Releases (st : Step) (h : Token) : Prop :=
  match st.method, h with
  | .releaseRegion id, .region id' _ => id = id'
  | .releaseDma id, .dma id' _ => id = id'
  | .releaseInterrupt id, .interrupt id' _ => id = id'
  | _, _ => False

/-- A reset with DMA handles to revoke is refused neither an interrupt
nor, with a broker, its device. -/
def Step.Completes (st : Step) : Prop :=
  st.method = .reset → st.before.dmas = ∅ ∨
    ∀ event ∈ LinuxVfio.since st.before st.after, ¬ event.Refuses st.before.flavor

/-- Issued along the run and not given back since. -/
def Live (steps : List Step) (h : Token) : Prop :=
  ∃ pre st post, steps = pre ++ st :: post ∧ h ∈ st.issued ∧ ∀ st' ∈ post, ¬ st'.Releases h

/-- What one call does to handles. -/
structure Step.Sound (st : Step) : Prop where
  nextId : st.before.nextId ≤ st.after.nextId
  generation : st.before.generation.toNat ≤ st.after.generation.toNat
  issued : ∀ h ∈ st.issued, st.before.nextId ≤ tokenId h ∧ tokenId h < st.after.nextId ∧
    h.generation = st.after.generation ∧ st.after.Holds h
  kept : st.after.generation = st.before.generation → ∀ h, st.before.Holds h →
    ¬ st.Releases h → st.after.Holds h
  dmas : ∀ id ∈ st.after.dmas, id ∈ st.before.dmas ∨ st.before.nextId ≤ id
  revoked : st.after.generation ≠ st.before.generation → st.Completes → st.after.dmas = ∅

/-! ## One call -/

variable {st : Step}

namespace LinuxVfio

section
variable (P : Platform)

theorem sound_of_quiet (h : Quiet st.before st.after)
    (hiss : ∀ t ∈ st.issued, st.before.nextId ≤ tokenId t ∧ tokenId t < st.after.nextId ∧
      t.generation = st.after.generation ∧ st.after.Holds t) : st.Sound where
  nextId := h.nextId
  generation := by rw [h.generation]
  issued := hiss
  kept _ _ hs _ := quiet_holds h hs
  dmas id hid := .inl (h.dmas ▸ hid)
  revoked hne _ := absurd h.generation hne

theorem sound_of_untouched (h : Untouched st.before st.after)
    (hgen : st.after.generation = st.before.generation) (hiss : st.issued = [])
    (hk : ∀ t, st.before.Holds t → ¬ st.Releases t → st.after.Holds t) : st.Sound where
  nextId := h.nextId.ge
  generation := by rw [hgen]
  issued := by simp [hiss]
  kept _ := hk
  dmas id hid := .inl (h.dmas ▸ hid)
  revoked hne _ := absurd hgen hne

theorem mem_of_table_eq {V : Type} {table table' : Table V} (h : table' = table) {id : Nat}
    (hid : id ∈ table) : id ∈ table' := by
  rw [h]
  exact hid

section
variable (s : LinuxVfio)

theorem releaseRegion_sound (region : Nat) : (step P s (.releaseRegion region)).Sound := by
  obtain ⟨hun, hgen, hirqs, hregs⟩ := releaseRegion_spec P s region
  refine sound_of_untouched hun hgen rfl fun t ht hr => ?_
  cases t with
  | region id => exact hregs id ht fun h => hr h.symm
  | dma => exact mem_of_table_eq hun.dmas ht
  | interrupt => exact mem_of_table_eq hirqs ht

theorem releaseInterrupt_sound (interrupt : Nat) :
    (step P s (.releaseInterrupt interrupt)).Sound := by
  obtain ⟨hun, hgen, hregs, hirqs⟩ := releaseInterrupt_spec P s interrupt
  refine sound_of_untouched hun hgen rfl fun t ht hr => ?_
  cases t with
  | region => exact mem_of_table_eq hregs ht
  | dma => exact mem_of_table_eq hun.dmas ht
  | interrupt id => exact hirqs id ht fun h => hr h.symm

theorem releaseDma_sound (id : Nat) : (step P s (.releaseDma id)).Sound := by
  have hcases := releaseDma_cases P s id
  rw [step, method]
  generalize (releaseDma P id s).state = s' at hcases
  rcases hcases with ⟨-, rfl⟩ | ⟨dma, -, h⟩
  · exact sound_of_quiet (.refl _) fun t ht => by cases ht
  · have hstate : ∃ quarantined trace, s' =
        { s with dmas := s.dmas.erase id, quarantinedDmas := quarantined, trace := trace } := by
      rcases h with ⟨-, h⟩ | ⟨-, h⟩ <;> exact ⟨_, _, h⟩
    obtain ⟨quarantined, trace, rfl⟩ := hstate
    refine ⟨le_rfl, le_rfl, (fun t ht => by cases ht), fun _ t ht hr => ?_, fun d hd => .inl ?_,
      fun hne => absurd rfl hne⟩
    · cases t with
      | region => exact ht
      | dma => exact mem_erase.mpr ⟨fun h => hr h.symm, ht⟩
      | interrupt => exact ht
    · exact (mem_erase.mp hd).2

theorem allocDmaConstrained_sound (size : Nat) (constraints : DmaConstraints)
    (direction : DmaDirection) (coherent : Bool) :
    (step P s (.allocDmaConstrained size constraints direction coherent)).Sound := by
  have hcases := allocDmaConstrained_cases P s size constraints direction coherent
  rw [step, method]
  generalize allocDmaConstrained P size constraints direction coherent s = o at hcases
  obtain ⟨result, state, calls⟩ := o
  rcases hcases with ⟨e, hres, hstate⟩ | ⟨mappedLen, -, h⟩
  · subst hres hstate
    exact sound_of_quiet (.refl _) fun t ht => by cases ht
  · have hframe := allocDma_framed P size mappedLen constraints direction coherent
      { s with nextId := s.nextId + 1 }
    generalize allocDma P size mappedLen constraints direction coherent
      { s with nextId := s.nextId + 1 } = a at h hframe
    have hid : a.state.nextId = s.nextId + 1 := hframe.nextId
    have hgen : a.state.generation = s.generation := hframe.generation
    have hheld : ∀ t, s.Holds t → a.state.Holds t := by
      intro t ht
      cases t with
      | region => exact mem_of_table_eq hframe.regions ht
      | dma => exact mem_of_table_eq hframe.dmas ht
      | interrupt => exact mem_of_table_eq hframe.interrupts ht
    rcases h with ⟨e, -, hres, hstate⟩ | ⟨dma, -, hres, hstate⟩
    · subst hres hstate
      exact ⟨hid.symm ▸ Nat.le_succ _, hgen.symm ▸ le_rfl, (fun t ht => by cases ht),
        fun _ t ht _ => hheld t ht, fun d hd => .inl (mem_of_table_eq hframe.dmas.symm hd),
        fun hne => absurd hgen hne⟩
    · subst hres hstate
      refine ⟨?_, hgen.symm ▸ le_rfl, fun t ht => ?_, fun _ t ht _ => ?_, fun d hd => ?_,
        fun hne => absurd hgen hne⟩
      · exact hid.symm ▸ Nat.le_succ _
      · cases mem_singleton.mp ht
        refine ⟨le_rfl, hid.symm ▸ Nat.lt_succ_self _, hgen.symm, ?_⟩
        exact (mem_insert _).mpr (.inl rfl)
      · cases t with
        | dma => exact (mem_insert _).mpr (.inr (hheld _ ht))
        | _ => exact hheld _ ht
      · rcases (mem_insert _).mp hd with rfl | hd
        · exact .inr le_rfl
        · exact .inl (mem_of_table_eq hframe.dmas.symm hd)

/-! ## Reset -/

theorem resetDmas_spec :
    let s' := (resetDmas P s).state
    s'.nextId = s.nextId ∧ s'.generation = s.generation ∧
      (s'.dmas = ∅ ∨ (s'.dmas = s.dmas ∧ s.flavor = .broker ∧
        s'.trace = s.trace ++ [⟨.reset, false⟩])) := by
  by_cases hflav : s.flavor = .broker
  · rcases resetDmas_broker P s hflav with ⟨hans, h⟩ | ⟨-, h⟩
    · rw [h, hans]
      exact ⟨rfl, rfl, .inr ⟨rfl, hflav, rfl⟩⟩
    · rw [h]
      exact ⟨rfl, rfl, .inl rfl⟩
  · obtain ⟨ext, -, h⟩ := resetDmas_ioas P s hflav
    rw [h, revokeDmas_state]
    exact ⟨rfl, rfl, .inl rfl⟩

theorem reset_sound : (step P s .reset).Sound := by
  have hcases := reset_cases P s
  rw [step, method]
  generalize (reset P s).state = s' at hcases
  rcases hcases with hquiet | ⟨s₁, hun, hgen, hlt, h⟩
  · exact sound_of_quiet hquiet fun t ht => by cases ht
  · have hmoved : s₁.generation.toNat = s.generation.toNat + 1 := by
      rw [hgen, UInt64.toNat_add, Nat.mod_eq_of_lt]
      · rfl
      · exact hlt
    have hafter : s'.nextId = s.nextId ∧ s'.generation = s₁.generation ∧
        (s'.dmas = ∅ ∨ s'.dmas = s.dmas ∧ ∃ event ∈ since s s', event.Refuses s.flavor) := by
      rcases h with ⟨rfl, href⟩ | h
      · exact ⟨hun.nextId, rfl, .inr ⟨hun.dmas, href⟩⟩
      · obtain ⟨hid, hgen', hdmas⟩ := resetDmas_spec P s₁
        rw [← h] at hid hgen' hdmas
        refine ⟨hid.trans hun.nextId, hgen', ?_⟩
        rcases hdmas with hdmas | ⟨hdmas, hflav, htr⟩
        · exact .inl hdmas
        · obtain ⟨ext, hext, -⟩ := hun.trace
          rw [hext, append_assoc] at htr
          refine .inr ⟨hdmas.trans hun.dmas, ⟨.reset, false⟩, ?_, hun.flavor ▸ hflav, rfl⟩
          rw [since_eq htr]
          exact mem_append_right _ (mem_singleton_self _)
    obtain ⟨hid, hgen', hdmas⟩ := hafter
    have hne : s'.generation ≠ s.generation := by
      intro heq
      rw [← hgen', heq] at hmoved
      omega
    refine ⟨hid.ge, ?_, (fun t ht => by cases ht), fun heq => absurd heq hne, fun d hd => .inl ?_,
      fun _ hcompl => ?_⟩
    · rw [hgen', hmoved]
      exact Nat.le_succ _
    · rcases hdmas with hdmas | ⟨hdmas, -⟩
      · have hd' : d ∈ (∅ : Table Dma) := mem_of_table_eq hdmas.symm hd
        exact absurd hd' (notMem_empty d)
      · exact mem_of_table_eq hdmas.symm hd
    · rcases hdmas with hdmas | ⟨hdmas, event, hmem, hrefu⟩
      · exact hdmas
      · rcases hcompl rfl with hnil | hn
        · exact hdmas.trans hnil
        · exact absurd hrefu (hn event hmem)

end

/-! ## Every call -/

theorem sound_of_opens {holds : LinuxVfio → Nat → Prop} {x : Vf Nat} (hx : Opens holds x)
    (hafter : st.after = (x st.before).state)
    (hiss : ∀ t ∈ st.issued, (x st.before).result = .ok (tokenId t) ∧
      t.generation = st.before.generation ∧ ∀ s, holds s (tokenId t) → s.Holds t) : st.Sound := by
  have hquiet := hx.quiet st.before
  rw [← hafter] at hquiet
  refine sound_of_quiet hquiet fun t ht => ?_
  obtain ⟨hres, hgen, hholds⟩ := hiss t ht
  obtain ⟨hle, hlt, hheld⟩ := hx.issued st.before _ hres
  rw [← hafter] at hlt hheld
  exact ⟨hle, hlt, hgen.trans hquiet.generation.symm, hholds _ hheld⟩

theorem step_sound (s : LinuxVfio) (m : Method Nat Nat Nat) : (step P s m).Sound := by
  cases m with
  | openRegion index =>
    refine sound_of_opens (openRegion_opens P index) rfl fun t ht => ?_
    simp only [step, method] at ht ⊢
    generalize (openRegion P index s).result = result at ht ⊢
    cases result with
    | error => cases ht
    | ok =>
      cases mem_singleton.mp ht
      exact ⟨rfl, rfl, fun _ h => h⟩
  | openInterrupt vector =>
    refine sound_of_opens (openInterrupt_opens P vector) rfl fun t ht => ?_
    simp only [step, method] at ht ⊢
    generalize (openInterrupt P vector s).result = result at ht ⊢
    cases result with
    | error => cases ht
    | ok =>
      cases mem_singleton.mp ht
      exact ⟨rfl, rfl, fun _ h => h⟩
  | allocDmaConstrained size constraints direction coherent =>
    exact allocDmaConstrained_sound P s size constraints direction coherent
  | releaseRegion region => exact releaseRegion_sound P s region
  | releaseDma dma => exact releaseDma_sound P s dma
  | releaseInterrupt interrupt => exact releaseInterrupt_sound P s interrupt
  | reset => exact reset_sound P s
  | _ => exact sound_of_quiet (plain_quiet P (by trivial) s) (forall_mem_nil _)

end

end LinuxVfio

/-! ## A whole run -/

/-- What a run so far and the state it reached say of each other. -/
structure Accounted (steps : List Step) (s : LinuxVfio) : Prop where
  known : ∀ st ∈ steps, ∀ h ∈ st.issued,
    tokenId h < s.nextId ∧ h.generation.toNat ≤ s.generation.toNat
  ordered : ∀ pre r post, steps = pre ++ r :: post →
    r.before.generation.toNat ≤ r.after.generation.toNat ∧
    r.after.generation.toNat ≤ s.generation.toNat ∧
    ∀ st ∈ pre, ∀ h ∈ st.issued, h.generation.toNat ≤ r.before.generation.toNat
  live : ∀ h, Live steps h → h.generation = s.generation → s.Holds h
  forgotten : (∀ st ∈ steps, st.Completes) → ∀ st ∈ steps, ∀ id g, .dma id g ∈ st.issued →
    g ≠ s.generation → id ∉ s.dmas

theorem accounted_nil (s : LinuxVfio) : Accounted [] s where
  known := by simp
  ordered pre r post h := by simp at h
  live h hlive := by
    obtain ⟨pre, st, post, hsteps, -⟩ := hlive
    simp at hsteps
  forgotten := by simp

theorem concat_eq_append_cons {α : Type} {l pre post : List α} {x y : α}
    (h : l ++ [x] = pre ++ y :: post) :
    (post = [] ∧ y = x ∧ pre = l) ∨ ∃ post', post = post' ++ [x] ∧ l = pre ++ y :: post' := by
  rcases eq_nil_or_concat post with rfl | ⟨post', z, rfl⟩
  · left
    obtain ⟨rfl, hxy⟩ := append_inj' h rfl
    cases hxy
    exact ⟨rfl, rfl, rfl⟩
  · right
    rw [concat_eq_append, ← cons_append, ← append_assoc] at h
    obtain ⟨hl, hxz⟩ := append_inj' h rfl
    cases hxz
    exact ⟨post', concat_eq_append, hl⟩

variable {steps : List Step}

theorem live_concat {h : Token} (hlive : Live (steps ++ [st]) h) :
    h ∈ st.issued ∨ (Live steps h ∧ ¬ st.Releases h) := by
  obtain ⟨pre, r, post, hsteps, hiss, hk⟩ := hlive
  rcases concat_eq_append_cons hsteps with ⟨-, rfl, -⟩ | ⟨post', rfl, hl⟩
  · exact .inl hiss
  · refine .inr ⟨⟨pre, r, post', hl, hiss, fun st' hst' => ?_⟩, ?_⟩
    · exact hk st' (mem_append_left _ hst')
    · exact hk st (mem_append_right _ (mem_singleton_self _))

theorem accounted_step (h : Accounted steps st.before) (hst : st.Sound) :
    Accounted (steps ++ [st]) st.after where
  known := by
    refine forall_mem_concat (fun r hr t ht => ?_) fun t ht => ?_
    · obtain ⟨hid, hgen⟩ := h.known r hr t ht
      exact ⟨hid.trans_le hst.nextId, hgen.trans hst.generation⟩
    · obtain ⟨-, hlt, hgen, -⟩ := hst.issued t ht
      exact ⟨hlt, hgen ▸ le_rfl⟩
  ordered pre r post hsteps := by
    rcases concat_eq_append_cons hsteps with ⟨-, rfl, rfl⟩ | ⟨post', -, hl⟩
    · exact ⟨hst.generation, le_rfl, fun st' hst' t ht => (h.known st' hst' t ht).2⟩
    · obtain ⟨hmono, hle, hpre⟩ := h.ordered pre r post' hl
      exact ⟨hmono, hle.trans hst.generation, hpre⟩
  live t hlive hgen := by
    rcases live_concat hlive with ht | ⟨hlive, hk⟩
    · exact (hst.issued t ht).2.2.2
    · -- an older handle is current only if the generation did not move
      obtain ⟨pre, r, post, rfl, hiss, hpost⟩ := hlive
      have hle := (h.known r (by simp) t hiss).2
      have hsame : st.after.generation = st.before.generation := by
        apply UInt64.toNat_inj.mp
        have := hst.generation
        rw [hgen] at hle
        omega
      exact hst.kept hsame t (h.live t ⟨pre, r, post, rfl, hiss, hpost⟩ (hgen.trans hsame)) hk
  forgotten hcompl r hr id g ht hne hid := by
    have hcompl' : ∀ st' ∈ steps, st'.Completes :=
      fun st' hst' => hcompl st' (mem_append_left _ hst')
    rcases mem_append.mp hr with hr | hr
    · by_cases hsame : st.after.generation = st.before.generation
      · rcases hst.dmas id hid with hid | hid
        · exact h.forgotten hcompl' r hr id g ht (hsame ▸ hne) hid
        · have : id < st.before.nextId := (h.known r hr _ ht).1
          omega
      · rw [hst.revoked hsame (hcompl st (by simp))] at hid
        exact notMem_empty id hid
    · rw [mem_singleton.mp hr] at ht
      exact hne (hst.issued _ ht).2.2.1

theorem accounted_run (P : Platform) (ms : List (Method Nat Nat Nat)) {s : LinuxVfio}
    (h : Accounted steps s) : Accounted (steps ++ (s.run P ms).2) (s.run P ms).1 := by
  induction ms generalizing steps s with
  | nil => simpa [LinuxVfio.run] using h
  | cons m ms ih =>
    have hstep : Accounted (steps ++ [LinuxVfio.step P s m]) (LinuxVfio.step P s m).after :=
      accounted_step h (LinuxVfio.step_sound P s m)
    have hrest := ih hstep
    rw [append_assoc] at hrest
    exact hrest

/-- In a run whose resets all complete, take any call that moved the
generation. In every state after it, an operation on a handle issued
before it leaves the backend as it was, and answers that the handle is
stale unless one of its own checks fails first. An operation on views of
handles issued after it, current and not given back, is never answered
so, completed resets or not. -/
theorem reset_revokes (P : Platform) (flavor : Flavor) (pciIrq : Option IrqCapability)
    (preparedIrqs : Option (List InterruptEvent)) (ms : List (Method Nat Nat Nat))
    (pre post : List Step) (r : Step)
    (hrun : ((LinuxVfio.new flavor pciIrq preparedIrqs).run P ms).2 = pre ++ r :: post)
    (hmoved : r.after.generation ≠ r.before.generation) :
    let s := ((LinuxVfio.new flavor pciIrq preparedIrqs).run P ms).1
    ((∀ st ∈ pre ++ r :: post, st.Completes) → ∀ st ∈ pre, ∀ h ∈ st.issued,
      ∀ op : ViewOp Nat Nat Nat, h ∈ op.handles → op.Refused (linuxVfio P) s) ∧
    ∀ op : ViewOp Nat Nat Nat, op.Valid →
      (∀ h ∈ op.handles, Live post h ∧ h.generation = s.generation) →
      (op.run (linuxVfio P) s).result ≠ .error .staleHandle := by
  intro s
  have hacct : Accounted (pre ++ r :: post) s := by
    have h := accounted_run P ms (accounted_nil (LinuxVfio.new flavor pciIrq preparedIrqs))
    rw [nil_append, hrun] at h
    exact h
  obtain ⟨hmono, hle, hpre⟩ := hacct.ordered pre r post rfl
  constructor
  · intro hcompl st hst h hh op hop
    have hstale : s.generation ≠ h.generation := by
      intro heq
      have := hpre st hst h hh
      have : r.after.generation.toNat ≠ r.before.generation.toNat :=
        fun h => hmoved (UInt64.toNat_inj.mp h)
      rw [← heq] at *
      omega
    apply Hardware.viewOp_refused hop hstale
    intro id g hdma
    rw [hdma] at hh hstale
    apply LinuxVfio.linuxVfio_forgets
    exact hacct.forgotten hcompl st (mem_append_left _ hst) id g hh hstale.symm
  · intro op hval hlive
    have hserved := Hardware.viewOp_issues (LinuxVfio.linuxVfio_serving P op.handles) hval
      fun _ h => h
    refine fun hres => (hserved _ ?_).2.2.2 _ hres rfl
    intro h hh
    obtain ⟨⟨pre', st, post', hpost, hiss, hk⟩, hgen⟩ := hlive h hh
    refine ⟨hgen.symm, hacct.live h ?_ hgen⟩
    refine ⟨pre ++ r :: pre', st, post', ?_, hiss, hk⟩
    rw [hpost, append_assoc, cons_append]

/-! ## A reset that is refused -/

/-- A platform that grants what it is asked for; the reset may be an
exception. -/
def obliging (resets : Bool) : Platform where
  answer _ c := match c with
    | .regionInfo _ | .irqInfo _ | .eventfd | .readEvent _ | .clock => none
    | .mmapRegion .. | .munmapRegion .. | .mmap .. | .munmap .. | .setIrqs _ => true
    | .ioasMap iova .. => some iova
    | .ioasUnmap _ length => some length
    | .broker command => some { command with handle := 1, iova := page }
    | .deviceInfo => some 1
    | .reset => resets
    | .pollRead _ => .pending
    | .pollEvents .. => some []
    | .loadWord .. => 0
    | .load _ _ len => List.Vector.replicate len 0
    | .storeWord .. | .store .. => ()
  order _ _ l := l
  order_perm _ _ l := .refl l

/-- One allocation, then a reset. -/
def allocThenReset : List (Method Nat Nat Nat) :=
  [.allocDmaConstrained 4 (.new 4) .bidirectional true, .reset]

/-- The view of that allocation. -/
def firstBuffer : Hardware.DmaBuffer Nat where
  allocation := ⟨0, 0, 1, 4⟩
  generation := 1
  offset := 0
  alignment := 4
  bytes := [0, 0, 0, 0]

theorem reset_revokes_first_buffer :
    let s := ((LinuxVfio.new .coherent none none).run (obliging true) allocThenReset).1
    s.generation = 2 ∧ (.deviceAddressAt firstBuffer 0 : ViewOp Nat Nat Nat).Refused
        (linuxVfio (obliging true)) s := by
  refine ⟨by decide, ?_⟩
  apply (reset_revokes (obliging true) .coherent none none allocThenReset [_] [] _ rfl
    (by decide)).1
  · refine forall_mem_cons.mpr ⟨fun hreset => ?_, forall_mem_singleton.mpr fun _ => ?_⟩
    · cases hreset
    · exact .inr (by decide)
  · exact mem_singleton_self _
  · exact mem_singleton_self _
  · exact mem_singleton_self _

/-- The broker refuses the reset after the generation has moved: the
buffer of the old generation still answers its device address. -/
theorem refused_reset_keeps_address :
    let s := (LinuxVfio.new .broker none none).run (obliging false) allocThenReset
    ∃ alloc reset, s.2 = [alloc, reset] ∧ firstBuffer.handle ∈ alloc.issued ∧
      reset.method = .reset ∧ reset.after = s.1 ∧ reset.after.generation ≠ reset.before.generation ∧
      (firstBuffer.deviceAddressAt (linuxVfio (obliging false)) 0 s.1).result =
        .ok ⟨firstBuffer, 0, 4096⟩ := by
  refine ⟨_, _, rfl, mem_singleton_self _, rfl, rfl, by decide, rfl⟩

end Drv.Vfio
