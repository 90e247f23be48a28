import Drv.Base.Bump
import Drv.Laws.Vfio.Quarantine

/-!
# Device addresses are handed out once

Without the broker the backend chooses device addresses itself, from a
cursor that only moves forward. A run hands out ranges (`Handout`), each
where its allocation asked for it, and what is in the tables, live or in
quarantine, has a range that was handed out to it. Since the cursor is a
bump allocator, no two of these ranges overlap.

Nothing is said of the addresses that the broker chooses.
-/

namespace Drv.Vfio

open Drv.Hardware (Error Method DmaDirection DmaConstraints isPowerOfTwo)
open List hiding Disjoint
open LinuxVfio hiding id

/-- The device addresses given to an allocation, and what it asked for. -/
structure Handout where
  id : Nat
  first : Nat
  length : Nat
  size : Nat
  constraints : DmaConstraints

namespace Handout

def stop (h : Handout) : Nat := h.first + h.length

def window (h : Handout) : Set Nat := Set.Ico h.first h.stop

/-- The range is as the allocation asked. -/
structure Fits (h : Handout) : Prop where
  room : 0 < h.size ∧ h.size ≤ h.length
  aligned : max h.constraints.alignment page ∣ h.first
  limit : ∀ address ∈ h.window, address ≤ h.constraints.maxDeviceAddress

/-- The range is the one of this allocation. -/
def OfDma (h : Handout) (d : Dma) : Prop :=
  d.iova = h.first ∧ d.len = h.size ∧
    ∃ m, d.memory = .ioas m ∧ m.iova = h.first ∧ m.len = h.length

end Handout

/-- The range under a handle, as it was asked for. -/
def LinuxVfio.handout (s : LinuxVfio) (size : Nat) (constraints : DmaConstraints) (id : Nat) :
    List Handout :=
  match s.dmas.lookup id with
  | some ⟨.ioas m, _, _, _, _⟩ => [⟨id, m.iova, m.len, size, constraints⟩]
  | _ => []

/-- The range handed out by a call. -/
def Step.handouts : Step → List Handout
  | ⟨_, .allocDmaConstrained size constraints _ _, .ok id, after⟩ =>
    after.handout size constraints id
  | _ => []

variable {d : Dma}

theorem handout_ioas {s : LinuxVfio} (size : Nat) (constraints : DmaConstraints) {id : Nat}
    {m : DmaMapping} (hd : s.dmas.lookup id = some d) (hm : d.memory = .ioas m) :
    s.handout size constraints id = [⟨id, m.iova, m.len, size, constraints⟩] := by
  obtain ⟨memory, iova, len, direction, handle⟩ := d
  cases hm
  simp only [handout, hd]

/-- The device addresses of an allocation. -/
def Dma.window (d : Dma) : Set Nat :=
  match d.memory with
  | .ioas m => Set.Ico m.iova (m.iova + m.len)
  | .brokerCoherent _ | .brokerStreaming _ => ∅

/-! ## One allocation -/

theorem checkedAllocation_ok {size mappedLen : Nat} {constraints : DmaConstraints}
    (h : checkedAllocation size constraints = .ok mappedLen) :
    0 < size ∧ size ≤ mappedLen ∧ isPowerOfTwo constraints.alignment := by
  unfold checkedAllocation at h
  split at h
  next => cases h
  next hargs =>
    simp only [not_or, not_not] at hargs
    obtain ⟨hsz, -, hpower⟩ := hargs
    have hround := Nat.div_add_mod' (size + (page - 1)) page
    have hlt := Nat.mod_lt (size + (page - 1)) (show 0 < page by decide)
    dsimp only at h
    split at h
    · cases h
    · split at h
      · cases h
      · cases h
        exact ⟨Nat.pos_of_ne_zero hsz, by omega, hpower⟩

theorem aligned_ok {value alignment iova : Nat} (hpower : isPowerOfTwo alignment)
    (h : aligned value alignment = .ok iova) : value ≤ iova ∧ max alignment page ∣ iova := by
  obtain ⟨k, hk⟩ : ∃ k, max alignment page = 2 ^ k := by
    have hpage : page = 2 ^ 12 := rfl
    rw [isPowerOfTwo, beq_iff_eq] at hpower
    rcases le_total alignment page with hle | hle
    · exact ⟨12, by rw [max_eq_right hle, hpage]⟩
    · exact ⟨alignment.log2, by rw [max_eq_left hle, ← hpower]⟩
  unfold aligned at h
  rw [hk] at h ⊢
  dsimp only at h
  split at h
  next hlt =>
    cases h
    refine roundUp_spec ?_ hlt
    by_contra hgt
    have hpow : 2 ^ 65 ≤ 2 ^ k := Nat.pow_le_pow_right (by decide) (by omega)
    omega
  next => cases h

section
variable (P : Platform) {s s' : LinuxVfio}

theorem mapWithFlags_some (iova len : Nat) (deviceReads deviceWrites : Bool) (t : Trace) :
    ∀ m, (DmaMapping.mapWithFlags P iova len deviceReads deviceWrites t).1 = some m →
      m.iova = iova ∧ m.len = len := by
  intro m h
  unfold DmaMapping.mapWithFlags at h
  split at h
  · cases h
  · rw [bind_run, mmap_run] at h
    generalize P.answer t (.mmap .anonymous len) = ok at h
    cases ok with
    | false => cases h
    | true =>
      simp only [if_true] at h
      rw [bind_run, ask_run] at h
      generalize P.answer _ (.ioasMap iova len t.length deviceReads deviceWrites) = answer at h
      cases answer with
      | none => cases h
      | some =>
        dsimp only at h
        split at h
        · cases h
        · cases h
          exact ⟨rfl, rfl⟩

theorem allocIoas_cursor (size mappedLen : Nat) (constraints : DmaConstraints)
    (direction : DmaDirection) :
    let o := allocIoas P size mappedLen constraints direction s
    (∃ e, o.result = .error e ∧ o.state.nextIova = s.nextIova) ∨
      ∃ iova m, aligned s.nextIova constraints.alignment = .ok iova ∧
        iova + (mappedLen - 1) ≤ constraints.maxDeviceAddress ∧
        o.state.nextIova = iova + (mappedLen - 1) + 1 ∧ m.iova = iova ∧ m.len = mappedLen ∧
        o.result = .ok ⟨.ioas m, iova, size, direction, none⟩ := by
  rw [allocIoas, Eff.look_bind]
  cases aligned s.nextIova constraints.alignment with
  | error e =>
    rw [Eff.bind_of_error (Eff.ofExcept_apply _ _)]
    exact .inl ⟨e, rfl, rfl⟩
  | ok iova =>
    rw [Eff.bind_of_silent (Eff.ofExcept_apply _ _)]
    split
    next => exact .inl ⟨_, rfl, rfl⟩
    next hlimit =>
      rw [sys_bind]
      have hsome := mapWithFlags_some P iova mappedLen (deviceReads direction)
        (deviceWrites direction) s.trace
      generalize DmaMapping.mapWithFlags P iova mappedLen (deviceReads direction)
        (deviceWrites direction) s.trace = r at hsome ⊢
      obtain ⟨mapping, t'⟩ := r
      cases mapping with
      | none => exact .inl ⟨_, rfl, rfl⟩
      | some m =>
        obtain ⟨hiova, hlen⟩ := hsome m rfl
        dsimp only
        split
        next => exact .inr ⟨iova, m, rfl, by omega, rfl, hiova, hlen, rfl⟩
        next => exact .inl ⟨_, rfl, rfl⟩

/-! ## The cursor over a run -/

/-- What was handed out so far, and the state reached. -/
structure Placed (log : List Handout) (s : LinuxVfio) : Prop where
  flavor : s.flavor ≠ .broker
  bumped : Bumped Handout.first Handout.stop s.nextIova log
  fits : ∀ h ∈ log, h.Fits
  kept : ∀ id d, s.Keeps id d → ∃ h ∈ log, h.id = id ∧ h.OfDma d

variable {log : List Handout}

/-- Calls that move no cursor, and leave in the tables only what was there
or what is left of it. -/
theorem Placed.keep (h : Placed log s) (hflavor : s'.flavor = s.flavor)
    (hiova : s'.nextIova = s.nextIova)
    (hkeeps : ∀ id d, s'.Keeps id d → ∃ d₀, s.Keeps id d₀ ∧ ∀ h : Handout, h.OfDma d₀ → h.OfDma d) :
    Placed log s' := by
  refine ⟨hflavor ▸ h.flavor, hiova ▸ h.bumped, h.fits, fun id d hd => ?_⟩
  obtain ⟨d₀, hd₀, hsame⟩ := hkeeps id d hd
  obtain ⟨ρ, hρ, hid, hof⟩ := h.kept id d₀ hd₀
  exact ⟨ρ, hρ, hid, hsame ρ hof⟩

theorem ofDma_release {h : Handout} (hof : h.OfDma d) (t : Trace) :
    h.OfDma (releaseDmaResource P d t).1.2 := by
  obtain ⟨hiova, hlen, m, hm, hfst, hlength⟩ := hof
  have hl := releaseDmaResource_left P d t
  rw [hm] at hl
  rcases hl with heq | heq
  · rw [heq]
    exact ⟨hiova, hlen, m, hm, hfst, hlength⟩
  · rw [heq]
    exact ⟨hiova, hlen, _, rfl, hfst, hlength⟩

theorem placed_revokeDmas (h : Placed log s) : Placed log (revokeDmas P s).state := by
  rw [revokeDmas_state]
  apply h.keep
  · rfl
  · rfl
  · intro id d hd
    rcases hd with hd | hd
    · cases hd
    · rcases releaseEach_lookup P hd with hn | ⟨d₀, hd₀, t', rfl⟩
      · cases hn
      · exact ⟨d₀, keeps_of_mem_order P hd₀, fun h hof => ofDma_release P hof t'⟩

theorem placed_still (h : Placed log s) (hs : LinuxVfio.Still s s') : Placed log s' :=
  h.keep hs.flavor hs.nextIova fun _ d hd =>
    ⟨d, (keeps_congr hs.dmas hs.quarantinedDmas).mp hd, fun _ hof => hof⟩

theorem placed_other (h : Placed log s) {m : Method Nat Nat Nat}
    (hstep : LinuxVfio.DmaStep P s m s') (hm : ∀ size constraints direction coherent,
      m ≠ .allocDmaConstrained size constraints direction coherent) : Placed log s' := by
  cases hstep with
  | still hs => exact placed_still h hs
  | failed | opened => exact absurd rfl (hm _ _ _ _)
  | released => exact h.keep rfl rfl fun _ d hd => ⟨d, keeps_of_released hd, fun _ hof => hof⟩
  | quarantined hid =>
    apply h.keep
    · rfl
    · rfl
    · intro id' d hd
      rcases keeps_of_quarantined hd with ⟨rfl, rfl⟩ | hd
      · exact ⟨_, .inl hid, fun _ hof => ofDma_release P hof s.trace⟩
      · exact ⟨d, hd, fun _ hof => hof⟩
  | revoked hs =>
    have hrev := placed_revokeDmas P (placed_still h hs)
    exact hrev.keep rfl rfl fun _ d hd => ⟨d, hd, fun _ hof => hof⟩
  | refused hs => exact (placed_still h hs).keep rfl rfl fun _ d hd => ⟨d, hd, fun _ hof => hof⟩
  | discarded hs hflavor => exact absurd (hs.flavor.symm.trans hflavor) h.flavor

theorem allocDma_ioas (h : s.flavor ≠ .broker) (size mappedLen : Nat) (constraints : DmaConstraints)
    (direction : DmaDirection) (coherent : Bool) :
    allocDma P size mappedLen constraints direction coherent s =
      allocIoas P size mappedLen constraints direction s := by
  rw [allocDma, Eff.look_bind]
  cases hflavor : s.flavor with
  | coherent => rfl
  | pciCoherent => rfl
  | broker => exact absurd hflavor h

theorem Placed.alloc (h : Placed log s) {h' : Handout} (hfits : h'.Fits) (hof : h'.OfDma d)
    (hfst : s.nextIova ≤ h'.first) (hflavor : s'.flavor = s.flavor) (hiova : s'.nextIova = h'.stop)
    (hkeeps : ∀ id' d', s'.Keeps id' d' → (id' = h'.id ∧ d' = d) ∨ s.Keeps id' d') :
    Placed (log ++ [h']) s' := by
  have hcur : s.nextIova ≤ s'.nextIova := by
    rw [hiova]
    exact hfst.trans (Nat.le_add_right _ _)
  refine ⟨hflavor ▸ h.flavor, h.bumped.push hfst hcur hiova.ge, forall_mem_concat h.fits hfits,
    fun id' d' hd' => ?_⟩
  · rcases hkeeps id' d' hd' with ⟨rfl, rfl⟩ | hd'
    · exact ⟨h', mem_append_right _ (mem_singleton_self _), rfl, hof⟩
    · obtain ⟨ρ, hρ, hid, hof⟩ := h.kept id' d' hd'
      exact ⟨ρ, mem_append_left _ hρ, hid, hof⟩

theorem placed_alloc (h : Placed log s) (size : Nat) (constraints : DmaConstraints)
    (direction : DmaDirection) (coherent : Bool) :
    let st := step P s (.allocDmaConstrained size constraints direction coherent)
    Placed (log ++ st.handouts) st.after := by
  have hcases := allocDmaConstrained_cases P s size constraints direction coherent
  simp only [step, method]
  generalize allocDmaConstrained P size constraints direction coherent s = o at hcases
  obtain ⟨result, s', calls⟩ := o
  rcases hcases with ⟨e, rfl, rfl⟩ | ⟨mappedLen, hlen, hcases⟩
  · show Placed (log ++ []) s'
    rw [append_nil]
    exact h
  · obtain ⟨hsz, hroom, hpower⟩ := checkedAllocation_ok hlen
    have hframe := allocIoas_framed P size mappedLen constraints direction
      { s with nextId := s.nextId + 1 }
    have hcur := allocIoas_cursor (s := { s with nextId := s.nextId + 1 }) P size mappedLen
      constraints direction
    rw [allocDma_ioas (s := { s with nextId := s.nextId + 1 }) P h.flavor] at hcases
    generalize allocIoas P size mappedLen constraints direction
      { s with nextId := s.nextId + 1 } = a at hcases hframe hcur
    have hkeeps : ∀ id d, a.state.Keeps id d ↔ s.Keeps id d := fun id d =>
      keeps_congr hframe.dmas hframe.quarantinedDmas
    rcases hcases with ⟨e, ha, rfl, rfl⟩ | ⟨dma, ha, rfl, rfl⟩
    · show Placed (log ++ []) a.state
      rw [append_nil]
      rcases hcur with ⟨-, -, hiova⟩ | ⟨iova, m, -, -, -, -, -, hok⟩
      · exact h.keep hframe.flavor hiova fun id d hd => ⟨d, (hkeeps id d).mp hd, fun _ hof => hof⟩
      · rw [ha] at hok
        cases hok
    · rcases hcur with ⟨e, he, -⟩ | ⟨iova, m, halign, hlimit, hiova, hmiova, hmlen, hok⟩
      · rw [ha] at he
        cases he
      · rw [ha] at hok
        cases hok
        obtain ⟨hle, hdvd⟩ := aligned_ok hpower halign
        show Placed (log ++ handout _ size constraints s.nextId) _
        rw [handout_ioas size constraints (AList.lookup_insert _) rfl]
        apply h.alloc (d := ⟨.ioas m, iova, size, direction, none⟩)
        · refine ⟨⟨hsz, hmlen ▸ hroom⟩, hmiova ▸ hdvd, fun address haddr => ?_⟩
          obtain ⟨-, hlt⟩ := Set.mem_Ico.mp haddr
          show address ≤ constraints.maxDeviceAddress
          simp only [Handout.stop] at hlt
          omega
        · exact ⟨hmiova.symm, rfl, m, rfl, rfl, rfl⟩
        · exact hmiova ▸ hle
        · exact hframe.flavor
        · show a.state.nextIova = m.iova + m.len
          omega
        · intro id' d' hd'
          by_cases hne : id' = s.nextId
          · subst hne
            rcases hd' with hd' | hd'
            · rw [AList.lookup_insert] at hd'
              exact .inl ⟨rfl, (Option.some.inj hd').symm⟩
            · exact .inr ((hkeeps _ _).mp (.inr hd'))
          · right
            apply (hkeeps _ _).mp
            simpa only [LinuxVfio.Keeps, AList.lookup_insert_ne hne] using hd'

theorem placed_step (h : Placed log s) (m : Method Nat Nat Nat) :
    Placed (log ++ (step P s m).handouts) (step P s m).after := by
  by_cases hm : ∃ size constraints direction coherent,
      m = .allocDmaConstrained size constraints direction coherent
  · obtain ⟨size, constraints, direction, coherent, rfl⟩ := hm
    exact placed_alloc P h size constraints direction coherent
  · have hn : (step P s m).handouts = [] := by
      cases m with
      | allocDmaConstrained => exact absurd ⟨_, _, _, _, rfl⟩ hm
      | _ => rfl
    rw [hn, append_nil]
    apply placed_other P h (method_dmaStep P s m)
    exact fun _ _ _ _ heq => hm ⟨_, _, _, _, heq⟩

theorem placed_run (ms : List (Method Nat Nat Nat)) (h : Placed log s) :
    Placed (log ++ (s.run P ms).2.flatMap Step.handouts) (s.run P ms).1 := by
  induction ms generalizing log s with
  | nil => simpa [run] using h
  | cons m ms ih =>
    have hr := ih (placed_step P h m)
    rw [append_assoc] at hr
    exact hr

theorem window_ofDma {h : Handout} (hof : h.OfDma d) : d.window = h.window := by
  obtain ⟨-, -, m, hm, hfst, hlength⟩ := hof
  simp only [Dma.window, hm, Handout.window, Handout.stop, hfst, hlength]

theorem keeps_unique (h : Kept s) {id : Nat} {d' : Dma} (hd : s.Keeps id d) (hd' : s.Keeps id d') :
    d = d' := by
  have hmem : ∀ {t : Table Dma} {d : Dma}, t.lookup id = some d → id ∈ t := fun ht =>
    AList.lookup_isSome.mp (by rw [ht]; rfl)
  rcases hd with hd | hd
  · rcases hd' with hd' | hd'
    · exact Option.some.inj (hd.symm.trans hd')
    · exact absurd (hmem hd') (h.apart id (hmem hd))
  · rcases hd' with hd' | hd'
    · exact absurd (hmem hd) (h.apart id (hmem hd'))
    · exact Option.some.inj (hd.symm.trans hd')

/-- Two allocations in the tables are one and the same, or have no device
address in common. -/
theorem Placed.disjoint (h : Placed log s) (hkept : Kept s) {id id' : Nat} {d' : Dma}
    (hd : s.Keeps id d) (hd' : s.Keeps id' d') :
    (id = id' ∧ d = d') ∨ Disjoint d.window d'.window := by
  obtain ⟨ρ, hρ, hid, hof⟩ := h.kept id d hd
  obtain ⟨ρ', hρ', hid', hof'⟩ := h.kept id' d' hd'
  by_cases hsame : id = id'
  · left
    subst hsame
    exact ⟨rfl, keeps_unique hkept hd hd'⟩
  · right
    rw [window_ofDma hof, window_ofDma hof']
    apply h.bumped.disjoint.forall hρ hρ'
    intro heq
    exact hsame (by rw [← hid, ← hid', heq])

end

/-- Without the broker, device addresses are handed out once. All ranges
that a run hands out are disjoint, and each is as its allocation asked;
every allocation in the tables, live or in quarantine, has the range that
was handed out under its handle, so these are disjoint as well. -/
theorem iovas_handed_out_once (P : Platform) (flavor : Flavor) (pciIrq : Option IrqCapability)
    (preparedIrqs : Option (List InterruptEvent)) (ms : List (Method Nat Nat Nat))
    (hflavor : flavor ≠ .broker) :
    let r := (LinuxVfio.new flavor pciIrq preparedIrqs).run P ms
    let log := r.2.flatMap Step.handouts
    (log.Pairwise fun h h' => Disjoint h.window h'.window) ∧ (∀ h ∈ log, h.Fits) ∧
      (∀ id d, r.1.Keeps id d → ∃ h ∈ log, h.id = id ∧ h.OfDma d) ∧
      ∀ id d id' d', r.1.Keeps id d → r.1.Keeps id' d' →
        (id = id' ∧ d = d') ∨ Disjoint d.window d'.window := by
  intro r log
  have hnew : Placed [] (LinuxVfio.new flavor pciIrq preparedIrqs) := by
    refine ⟨hflavor, ⟨by simp, .nil⟩, by simp, fun id d hd => ?_⟩
    rcases hd with hd | hd
    · cases hd
    · cases hd
  have hplace : Placed log r.1 := placed_run P ms hnew
  have hkept := (run_careful P ms (kept_new flavor pciIrq preparedIrqs)).1
  refine ⟨hplace.bumped.disjoint, hplace.fits, hplace.kept, fun id d id' d' hd hd' => ?_⟩
  exact hplace.disjoint hkept hd hd'

/-- Two allocations, the first of which is released before the second. -/
def twoBuffers : List (Method Nat Nat Nat) :=
  [.allocDmaConstrained 4 (.new 4) .bidirectional true, .releaseDma 1,
    .allocDmaConstrained 8192 (.new 65536) .toDevice false]

theorem iovas_of_two_buffers :
    let log := ((LinuxVfio.new .coherent none none).run (obliging true) twoBuffers).2.flatMap
      Step.handouts
    (log.map fun h => (h.id, h.first, h.length)) = [(1, 0x1000000, 4096), (2, 0x1010000, 8192)] ∧
      log.Pairwise fun h h' => Disjoint h.window h'.window :=
  ⟨by decide, (iovas_handed_out_once (obliging true) .coherent none none twoBuffers (by decide)).1⟩

end Drv.Vfio
