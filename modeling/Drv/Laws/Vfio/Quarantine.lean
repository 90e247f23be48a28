import Drv.Laws.Vfio.Opening
import Drv.Laws.Vfio.Revocation

/-!
# Device-visible memory stays with the backend

`Kept` is the invariant of the backend: every allocation in its tables is
guarded, and no handle is in both of them. `Careful` is what one call
does to the mappings it finds: pages go back to the process only when no
access to them is left, and an allocation leaves the tables only when all
its access is taken back. `run_quarantines` says so of every run and of
the drop at its end.

Two things are outside. An allocation that fails half way may unmap its
fresh pages although the request to close them was refused, and the drop
unmaps a streaming arena whose UNMAP failed (`HeldArena`): the broker
alone keeps the device from it then. A view of broker memory goes before
the memory is freed (`view_unmapped_before_free`).
-/

namespace Drv.Vfio

open Drv.Hardware (Error Method DmaDirection DmaConstraints)
open List LinuxVfio AList

/-- An allocation in one of the tables. -/
def LinuxVfio.Keeps (s : LinuxVfio) (id : Nat) (d : Dma) : Prop :=
  s.dmas.lookup id = some d ∨ s.quarantinedDmas.lookup id = some d

/-- The allocation is still there, or all access to it is taken back. -/
def LinuxVfio.Retains (s : LinuxVfio) (id : Nat) (d : Dma) : Prop :=
  (∃ d', s.Keeps id d' ∧ d'.memory.view.memory = d.memory.view.memory) ∨ Freed s.trace d.key

structure Kept (s : LinuxVfio) : Prop where
  guarded : ∀ id d, s.Keeps id d → Guarded s.trace d
  -- a reset of the broker takes back what is known by a handle
  brokered : s.flavor = .broker → ∀ id d, s.Keeps id d → d.Brokered
  below : ∀ id d, s.Keeps id d → id < s.nextId
  apart : ∀ id, id ∈ s.dmas → id ∉ s.quarantinedDmas
  fresh : Fresh s.trace

/-- An allocation that had to close what it opened, and was refused. -/
def Step.Unclosed (st : Step) : Prop :=
  match st.method with
  | .allocDmaConstrained .. => ∃ e ∈ since st.before st.after, e.Unclosed
  | _ => False

/-- What one call does to DMA memory. Nothing is said of the pages of an
allocation that was refused to close them. -/
structure Careful (st : Step) : Prop where
  fine : AllFine (fun memory => st.Unclosed ∧ st.before.trace.length ≤ memory) st.before.trace
    (since st.before st.after)
  retains : ∀ id d, st.before.Keeps id d → st.after.Retains id d

section
variable {s s' : LinuxVfio} {id : Nat} {d : Dma}

theorem retains_of_keeps (h : s.Keeps id d) : s.Retains id d := .inl ⟨d, h, rfl⟩

theorem keeps_congr (hdmas : s'.dmas = s.dmas) (hquar : s'.quarantinedDmas = s.quarantinedDmas) :
    s'.Keeps id d ↔ s.Keeps id d := by
  rw [LinuxVfio.Keeps, hdmas, hquar]
  rfl

/-- A trace in which nothing opened on old pages, and tables in which every
allocation was there before, or is as the invariant wants it. -/
theorem Kept.step (h : Kept s) (hflav : s'.flavor = s.flavor) (hid : s.nextId ≤ s'.nextId)
    (htr : Advances s.trace s'.trace) (hfresh : Fresh s'.trace)
    (hkeeps : ∀ id d, s'.Keeps id d → s.Keeps id d ∨
      Guarded s'.trace d ∧ (s.flavor = .broker → d.Brokered) ∧ id < s.nextId)
    (hapart : ∀ id, id ∈ s'.dmas → id ∉ s'.quarantinedDmas) : Kept s' := by
  refine ⟨fun id d hd => ?_, fun hb id d hd => ?_, fun id d hd => ?_, hapart, hfresh⟩
  · rcases hkeeps id d hd with hd | ⟨hguard, -⟩
    · exact (h.guarded id d hd).advance htr
    · exact hguard
  · rcases hkeeps id d hd with hd | ⟨-, hbrok, -⟩
    · exact h.brokered (hflav ▸ hb) id d hd
    · exact hbrok (hflav ▸ hb)
  · rcases hkeeps id d hd with hd | ⟨-, -, hlt⟩
    · exact (h.below id d hd).trans_le hid
    · exact hlt.trans_le hid

theorem Kept.advance (h : Kept s) (hflav : s'.flavor = s.flavor) (hdmas : s'.dmas = s.dmas)
    (hquar : s'.quarantinedDmas = s.quarantinedDmas) (hid : s.nextId ≤ s'.nextId)
    (htr : Advances s.trace s'.trace) (hfresh : Fresh s'.trace) : Kept s' :=
  h.step hflav hid htr hfresh (fun _ _ hd => .inl ((keeps_congr hdmas hquar).mp hd))
    (by rw [hdmas, hquar]; exact h.apart)

variable {t : Trace}

theorem Retreats.fresh {X : Nat → Prop} {t' : Trace} (h : Retreats X t t') (ht : Fresh t) :
    Fresh t' := by
  obtain ⟨ext, rfl, -, hgr⟩ := h
  intro g hg memory hs
  have := ht g (hgr g hg) memory hs
  rw [length_append]
  omega

theorem kept_new (flavor : Flavor) (pciIrq : Option IrqCapability)
    (preparedIrqs : Option (List InterruptEvent)) :
    Kept (new flavor pciIrq preparedIrqs) := by
  have hn : ∀ id d, ¬ (new flavor pciIrq preparedIrqs).Keeps id d := by
    intro id d h
    rcases h with h | h
    · cases h
    · cases h
  refine ⟨fun id d h => ?_, fun _ id d h => ?_, fun id d h => ?_, fun id h => ?_, ?_⟩
  · exact absurd h (hn id d)
  · exact absurd h (hn id d)
  · exact absurd h (hn id d)
  · cases h
  · exact fun g hg => by cases hg

/-! ## Calls that open nothing -/

/-- The states around a call that opens nothing. -/
structure Retires (X : Nat → Prop) (s s' : LinuxVfio) : Prop where
  kept : Kept s'
  retreats : Retreats X s.trace s'.trace
  retains : ∀ id d, s.Keeps id d → s'.Retains id d

variable {X : Nat → Prop} {s₁ : LinuxVfio}

theorem retires_refl (h : Kept s) : Retires X s s := ⟨h, .refl _, fun _ _ => retains_of_keeps⟩

theorem kept_still (h : Kept s) (hs : Still s s') : Kept s' := by
  have hretr : Retreats (fun _ => False) s.trace s'.trace := retreats_of_inert hs.trace
  exact h.advance hs.flavor hs.dmas hs.quarantinedDmas hs.nextId hretr.advances
    (hretr.fresh h.fresh)

theorem Retires.after_still (hs : Still s s₁) (h : Retires X s₁ s') : Retires X s s' := by
  refine ⟨h.kept, (retreats_of_inert hs.trace).trans h.retreats, fun id d hd => ?_⟩
  exact h.retains id d ((keeps_congr hs.dmas hs.quarantinedDmas).mpr hd)

theorem Retires.concat (h : Retires X s s₁) (t : Trace) (ht : Retreats X s₁.trace t) :
    Retires X s { s₁ with trace := t } := by
  refine ⟨?_, h.retreats.trans ht, fun id d hd => ?_⟩
  · exact h.kept.advance rfl rfl rfl le_rfl ht.advances (ht.fresh h.kept.fresh)
  · exact (h.retains id d hd).imp_right fun hfree => hfree.retreat ht

theorem retreats_resets {ext : Trace} (h : ∀ e ∈ ext, e.call = .reset) :
    Retreats X t (t ++ ext) := by
  refine retreats_each fun e he => ?_
  unfold Fine
  rw [h e he]
  exact ⟨trivial, fun _ => trivial⟩

section
variable (P : Platform)

/-! ### The release of all allocations -/

theorem keeps_of_mem_order (h : ⟨id, d⟩ ∈ P.order t _ (s.dmas ∪ s.quarantinedDmas).entries) :
    s.Keeps id d := by
  rw [(P.order_perm t _ _).mem_iff, ← mem_lookup_iff] at h
  by_cases hid : id ∈ s.dmas
  · rw [lookup_union_left hid] at h
    exact .inl h
  · rw [lookup_union_right hid] at h
    exact .inr h

theorem mem_order_union (h : Kept s) (t : Trace) (id : Nat) (d : Dma) :
    ⟨id, d⟩ ∈ P.order t _ (s.dmas ∪ s.quarantinedDmas).entries ↔ s.Keeps id d := by
  refine ⟨keeps_of_mem_order P, fun hd => ?_⟩
  rw [(P.order_perm t _ _).mem_iff, ← mem_lookup_iff]
  rcases hd with hd | hd
  · rw [lookup_union_left (lookup_isSome.mp (by rw [hd]; rfl))]
    exact hd
  · have hid : id ∉ s.dmas := fun hid =>
      h.apart id hid (lookup_isSome.mp (by rw [hd]; rfl))
    rw [lookup_union_right hid]
    exact hd

theorem revokeDmas_retires (h : Kept s) : Retires X s (revokeDmas P s).state := by
  have hmem := mem_order_union P h s.trace
  have hnodup := (perm_nodupKeys (P.order_perm s.trace _ _)).mpr
    (s.dmas ∪ s.quarantinedDmas).nodupKeys
  rw [revokeDmas_state]
  generalize hents : P.order s.trace _ (s.dmas ∪ s.quarantinedDmas).entries = entries at hmem hnodup
  obtain ⟨hretr, hguard, -, hreta⟩ := releaseEach_spec P hnodup (fun x _ => notMem_empty x.1)
    (fun x hx => h.guarded x.1 x.2 ((hmem x.1 x.2).mp hx)) (fun id d h => by cases h)
  have hl : ∀ id d, (releaseEach P entries ∅ s.trace).1.lookup id = some d →
      ∃ d₀, s.Keeps id d₀ ∧ (d.key = d₀.key ∨ d.key = none) := by
    intro id d hd
    rcases releaseEach_lookup P hd with hn | ⟨d₀, hd₀, t', rfl⟩
    · cases hn
    · exact ⟨d₀, (hmem id d₀).mp hd₀, releaseDmaResource_key P d₀ t'⟩
  generalize releaseEach P entries ∅ s.trace = left at *
  have hkeeps : ∀ id d, LinuxVfio.Keeps { s with
      dmas := ∅, quarantinedDmas := left.1, trace := left.2 } id d → left.1.lookup id = some d := by
    intro id d hd
    rcases hd with hd | hd
    · cases hd
    · exact hd
  refine ⟨h.step rfl le_rfl hretr.advances (hretr.fresh h.fresh) (fun id d hd => .inr ?_)
    (fun _ hid => by cases hid), hretr, fun id d hd => ?_⟩
  · have hd := hkeeps id d hd
    obtain ⟨d₀, hd₀, hkey⟩ := hl id d hd
    exact ⟨hguard id d hd, fun hb => (h.brokered hb id d₀ hd₀).of_key hkey, h.below id d₀ hd₀⟩
  · rcases hreta ⟨id, d⟩ ((hmem id d).mpr hd) with ⟨d', hd', hmemory⟩ | hfree
    · exact .inl ⟨d', .inr hd', hmemory⟩
    · exact .inr hfree

/-! ### The release of one allocation -/

variable {id' : Nat}

theorem keeps_erase (hne : id' ≠ id) (hd : s.Keeps id' d) (left : Dma) (t : Trace) :
    LinuxVfio.Keeps { s with dmas := s.dmas.erase id, trace := t } id' d ∧
      LinuxVfio.Keeps { s with
        dmas := s.dmas.erase id, quarantinedDmas := s.quarantinedDmas.insert id left,
        trace := t } id' d := by
  simp only [LinuxVfio.Keeps, lookup_erase_ne hne, lookup_insert_ne hne]
  exact ⟨hd, hd⟩

theorem keeps_of_released (h : LinuxVfio.Keeps { s with dmas := s.dmas.erase id, trace := t } id' d)
    : s.Keeps id' d := by
  by_cases hne : id' = id
  · subst hne
    rcases h with h | h
    · rw [lookup_erase] at h
      cases h
    · exact .inr h
  · simpa only [LinuxVfio.Keeps, lookup_erase_ne hne] using h

theorem keeps_of_quarantined {left : Dma}
    (h : LinuxVfio.Keeps { s with dmas := s.dmas.erase id, quarantinedDmas := s.quarantinedDmas.insert id left, trace := t } id' d)
    : (id' = id ∧ d = left) ∨ s.Keeps id' d := by
  by_cases hne : id' = id
  · subst hne
    simp only [LinuxVfio.Keeps, lookup_erase, lookup_insert] at h
    rcases h with h | h
    · cases h
    · exact .inl ⟨rfl, (Option.some.inj h).symm⟩
  · simp only [LinuxVfio.Keeps, lookup_erase_ne hne, lookup_insert_ne hne] at h
    exact .inr h

section
variable {id : Nat} {dma : Dma} (h : Kept s) (hid : s.dmas.lookup id = some dma)
include h hid

theorem released_retires (hok : (releaseDmaResource P dma s.trace).1.1 = true) :
    Retires X s
      { s with dmas := s.dmas.erase id, trace := (releaseDmaResource P dma s.trace).2 } := by
  have hspec := releaseDmaResource_spec (X := X) P (h.guarded id dma (.inl hid))
  generalize releaseDmaResource P dma s.trace = r at hspec hok
  refine ⟨h.step rfl le_rfl hspec.retreats.advances (hspec.retreats.fresh h.fresh)
    (fun id' d hd => .inl (keeps_of_released hd)) fun id' hmem => h.apart id' (mem_erase.mp hmem).2,
    hspec.retreats, fun id' d hd => ?_⟩
  by_cases hne : id' = id
  · subst hne
    rcases hd with hd | hd
    · rw [hid] at hd
      cases hd
      exact .inr (hspec.freed hok)
    · exact retains_of_keeps (.inr hd)
  · exact retains_of_keeps (keeps_erase hne hd dma r.2).1

/-- What could not be released is in quarantine as far as it came. -/
theorem quarantined_retires :
    let r := releaseDmaResource P dma s.trace
    Retires X s
      { s with
        dmas := s.dmas.erase id, quarantinedDmas := s.quarantinedDmas.insert id r.1.2,
        trace := r.2 } := by
  have hspec := releaseDmaResource_spec (X := X) P (h.guarded id dma (.inl hid))
  have hkey := releaseDmaResource_key P dma s.trace
  intro r
  refine ⟨h.step rfl le_rfl hspec.retreats.advances (hspec.retreats.fresh h.fresh)
    (fun id' d hd => ?_) fun id' hmem hmem' => ?_, hspec.retreats, fun id' d hd => ?_⟩
  · rcases keeps_of_quarantined hd with ⟨rfl, rfl⟩ | hd
    · exact .inr ⟨hspec.guarded, fun hb => (h.brokered hb id' dma (.inl hid)).of_key hkey,
        h.below id' dma (.inl hid)⟩
    · exact .inl hd
  · obtain ⟨hne, hmem⟩ := mem_erase.mp hmem
    rcases (mem_insert _).mp hmem' with heq | hmem'
    · exact hne heq
    · exact h.apart id' hmem hmem'
  · by_cases hne : id' = id
    · subst hne
      have hd : d = dma := by
        rcases hd with hd | hd
        · exact Option.some.inj (hd.symm.trans hid)
        · have hmem : id' ∈ s.quarantinedDmas := lookup_isSome.mp (by rw [hd]; rfl)
          exact absurd hmem (h.apart id' (lookup_isSome.mp (by rw [hid]; rfl)))
      subst hd
      exact .inl ⟨r.1.2, .inr (lookup_insert _), hspec.memory⟩
    · exact retains_of_keeps (keeps_erase hne hd r.1.2 r.2).2

end

/-! ### The reset of the broker -/

theorem discarded_retires (h : Kept s) (hflav : s.flavor = .broker) :
    let t := s.trace ++ [⟨.reset, true⟩]
    Retires X s
      { s with
        dmas := ∅, quarantinedDmas := ∅
        trace := (discardEach P (P.order t _ (s.dmas ∪ s.quarantinedDmas).entries) t).2 } := by
  intro t
  have hreset : Retreats X s.trace t := retreats_resets (by simp)
  have hmem := mem_order_union P h t
  have hcl : ∀ g ∈ ledger t, g.key.isHandle = false := reset_closes s.trace
  generalize P.order t _ (s.dmas ∪ s.quarantinedDmas).entries = entries at hmem
  have hdisc : Retreats X t (discardEach P entries t).2 := by
    apply discardEach_spec P (fun x hx => ?_) hcl
    exact (h.guarded x.1 x.2 ((hmem x.1 x.2).mp hx)).advance hreset.advances
  have hretr := hreset.trans hdisc
  generalize discardEach P entries t = r at hdisc hretr
  have hn : ∀ id d, ¬ LinuxVfio.Keeps { s with
      dmas := ∅, quarantinedDmas := ∅, trace := r.2 } id d := by
    intro id d hd
    rcases hd with hd | hd
    · cases hd
    · cases hd
  refine ⟨h.step rfl le_rfl hretr.advances (hretr.fresh h.fresh)
    (fun id d hd => absurd hd (hn id d)) (fun id hid => by cases hid), hretr,
    fun id d hd => .inr ?_⟩
  apply Freed.retreat _ hdisc
  intro g hg hkey
  have hhdl := h.brokered hflav id d hd g.key hkey
  rw [hcl g hg] at hhdl
  cases hhdl

/-! ## Allocations -/

theorem careful_of_tidy {size : Nat} {constraints : DmaConstraints} {direction : DmaDirection}
    {coherent : Bool} (htidy : Tidy s.trace s'.trace)
    (hkeeps : ∀ id d, s.Keeps id d → s'.Keeps id d) (result : Except Error Nat) :
    Careful ⟨s, .allocDmaConstrained size constraints direction coherent, result, s'⟩ := by
  refine ⟨?_, fun id d hd => retains_of_keeps (hkeeps id d hd)⟩
  obtain ⟨ext, hext, hfine, -⟩ := htidy
  rw [since_eq hext]
  rcases hfine with hfine | ⟨hfine, e, he, hbad⟩
  · exact hfine.mono fun _ h => h.elim
  · refine hfine.mono fun memory hle => ⟨⟨e, ?_, hbad⟩, hle⟩
    rw [since_eq hext]
    exact he

section
variable {size mappedLen : Nat} {constraints : DmaConstraints} {direction : DmaDirection}
  {coherent : Bool}

theorem allocDma_kept (h : Kept s) :
    let o := allocDma P size mappedLen constraints direction coherent
      { s with nextId := s.nextId + 1 }
    Framed { s with nextId := s.nextId + 1 } o.state ∧ Kept o.state ∧
      Tidy s.trace o.state.trace ∧
      ∀ d, o.result = .ok d → Guarded o.state.trace d ∧ (s.flavor = .broker → d.Brokered) := by
  intro o
  have hframe := allocDma_framed P size mappedLen constraints direction coherent
    { s with nextId := s.nextId + 1 }
  have hopens : Opens { s with nextId := s.nextId + 1 } o ∧
      (s.flavor = .broker → ∀ d, o.result = .ok d → d.Brokered) :=
    allocDma_opens (s := { s with nextId := s.nextId + 1 }) P h.fresh mappedLen direction coherent
  obtain ⟨⟨htidy, hguards⟩, hbrok⟩ := hopens
  refine ⟨hframe, ?_, htidy, fun d hd => ⟨hguards d hd, fun hflav => hbrok hflav d hd⟩⟩
  refine h.advance hframe.flavor hframe.dmas hframe.quarantinedDmas ?_ htidy.advances
    (htidy.fresh h.fresh)
  rw [hframe.nextId]
  exact Nat.le_succ _

theorem kept_insert (h : Kept s) {dma : Dma} (hnew : ∀ d, ¬ s.Keeps id d) (hid : id < s.nextId)
    (hguard : Guarded s.trace dma) (hbrok : s.flavor = .broker → dma.Brokered) :
    Kept { s with dmas := s.dmas.insert id dma } ∧
      ∀ id' d, s.Keeps id' d → LinuxVfio.Keeps { s with dmas := s.dmas.insert id dma } id' d := by
  have hn : s.quarantinedDmas.lookup id = none := by
    cases hlook : s.quarantinedDmas.lookup id with
    | none => rfl
    | some d => exact absurd (.inr hlook) (hnew d)
  have hkeeps : ∀ id' d, LinuxVfio.Keeps { s with dmas := s.dmas.insert id dma } id' d →
      (id' = id ∧ d = dma) ∨ s.Keeps id' d := by
    intro id' d hd
    by_cases hne : id' = id
    · subst hne
      simp only [LinuxVfio.Keeps, lookup_insert, hn] at hd
      rcases hd with hd | hd
      · exact .inl ⟨rfl, (Option.some.inj hd).symm⟩
      · cases hd
    · simp only [LinuxVfio.Keeps, lookup_insert_ne hne] at hd
      exact .inr hd
  constructor
  · refine h.step rfl le_rfl (Retreats.refl (X := fun _ => False) _).advances h.fresh
      (fun id' d hd => ?_) fun id' hmem => ?_
    · rcases hkeeps id' d hd with ⟨rfl, rfl⟩ | hd
      · exact .inr ⟨hguard, hbrok, hid⟩
      · exact .inl hd
    · rcases (mem_insert _).mp hmem with rfl | hmem
      · exact lookup_eq_none.mp hn
      · exact h.apart id' hmem
  · intro id' d hd
    by_cases hne : id' = id
    · subst hne
      exact absurd hd (hnew d)
    · simpa only [LinuxVfio.Keeps, lookup_insert_ne hne] using hd

end

/-! ## Every call -/

theorem careful_of_retires (h : Retires (fun _ => False) s s') (m : Method Nat Nat Nat)
    (result : Except Error m.Ret) : Kept s' ∧ Careful ⟨s, m, result, s'⟩ := by
  refine ⟨h.kept, ?_, h.retains⟩
  obtain ⟨ext, hext, hfine, -⟩ := h.retreats
  rw [since_eq hext]
  exact hfine.mono fun _ h => h.elim

theorem dmaStep_careful (h : Kept s) {m : Method Nat Nat Nat} (hstep : DmaStep P s m s')
    (result : Except Error m.Ret) : Kept s' ∧ Careful ⟨s, m, result, s'⟩ := by
  cases hstep with
  | still hs =>
    exact careful_of_retires ((retires_refl (kept_still h hs)).after_still hs) m result
  | failed _ ho =>
    subst ho
    obtain ⟨hframe, hkept, htidy, -⟩ := allocDma_kept P h
    refine ⟨hkept, careful_of_tidy htidy (fun id d hd => ?_) result⟩
    exact (keeps_congr hframe.dmas hframe.quarantinedDmas).mpr hd
  | opened _ ho hdma =>
    subst ho
    obtain ⟨hframe, hkept, htidy, hguards⟩ := allocDma_kept P h
    obtain ⟨hguard, hbrok⟩ := hguards _ hdma
    obtain ⟨hinsert, hkeeps⟩ := kept_insert hkept
      (fun d hd => Nat.lt_irrefl s.nextId (h.below s.nextId d
        ((keeps_congr hframe.dmas hframe.quarantinedDmas).mp hd)))
      (hframe.nextId ▸ Nat.lt_succ_self _) hguard
      (fun hflav => hbrok (hframe.flavor ▸ hflav))
    refine ⟨hinsert, ?_⟩
    apply careful_of_tidy
    · exact htidy
    · intro id d hd
      exact hkeeps id d ((keeps_congr hframe.dmas hframe.quarantinedDmas).mpr hd)
  | released hid hok => exact careful_of_retires (released_retires P h hid hok) _ result
  | quarantined hid => exact careful_of_retires (quarantined_retires P h hid) _ result
  | revoked hs hext =>
    have hrevoke := revokeDmas_retires (X := fun _ => False) P (kept_still h hs)
    exact careful_of_retires ((hrevoke.concat _ (retreats_resets hext)).after_still hs) _ result
  | refused hs =>
    have hresets : ∀ e ∈ ([⟨.reset, false⟩] : Trace), e.call = .reset := by simp
    have hreset := (retires_refl (X := fun _ => False) (kept_still h hs)).concat _
      (retreats_resets hresets)
    exact careful_of_retires (hreset.after_still hs) _ result
  | discarded hs hflav ht =>
    subst ht
    have hdisc := discarded_retires (X := fun _ => False) P (kept_still h hs) hflav
    exact careful_of_retires (hdisc.after_still hs) _ result

theorem run_careful (ms : List (Method Nat Nat Nat)) (h : Kept s) :
    Kept (s.run P ms).1 ∧ ∀ st ∈ (s.run P ms).2, Careful st := by
  induction ms generalizing s with
  | nil => exact ⟨h, by simp [run]⟩
  | cons m ms ih =>
    obtain ⟨hkept, hcareful⟩ := dmaStep_careful P h (method_dmaStep P s m) (method P m s).result
    obtain ⟨hlast, hsteps⟩ := ih hkept
    exact ⟨hlast, forall_mem_cons.mpr ⟨hcareful, hsteps⟩⟩

/-! ## The drop -/

/-- The arenas that the broker still holds after the drop has tried to
release them. -/
def HeldArena (s : LinuxVfio) (memory : Nat) : Prop :=
  let revoked := (revokeDmas P (revokeInterrupts P s).state).state
  ∃ id d m, revoked.quarantinedDmas.lookup id = some d ∧ d.memory = .brokerStreaming m ∧
    d.brokerHandle ≠ none ∧ m.memory = memory

theorem dropInterrupts_inert (entries : List (Sigma fun _ : Nat => UInt32 × VfioIrq)) :
    Asks Syscall.Inert (dropInterrupts P entries) := by
  induction entries with
  | nil => exact .pure _
  | cons entry rest ih => exact .bind (disable_inert P entry.2.2) fun _ => ih

theorem drop_retreats (h : Kept s) : Retreats (HeldArena P s) s.trace (drop P s).state.trace := by
  have hirqs := still_of_untouched s (revokeInterrupts_spec P s).1
  have hrevoke := revokeDmas_retires (X := HeldArena P s) P (kept_still h hirqs)
  obtain ⟨s₃, hs₃, hregs, -⟩ := clearRegions_spec P
    (revokeDmas P (revokeInterrupts P s).state).state
  have hheld : ∀ id d, s₃.quarantinedDmas.lookup id = some d → ∀ m,
      d.memory = .brokerStreaming m → d.brokerHandle ≠ none → HeldArena P s m.memory := by
    intro id d hd m hm hhdl
    rw [hregs.quarantinedDmas] at hd
    exact ⟨id, d, m, hd, hm, hhdl, rfl⟩
  have hclear := hrevoke.after_still hirqs
  have hkept := kept_still hclear.kept (still_of_untouched _ hregs)
  have hretr : Retreats (HeldArena P s) s.trace s₃.trace :=
    hclear.retreats.trans (retreats_of_inert hregs.trace)
  have hmem : ∀ x, x ∈ P.order s₃.trace _ s₃.quarantinedDmas.entries →
      s₃.quarantinedDmas.lookup x.1 = some x.2 := by
    intro x hx
    rw [(P.order_perm _ _ _).mem_iff] at hx
    exact mem_lookup_iff.mpr hx
  have hdrop := dropQuarantined_spec P (fun x hx => hkept.guarded x.1 x.2 (.inr (hmem x hx)))
    (fun x hx => hheld x.1 x.2 (hmem x hx))
  rw [LinuxVfio.drop, Eff.bind_of_silent (attempt_silent _ _),
    Eff.bind_of_silent (attempt_silent _ _), Eff.bind_of_silent hs₃,
    Eff.look_bind, sys_bind,
    Eff.look_bind, sys_bind]
  apply (hretr.trans hdrop).trans
  exact retreats_of_inert (dropInterrupts_inert P _ _)

end

/-- Pages that the device may access stay with the backend: through any
run, every call is careful, and at its end the drop gives back only pages
that are not open, arenas that the broker would not give back apart. -/
theorem run_quarantines (P : Platform) (flavor : Flavor) (pciIrq : Option IrqCapability)
    (preparedIrqs : Option (List InterruptEvent)) (ms : List (Method Nat Nat Nat)) :
    let r := (new flavor pciIrq preparedIrqs).run P ms
    (∀ st ∈ r.2, Careful st) ∧
      AllFine (HeldArena P r.1) r.1.trace (since r.1 (drop P r.1).state) := by
  intro r
  obtain ⟨hkept, hcareful⟩ := run_careful P ms (kept_new flavor pciIrq preparedIrqs)
  obtain ⟨ext, hext, hfine, -⟩ := drop_retreats P hkept
  refine ⟨hcareful, ?_⟩
  rw [since_eq hext]
  exact hfine

end

/-- A platform whose broker frees nothing. -/
def hoarding : Platform where
  answer t c := match c with
    | .broker command =>
      if command.operation = .free then none else (obliging true).answer t (.broker command)
    | c => (obliging true).answer t c
  order _ _ l := l
  order_perm _ _ l := .refl l

/-- The view of coherent memory goes while the broker still keeps the
memory open to the device, and the broker then refuses to free it. -/
theorem view_unmapped_before_free :
    let r := (new .broker none none).run hoarding
      [.allocDmaConstrained 4 (.new 4) .bidirectional true, .releaseDma 1]
    ∃ alloc release ok, r.2 = [alloc, release] ∧ since release.before release.after =
        [⟨.munmap 1 4, ok⟩, ⟨.broker { operation := .free, handle := 1 }, none⟩] ∧
      Visible release.before.trace 1 ∧ Visible release.after.trace 1 := by
  refine ⟨_, _, true, rfl, rfl, ?_, ?_⟩
  all_goals exact ⟨⟨.handle 1, .device 0⟩, mem_singleton_self _, rfl⟩

end Drv.Vfio
