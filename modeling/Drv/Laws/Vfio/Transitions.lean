import Drv.Laws.Vfio.Handles

/-!
# The methods that are not quiet

What allocations, releases and the reset do to the state, each said once:
the invariants of the modules that follow are read off from these cases
and never unfold a method again.

A reset has three ways to end. It may find that it cannot start, and then
it is quiet; it may stop after it moved the generation, when the kernel
refuses to disable an interrupt, or the broker its reset; or it reaches
the DMA mappings and takes all of them out of the table of handles.
-/

namespace Drv.Vfio

open Drv.Hardware (Error Method DmaDirection DmaConstraints)
open List Eff

/-! ## Refused requests -/

/-- An answer that stops a reset after it moved the generation. -/
def Event.Refuses (flavor : Flavor) : Event → Prop
  | ⟨.setIrqs _, ok⟩ => ok = false
  | ⟨.reset, ok⟩ => flavor = .broker ∧ ok = false
  | _ => False

instance (flavor : Flavor) : (event : Event) → Decidable (event.Refuses flavor)
  | ⟨.setIrqs _, ok⟩ => inferInstanceAs (Decidable (ok = false))
  | ⟨.reset, ok⟩ => inferInstanceAs (Decidable (flavor = .broker ∧ ok = false))
  | ⟨.regionInfo _, _⟩ | ⟨.mmapRegion .., _⟩ | ⟨.munmapRegion .., _⟩ | ⟨.mmap .., _⟩
  | ⟨.munmap .., _⟩ | ⟨.ioasMap .., _⟩ | ⟨.ioasUnmap .., _⟩ | ⟨.broker _, _⟩ | ⟨.deviceInfo, _⟩
  | ⟨.irqInfo _, _⟩ | ⟨.eventfd, _⟩ | ⟨.readEvent _, _⟩ | ⟨.pollRead _, _⟩ | ⟨.pollEvents .., _⟩
  | ⟨.clock, _⟩ | ⟨.loadWord .., _⟩ | ⟨.storeWord .., _⟩ | ⟨.load .., _⟩ | ⟨.store .., _⟩ =>
    .isFalse id

/-- When `x` answers a failure, one of its requests was answered badly. -/
def Blames {α : Type} (bad : Event → Prop) (failed : α → Prop) (x : Sys α) : Prop :=
  ∀ t, ∃ ext, (x t).2 = t ++ ext ∧ (failed (x t).1 → ∃ e ∈ ext, bad e)

namespace Blames

variable {α β : Type} {bad : Event → Prop} {failed : α → Prop} {failed' : β → Prop}

theorem pure {a : α} (h : ¬ failed a) : Blames bad failed (pure a : Sys α) :=
  fun t => ⟨[], (append_nil t).symm, fun hf => absurd hf h⟩

theorem ask (P : Platform) {c : Syscall} {failed : c.Answer → Prop}
    (h : ∀ answer, failed answer → bad ⟨c, answer⟩) : Blames bad failed (ask P c) :=
  fun t => ⟨[⟨c, P.answer t c⟩], rfl, fun hf => ⟨_, mem_singleton_self _, h _ hf⟩⟩

/-- Only a failure of the rest is left to be explained by the rest. -/
theorem bind {x : Sys α} {f : α → Sys β} (hx : Blames bad failed x)
    (hf : ∀ a, Blames bad (fun b => ¬ failed a ∧ failed' b) (f a)) :
    Blames bad failed' (x >>= f) := by
  intro t
  obtain ⟨ext, hext, hbad⟩ := hx t
  obtain ⟨ext', hext', hbad'⟩ := hf (x t).1 (x t).2
  refine ⟨ext ++ ext', ?_, fun hfail => ?_⟩
  · rw [← append_assoc, ← hext]
    exact hext'
  · by_cases h : failed (x t).1
    · obtain ⟨e, he, hb⟩ := hbad h
      exact ⟨e, mem_append_left _ he, hb⟩
    · obtain ⟨e, he, hb⟩ := hbad' ⟨h, hfail⟩
      exact ⟨e, mem_append_right _ he, hb⟩

theorem mono {failed₂ : α → Prop} {x : Sys α} (hx : Blames bad failed x)
    (h : ∀ a, failed₂ a → failed a) : Blames bad failed₂ x := by
  intro t
  obtain ⟨ext, hext, hbad⟩ := hx t
  exact ⟨ext, hext, fun hf => hbad (h _ hf)⟩

end Blames

section
variable (P : Platform) (flavor : Flavor)

theorem setIrqs_blames (set : IrqSet) :
    Blames (Event.Refuses flavor) (· = false) (ask P (.setIrqs set)) :=
  Blames.ask P (c := .setIrqs set) (fun _ h => h)

theorem prepareWait_blames (i : VfioIrq) :
    Blames (Event.Refuses flavor) (·.1 = false) (i.prepareWait P) := by
  unfold VfioIrq.prepareWait
  split
  · refine .bind (setIrqs_blames P flavor _) fun ok => .pure ?_
    exact fun h => h.1 h.2
  · exact .pure (by simp)

theorem disable_blames (i : VfioIrq) :
    Blames (Event.Refuses flavor) (·.1 = false) (i.disable P) := by
  unfold VfioIrq.disable
  split
  · refine .bind (prepareWait_blames P flavor i) fun prepared => ?_
    match prepared with
    | (false, i) => exact .pure (by simp)
    | (true, i) =>
      refine .bind (setIrqs_blames P flavor _) fun ok => .pure ?_
      exact fun h => h.1 h.2.2
  · exact .pure (by simp)

theorem disableIndices_blames (indices : List UInt32) :
    Blames (Event.Refuses flavor) (· ≠ []) (LinuxVfio.disableIndices P indices) := by
  induction indices with
  | nil => exact .pure (by simp)
  | cons index rest ih =>
    refine .bind (setIrqs_blames P flavor _) fun ok => ?_
    refine .bind ih fun left => .pure ?_
    intro h
    cases ok with
    | false => exact h.2.1 rfl
    | true => exact h.1 h.2.2

theorem disableEach_blames (entries : List (Sigma fun _ : Nat => UInt32 × VfioIrq))
    (failed : Table (UInt32 × VfioIrq)) :
    Blames (Event.Refuses flavor) (fun left => failed.entries = [] ∧ left.entries ≠ [])
      (LinuxVfio.disableEach P entries failed) := by
  induction entries generalizing failed with
  | nil => exact .pure fun h => h.2 h.1
  | cons entry rest ih =>
    obtain ⟨id, vector, irq⟩ := entry
    refine .bind (disable_blames P flavor irq) fun disabled => ?_
    match disabled with
    | (true, _) => exact (ih failed).mono fun left h => h.2
    | (false, irq) => exact (ih _).mono fun left h => absurd rfl h.1

end

namespace LinuxVfio

section
variable (P : Platform)

/-! ## Revocation -/

theorem disableIndices_inert (indices : List UInt32) :
    Asks Syscall.Inert (disableIndices P indices) := by
  induction indices with
  | nil => exact .pure _
  | cons index rest ih => exact .bind (.ask P trivial) fun _ => .bind ih fun _ => .pure _

theorem disableEach_inert (entries : List (Sigma fun _ : Nat => UInt32 × VfioIrq))
    (failed : Table (UInt32 × VfioIrq)) : Asks Syscall.Inert (disableEach P entries failed) := by
  induction entries generalizing failed with
  | nil => exact .pure _
  | cons entry rest ih =>
    obtain ⟨id, vector, irq⟩ := entry
    refine .bind (disable_inert P irq) fun disabled => ?_
    match disabled with
    | (true, _) => exact ih failed
    | (false, irq) => exact ih _

theorem dropEach_inert (entries : List (Sigma fun _ : Nat => RegionMapping)) :
    Asks Syscall.Inert (dropEach P entries) := by
  induction entries with
  | nil => exact .pure _
  | cons entry rest ih => exact .bind (region_teardown_inert P entry.2) fun _ => ih

end

/-- The states around the part of a reset, or of the drop, that leaves the
DMA mappings alone. -/
structure Untouched (s s' : LinuxVfio) : Prop where
  flavor : s'.flavor = s.flavor
  nextId : s'.nextId = s.nextId
  nextIova : s'.nextIova = s.nextIova
  dmas : s'.dmas = s.dmas
  quarantinedDmas : s'.quarantinedDmas = s.quarantinedDmas
  trace : Extends Syscall.Inert s.trace s'.trace

variable {s' : LinuxVfio}

theorem Untouched.trans {s s'' : LinuxVfio} (h : Untouched s s') (h' : Untouched s' s'') :
    Untouched s s'' where
  flavor := h'.flavor.trans h.flavor
  nextId := h'.nextId.trans h.nextId
  nextIova := h'.nextIova.trans h.nextIova
  dmas := h'.dmas.trans h.dmas
  quarantinedDmas := h'.quarantinedDmas.trans h.quarantinedDmas
  trace := h.trace.trans h'.trace

section
variable (P : Platform) (s : LinuxVfio)

/-- Requests made between two states. -/
def since (s s' : LinuxVfio) : Trace := s'.trace.drop s.trace.length

theorem since_eq {s : LinuxVfio} {ext : Trace} (h : s'.trace = s.trace ++ ext) :
    since s s' = ext := by
  rw [since, h, drop_left]

variable {α : Type}

theorem sys_apply (x : Sys α) :
    sys x s = ⟨.ok (x s.trace).1, { s with trace := (x s.trace).2 }, []⟩ := rfl

theorem sys_bind {α β : Type} {x : Sys α} {f : α → Vf β} {s : LinuxVfio} :
    (sys x >>= f) s = f (x s.trace).1 { s with trace := (x s.trace).2 } :=
  bind_of_silent (sys_apply s x)

theorem attempt_silent (x : Vf α) : x.attempt s = ⟨.ok (x s).result, (x s).state, []⟩ := by
  have hcs : (x s).calls = [] := eq_nil_iff_forall_not_mem.mpr fun c => c.elim
  rw [attempt_apply, hcs]

theorem revokeInterrupts_spec :
    let o := revokeInterrupts P s
    Untouched s o.state ∧ o.state.generation = s.generation ∧
      (o.result = .ok () ∨ ∃ event ∈ since s o.state, event.Refuses s.flavor) := by
  rw [revokeInterrupts, look_bind, sys_bind, look_bind, sys_bind, modify_bind]
  dsimp only
  have hasked := (disableIndices_inert P (P.order s.trace _ s.ambiguousIrqIndices)) s.trace
  obtain ⟨ext, hext, hbad⟩ := disableIndices_blames P s.flavor
    (P.order s.trace _ s.ambiguousIrqIndices) s.trace
  generalize disableIndices P (P.order s.trace _ s.ambiguousIrqIndices) s.trace = indices
    at hasked hext hbad ⊢
  have hasked' := disableEach_inert P (P.order indices.2 _ s.interrupts.entries) ∅ indices.2
  obtain ⟨ext', hext', hbad'⟩ := disableEach_blames P s.flavor
    (P.order indices.2 _ s.interrupts.entries) ∅ indices.2
  generalize disableEach P (P.order indices.2 _ s.interrupts.entries) ∅ indices.2 = failed
    at hasked' hext' hbad' ⊢
  have htr := hasked.trans hasked'
  rw [hext, append_assoc] at hext'
  split
  next => exact ⟨⟨rfl, rfl, rfl, rfl, rfl, htr⟩, rfl, .inl rfl⟩
  next hl =>
    refine ⟨⟨rfl, rfl, rfl, rfl, rfl, htr⟩, rfl, .inr ?_⟩
    rw [since_eq hext']
    by_cases h : indices.1 = []
    · obtain ⟨e, he, hr⟩ := hbad' ⟨rfl, fun hf => hl ⟨h, hf⟩⟩
      exact ⟨e, mem_append_right _ he, hr⟩
    · obtain ⟨e, he, hr⟩ := hbad h
      exact ⟨e, mem_append_left _ he, hr⟩

theorem clearRegions_spec :
    ∃ s', clearRegions P s = ⟨.ok (), s', []⟩ ∧ Untouched s s' ∧ s'.generation = s.generation := by
  refine ⟨{ s with regions := ∅, trace := (dropEach P (P.order s.trace _ s.regions.entries)
    s.trace).2 }, ?_, ⟨rfl, rfl, rfl, rfl, rfl, dropEach_inert P _ _⟩, rfl⟩
  rw [clearRegions, look_bind, modify_bind, sys_apply]

/-! ## Resets -/

/-- All DMA mappings, released where that succeeds; the rest is kept in
quarantine. -/
theorem revokeDmas_state :
    let left := releaseEach P (P.order s.trace _ (s.dmas ∪ s.quarantinedDmas).entries) ∅ s.trace
    (revokeDmas P s).state =
      { s with dmas := ∅, quarantinedDmas := left.1, trace := left.2 } := by
  intro left
  rw [revokeDmas, look_bind, sys_bind, modify_bind]
  split
  · rfl
  · rfl

theorem releaseEach_cons (id : Nat) (d : Dma) (rest : List (Sigma fun _ : Nat => Dma))
    (failed : Table Dma) (t : Trace) :
    let r := releaseDmaResource P d t
    releaseEach P (⟨id, d⟩ :: rest) failed t = if r.1.1 then releaseEach P rest failed r.2
      else releaseEach P rest (failed.insert id r.1.2) r.2 := by
  rw [releaseEach, bind_run]
  generalize releaseDmaResource P d t = r
  obtain ⟨⟨ok, d'⟩, t'⟩ := r
  cases ok with
  | true => rfl
  | false => rfl

/-- What is left after releases was left before, or is one of the
allocations as far as its release came. -/
theorem releaseEach_lookup {entries : List (Sigma fun _ : Nat => Dma)} {failed : Table Dma}
    {t : Trace} {id : Nat} {d : Dma} (h : (releaseEach P entries failed t).1.lookup id = some d) :
    failed.lookup id = some d ∨
      ∃ d₀, ⟨id, d₀⟩ ∈ entries ∧ ∃ t', d = (releaseDmaResource P d₀ t').1.2 := by
  induction entries generalizing failed t with
  | nil => exact .inl h
  | cons entry rest ih =>
    obtain ⟨id', d'⟩ := entry
    rw [releaseEach_cons] at h
    split at h
    next =>
      rcases ih h with hfailed | ⟨d₀, hmem, hl⟩
      · exact .inl hfailed
      · exact .inr ⟨d₀, mem_cons_of_mem _ hmem, hl⟩
    next =>
      rcases ih h with hfailed | ⟨d₀, hmem, hl⟩
      · by_cases hid : id = id'
        · subst hid
          rw [AList.lookup_insert] at hfailed
          cases hfailed
          exact .inr ⟨d', mem_cons_self, t, rfl⟩
        · rw [AList.lookup_insert_ne hid] at hfailed
          exact .inl hfailed
      · exact .inr ⟨d₀, mem_cons_of_mem _ hmem, hl⟩

theorem resetDevice_apply :
    resetDevice P s = ⟨if P.answer s.trace .reset then .ok () else .error .deviceFault,
      { s with trace := s.trace ++ [⟨.reset, P.answer s.trace .reset⟩] }, []⟩ := by
  show (if P.answer s.trace .reset = true then _ else _ : Vf Unit) _ = _
  split
  · rfl
  · rfl

/-- A broker reset that is refused changes nothing; otherwise the mappings
of the process go with the tables. -/
theorem resetDmas_broker (h : s.flavor = .broker) :
    let t := s.trace ++ [⟨.reset, P.answer s.trace .reset⟩]
    (P.answer s.trace .reset = false ∧ (resetDmas P s).state = { s with trace := t }) ∨
      (P.answer s.trace .reset = true ∧
        (resetDmas P s).state = { s with
          dmas := ∅, quarantinedDmas := ∅,
          trace := (discardEach P (P.order t _ (s.dmas ∪ s.quarantinedDmas).entries) t).2 }) := by
  intro t
  have hrun : resetDmas P s = (resetDevice P >>= fun _ => discardResetBrokerDmas P) s := by
    rw [resetDmas, look_bind]
    simp only [h]
  rw [hrun]
  have hdev := resetDevice_apply P s
  cases hans : P.answer s.trace .reset with
  | false =>
    left
    rw [hans, if_neg (by simp)] at hdev
    rw [bind_of_error hdev]
    exact ⟨rfl, by simp only [t, hans]⟩
  | true =>
    right
    rw [hans, if_pos rfl] at hdev
    rw [bind_of_silent hdev, discardResetBrokerDmas, look_bind, sys_bind]
    exact ⟨rfl, by simp only [t, hans, modify_apply]⟩

theorem resetDmas_ioas (h : s.flavor ≠ .broker) :
    ∃ ext : Trace, (∀ e ∈ ext, e.call = .reset) ∧ (resetDmas P s).state =
      { (revokeDmas P s).state with trace := (revokeDmas P s).state.trace ++ ext } := by
  have hrun : resetDmas P s = (revokeDmas P >>= fun _ => resetDevice P) s := by
    rw [resetDmas, look_bind]
    cases hflavor : s.flavor with
    | broker => exact absurd hflavor h
    | coherent => rfl
    | pciCoherent => rfl
  rw [hrun, bind_apply]
  split
  next =>
    rw [resetDevice_apply]
    refine ⟨_, fun e he => ?_, rfl⟩
    rw [mem_singleton.mp he]
  next => exact ⟨[], by simp, by simp⟩

/-- A reset that cannot start is quiet. Otherwise the generation moves;
then the reset stops where it is refused to revoke an interrupt, or
reaches the DMA mappings. -/
theorem reset_cases :
    Quiet s (reset P s).state ∨ ∃ s₁, Untouched s s₁ ∧ s₁.generation = s.generation + 1 ∧
        s.generation.toNat + 1 < 2 ^ 64 ∧
        (((reset P s).state = s₁ ∧ ∃ event ∈ since s s₁, event.Refuses s.flavor) ∨
          (reset P s).state = (resetDmas P s₁).state) := by
  have hinfo : Asks Syscall.Inert (ask P .deviceInfo) := .ask P trivial
  have hquiet := sys_quiet hinfo s
  rw [reset, sys_bind]
  cases (ask P .deviceInfo s.trace).1 with
  | none => exact .inl hquiet
  | some =>
    dsimp only
    split
    next => exact .inl hquiet
    next =>
      rw [look_bind]
      split
      next hlt =>
        right
        let s₀ : LinuxVfio := { s with
          trace := (ask P .deviceInfo s.trace).2, generation := s.generation + 1,
          interruptWaiters := [] }
        have h₀ : Untouched s s₀ := ⟨rfl, rfl, rfl, rfl, rfl, hinfo s.trace⟩
        obtain ⟨h₁, hgen₁, hres⟩ := revokeInterrupts_spec P s₀
        show ∃ s₁, _ ∧ _ ∧ _ ∧ (((revokeInterrupts P >>= _) s₀).state = s₁ ∧ _ ∨
          ((revokeInterrupts P >>= _) s₀).state = _)
        rw [bind_apply]
        split
        next =>
          obtain ⟨s₂, hs₂, h₂, hgen₂⟩ := clearRegions_spec P (revokeInterrupts P s₀).state
          rw [bind_of_silent hs₂]
          refine ⟨s₂, (h₀.trans h₁).trans h₂, hgen₂.trans hgen₁, hlt, .inr ?_⟩
          rw [bind_apply]
          split
          · rfl
          · rfl
        next e he =>
          rw [he] at hres
          refine ⟨_, h₀.trans h₁, hgen₁, hlt, .inl ⟨rfl, ?_⟩⟩
          rcases hres with hok | ⟨event, hmem, href⟩
          · cases hok
          · refine ⟨event, ?_, href⟩
            obtain ⟨ext, hext, -⟩ := h₀.trace
            obtain ⟨ext', hext', -⟩ := h₁.trace
            have htr : (revokeInterrupts P s₀).state.trace = s.trace ++ (ext ++ ext') := by
              rw [hext', hext, append_assoc]
            rw [since_eq hext'] at hmem
            rw [since_eq htr]
            exact mem_append_right _ hmem
      next => exact .inl hquiet

/-! ## Releases -/

theorem releaseRegion_spec (region : Nat) :
    let s' := (releaseRegion P region s).state
    Untouched s s' ∧ s'.generation = s.generation ∧ s'.interrupts = s.interrupts ∧
      ∀ id ∈ s.regions, id ≠ region → id ∈ s'.regions := by
  rw [releaseRegion, look_bind]
  cases s.regions.lookup region with
  | none => exact ⟨⟨rfl, rfl, rfl, rfl, rfl, .refl _⟩, rfl, rfl, fun _ h _ => h⟩
  | some mapping =>
    refine ⟨⟨rfl, rfl, rfl, rfl, rfl, region_teardown_inert P mapping _⟩, rfl, rfl, ?_⟩
    intro id hid hne
    exact AList.mem_erase.mpr ⟨hne, hid⟩

theorem releaseInterrupt_spec (interrupt : Nat) :
    let s' := (releaseInterrupt P interrupt s).state
    Untouched s s' ∧ s'.generation = s.generation ∧ s'.regions = s.regions ∧
      ∀ id ∈ s.interrupts, id ≠ interrupt → id ∈ s'.interrupts := by
  rw [releaseInterrupt, modify_bind, look_bind]
  dsimp only
  cases s.interrupts.lookup interrupt with
  | none => exact ⟨⟨rfl, rfl, rfl, rfl, rfl, .refl _⟩, rfl, rfl, fun _ h _ => h⟩
  | some entry =>
    obtain ⟨vector, irq⟩ := entry
    dsimp only
    rw [modify_bind, sys_bind]
    have hasked := disable_inert P irq s.trace
    have herase : ∀ id ∈ s.interrupts, id ≠ interrupt → id ∈ s.interrupts.erase interrupt :=
      fun id hid hne => AList.mem_erase.mpr ⟨hne, hid⟩
    dsimp only
    split
    next => exact ⟨⟨rfl, rfl, rfl, rfl, rfl, hasked⟩, rfl, rfl, herase⟩
    next =>
      refine ⟨⟨rfl, rfl, rfl, rfl, rfl, hasked⟩, rfl, rfl, fun id hid hne => ?_⟩
      exact (AList.mem_insert _).mpr (.inr (herase id hid hne))

/-- A release takes the allocation out of the table; what cannot be given
back goes to the quarantine. -/
theorem releaseDma_cases (id : Nat) :
    let s' := (releaseDma P id s).state
    (s.dmas.lookup id = none ∧ s' = s) ∨ ∃ dma, s.dmas.lookup id = some dma ∧
      let r := releaseDmaResource P dma s.trace
      (r.1.1 = true ∧ s' = { s with dmas := s.dmas.erase id, trace := r.2 }) ∨
      (r.1.1 = false ∧ s' = { s with
        dmas := s.dmas.erase id, quarantinedDmas := s.quarantinedDmas.insert id r.1.2,
        trace := r.2 }) := by
  rw [releaseDma, look_bind]
  cases s.dmas.lookup id with
  | none => exact .inl ⟨rfl, rfl⟩
  | some dma =>
    refine .inr ⟨dma, rfl, ?_⟩
    dsimp only
    rw [modify_bind, sys_bind]
    dsimp only
    split
    next hok => exact .inl ⟨hok, rfl⟩
    next hok => exact .inr ⟨by simpa using hok, rfl⟩

/-! ## Allocations -/

/-- The states around the making of an allocation. -/
structure Framed (s s' : LinuxVfio) : Prop where
  flavor : s'.flavor = s.flavor
  generation : s'.generation = s.generation
  nextId : s'.nextId = s.nextId
  regions : s'.regions = s.regions
  dmas : s'.dmas = s.dmas
  quarantinedDmas : s'.quarantinedDmas = s.quarantinedDmas
  interrupts : s'.interrupts = s.interrupts

instance : IsPreorder LinuxVfio Framed where
  refl _ := ⟨rfl, rfl, rfl, rfl, rfl, rfl, rfl⟩
  trans _ _ _ h h' := ⟨h'.1.trans h.1, h'.2.trans h.2, h'.3.trans h.3, h'.4.trans h.4,
    h'.5.trans h.5, h'.6.trans h.6, h'.7.trans h.7⟩

theorem sys_framed (x : Sys α) : Within Framed (sys x) :=
  fun _ => ⟨rfl, rfl, rfl, rfl, rfl, rfl, rfl⟩

variable (size mappedLen : Nat) (constraints : DmaConstraints) (direction : DmaDirection)

theorem allocIoas_framed : Within Framed (allocIoas P size mappedLen constraints direction) := by
  refine .look_bind fun nextIova => ?_
  refine .ofExcept_bind fun iova => .guard ?_
  refine .bind (sys_framed _) fun mapping => ?_
  cases mapping with
  | none => exact .fail _
  | some =>
    refine .ite ?_ (.bind (sys_framed _) fun _ => .fail _)
    refine .bind (.modify fun s => ?_) fun _ => .pure _
    exact ⟨rfl, rfl, rfl, rfl, rfl, rfl, rfl⟩

theorem allocCoherent_framed (size : Nat) (constraints : DmaConstraints)
    (direction : DmaDirection) : Within Framed (allocCoherent P size constraints direction) := by
  refine .bind (.bind (sys_framed _) fun reply => ?_) fun reply => ?_
  · cases reply with
    | none => exact .fail _
    | some => exact .pure _
  · refine .ite (.bind (sys_framed _) fun _ => .fail _) ?_
    refine .bind (sys_framed _) fun mapping => ?_
    cases mapping with
    | none => exact .bind (sys_framed _) fun _ => .fail _
    | some => exact .pure _

theorem allocStreaming_framed :
    Within Framed (allocStreaming P size mappedLen constraints direction) := by
  refine .bind (sys_framed _) fun arena => ?_
  cases arena with
  | none => exact .fail _
  | some =>
    refine .bind (sys_framed _) fun reply => ?_
    cases reply with
    | none => exact .bind (sys_framed _) fun _ => .fail _
    | some =>
      refine .ite ?_ (.pure _)
      exact .bind (sys_framed _) fun _ => .bind (sys_framed _) fun _ => .fail _

theorem allocDma_framed (coherent : Bool) :
    Within Framed (allocDma P size mappedLen constraints direction coherent) := by
  refine .look_bind fun flavor => ?_
  cases flavor with
  | coherent | pciCoherent => exact allocIoas_framed P size mappedLen constraints direction
  | broker =>
    exact .ite (allocCoherent_framed P size constraints direction)
      (allocStreaming_framed P size mappedLen constraints direction)

/-- Without an allocation the tables stay; with one, it gets the next
handle. -/
theorem allocDmaConstrained_cases (size : Nat) (constraints : DmaConstraints)
    (direction : DmaDirection) (coherent : Bool) :
    let o := allocDmaConstrained P size constraints direction coherent s
    (∃ e, o.result = .error e ∧ o.state = s) ∨
      ∃ mappedLen, checkedAllocation size constraints = .ok mappedLen ∧
        let a := allocDma P size mappedLen constraints direction coherent
          { s with nextId := s.nextId + 1 }
        (∃ e, a.result = .error e ∧ o.result = .error e ∧ o.state = a.state) ∨
        (∃ dma, a.result = .ok dma ∧ o.result = .ok s.nextId ∧
          o.state = { a.state with dmas := a.state.dmas.insert s.nextId dma }) := by
  rw [allocDmaConstrained]
  cases checkedAllocation size constraints with
  | error e =>
    rw [bind_of_error (ofExcept_apply _ _)]
    exact .inl ⟨e, rfl, rfl⟩
  | ok mappedLen =>
    rw [bind_of_silent (ofExcept_apply _ _)]
    rcases id_cases s with hid | hid
    · rw [bind_of_error hid]
      exact .inl ⟨_, rfl, rfl⟩
    · refine .inr ⟨mappedLen, rfl, ?_⟩
      rw [bind_of_silent hid, bind_apply]
      split
      next dma hdma => exact .inr ⟨dma, hdma, rfl, rfl⟩
      next e he => exact .inl ⟨e, he, rfl, rfl⟩

/-! ## What a call can do to the DMA mappings -/

/-- The states around a call that leaves the DMA mappings alone. -/
structure Still (s s' : LinuxVfio) : Prop where
  flavor : s'.flavor = s.flavor
  nextId : s.nextId ≤ s'.nextId
  nextIova : s'.nextIova = s.nextIova
  dmas : s'.dmas = s.dmas
  quarantinedDmas : s'.quarantinedDmas = s.quarantinedDmas
  trace : Extends Syscall.Inert s.trace s'.trace

theorem still_of_quiet (h : Quiet s s') : Still s s' :=
  { h with }

theorem still_of_untouched (h : Untouched s s') : Still s s' :=
  { h with nextId := h.nextId.ge }

/-- The states around any call, as far as DMA mappings go. -/
inductive DmaStep (s : LinuxVfio) : Method Nat Nat Nat → LinuxVfio → Prop
  | still {m s'} (h : Still s s') : DmaStep s m s'
  | failed {size mappedLen constraints direction coherent o e}
      (hlen : checkedAllocation size constraints = .ok mappedLen)
      (ho : allocDma P size mappedLen constraints direction coherent
        { s with nextId := s.nextId + 1 } = o) (h : o.result = .error e) :
      DmaStep s (.allocDmaConstrained size constraints direction coherent) o.state
  | opened {size mappedLen constraints direction coherent o dma}
      (hlen : checkedAllocation size constraints = .ok mappedLen)
      (ho : allocDma P size mappedLen constraints direction coherent
        { s with nextId := s.nextId + 1 } = o) (h : o.result = .ok dma) :
      DmaStep s (.allocDmaConstrained size constraints direction coherent)
        { o.state with dmas := o.state.dmas.insert s.nextId dma }
  | released {id dma} (hid : s.dmas.lookup id = some dma)
      (h : (releaseDmaResource P dma s.trace).1.1 = true) :
      DmaStep s (.releaseDma id)
        { s with dmas := s.dmas.erase id, trace := (releaseDmaResource P dma s.trace).2 }
  | quarantined {id dma} (hid : s.dmas.lookup id = some dma)
      (h : (releaseDmaResource P dma s.trace).1.1 = false) :
      DmaStep s (.releaseDma id)
        { s with
          dmas := s.dmas.erase id
          quarantinedDmas := s.quarantinedDmas.insert id (releaseDmaResource P dma s.trace).1.2
          trace := (releaseDmaResource P dma s.trace).2 }
  | revoked {s₁ ext} (h : Still s s₁) (hext : ∀ e ∈ ext, e.call = .reset) :
      DmaStep s .reset
        { (revokeDmas P s₁).state with trace := (revokeDmas P s₁).state.trace ++ ext }
  | refused {s₁} (h : Still s s₁) :
      DmaStep s .reset { s₁ with trace := s₁.trace ++ [⟨.reset, false⟩] }
  | discarded {s₁ t} (h : Still s s₁) (hflavor : s₁.flavor = .broker)
      (ht : t = s₁.trace ++ [⟨.reset, true⟩]) :
      DmaStep s .reset
        { s₁ with
          dmas := ∅, quarantinedDmas := ∅
          trace := (discardEach P (P.order t _ (s₁.dmas ∪ s₁.quarantinedDmas).entries) t).2 }

theorem reset_dmaStep : DmaStep P s .reset (reset P s).state := by
  rcases reset_cases P s with h | ⟨s₁, h, -, -, ⟨hs, -⟩ | hs⟩
  · exact .still (still_of_quiet s h)
  · rw [hs]
    exact .still (still_of_untouched s h)
  · have hstill := still_of_untouched s h
    rw [hs]
    by_cases hflavor : s₁.flavor = .broker
    · rcases resetDmas_broker P s₁ hflavor with ⟨hans, hs⟩ | ⟨hans, hs⟩
      · rw [hs, hans]
        exact .refused hstill
      · rw [hs, hans]
        exact .discarded hstill hflavor rfl
    · obtain ⟨ext, hext, hs⟩ := resetDmas_ioas P s₁ hflavor
      rw [hs]
      exact .revoked hstill hext

theorem method_dmaStep (m : Method Nat Nat Nat) : DmaStep P s m (method P m s).state := by
  cases m with
  | allocDmaConstrained size constraints direction coherent =>
    rcases allocDmaConstrained_cases P s size constraints direction coherent with
      ⟨e, -, hs⟩ | ⟨mappedLen, hlen, ⟨e, he, -, hs⟩ | ⟨dma, hdma, -, hs⟩⟩
    · rw [method, hs]
      exact .still (still_of_quiet s (.refl s))
    · rw [method, hs]
      exact .failed hlen rfl he
    · rw [method, hs]
      exact .opened hlen rfl hdma
  | releaseRegion region => exact .still (still_of_untouched s (releaseRegion_spec P s region).1)
  | releaseDma id =>
    rcases releaseDma_cases P s id with ⟨-, hs⟩ | ⟨dma, hid, ⟨hok, hs⟩ | ⟨hok, hs⟩⟩
    · rw [method, hs]
      exact .still (still_of_quiet s (.refl s))
    · rw [method, hs]
      exact .released hid hok
    · rw [method, hs]
      exact .quarantined hid hok
  | releaseInterrupt interrupt =>
    exact .still (still_of_untouched s (releaseInterrupt_spec P s interrupt).1)
  | reset => exact reset_dmaStep P s
  | _ => exact .still (still_of_quiet s (plain_quiet P (by trivial) s))

/-- The call as a step of a run. -/
def step (m : Method Nat Nat Nat) : Step := ⟨s, m, (method P m s).result, (method P m s).state⟩

end

end LinuxVfio

end Drv.Vfio
