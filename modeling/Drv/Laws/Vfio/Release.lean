import Drv.Laws.Vfio.Ledger
import Drv.Laws.Vfio.Transitions

/-!
# Releasing memory the device may access

An allocation is guarded when every grant on its pages is the one it
remembers (`Guarded`): then a release that was answered well has taken
back all access before the pages go, and a release that was not keeps
them. A release answers the allocation as far as it came, still guarded,
and that is what the quarantine keeps. No release is shown to succeed: the
kernel may refuse every call.
-/

namespace Drv.Vfio

open Drv.Hardware (Error Method DmaDirection DmaConstraints)
open List LinuxVfio

/-! ## Guarded allocations -/

/-- The pages of the process behind an allocation. -/
def DmaMemory.pages : DmaMemory → Option Nat
  | ioas m => some m.memory
  | brokerStreaming m => some m.memory
  | brokerCoherent _ => none

/-- What the backend would take the access back by. -/
def Dma.key (d : Dma) : Option Key :=
  match d.memory with
  | .ioas m => if m.mapped then some (.iova m.iova m.len) else none
  | .brokerCoherent _ | .brokerStreaming _ => d.brokerHandle.map .handle

/-- Every grant on the pages of the allocation is the one it remembers. -/
structure Guarded (t : Trace) (d : Dma) : Prop where
  placed : d.memory.view.memory < t.length
  viewed : d.memory.pages = none →
    ∃ offset, storage t d.memory.view.memory = .device offset
  keyed : ∀ g ∈ ledger t, ∀ memory, d.memory.pages = some memory →
    g.storage = .process memory → d.key = some g.key

/-- No grant is left under this key. -/
def Freed (t : Trace) (key : Option Key) : Prop := ∀ g ∈ ledger t, key ≠ some g.key

section
variable {X : Nat → Prop} {t t' : Trace} {d : Dma}

theorem view_of_pages {m : DmaMemory} {memory : Nat} (h : m.pages = some memory) :
    m.view.memory = memory := by
  cases m with
  | ioas => exact Option.some.inj h
  | brokerCoherent => cases h
  | brokerStreaming => exact Option.some.inj h

/-- The trace grows, and grants are new only on pages mapped since. -/
def Advances (t t' : Trace) : Prop :=
  (∃ ext, t' = t ++ ext) ∧
    ∀ g ∈ ledger t', g ∈ ledger t ∨ ∀ memory, g.storage = .process memory → t.length ≤ memory

theorem Retreats.advances (h : Retreats X t t') : Advances t t' := by
  obtain ⟨ext, hext, -, hgr⟩ := h
  exact ⟨⟨ext, hext⟩, fun g hg => .inl (hgr g hg)⟩

theorem Guarded.advance (h : Guarded t d) (ht : Advances t t') : Guarded t' d := by
  obtain ⟨⟨ext, rfl⟩, hgr⟩ := ht
  refine ⟨?_, fun hpgs => ?_, fun g hg memory hpgs hstore => ?_⟩
  · rw [length_append]
    exact Nat.lt_add_right _ h.placed
  · rw [storage, getElem?_append_left h.placed]
    exact h.viewed hpgs
  · rcases hgr g hg with hg | hnew
    · exact h.keyed g hg memory hpgs hstore
    · have hle := hnew memory hstore
      have hplace := h.placed
      rw [view_of_pages hpgs] at hplace
      omega

theorem Freed.retreat {key : Option Key} (h : Freed t key) (ht : Retreats X t t') :
    Freed t' key := by
  obtain ⟨ext, -, -, hgr⟩ := ht
  exact fun g hg => h g (hgr g hg)

theorem freed_none : Freed t none := fun _ _ h => by cases h

/-- Pages with no access left may go, and so may a view. -/
theorem Guarded.fine (h : Guarded t d) (hfree : d.memory.pages ≠ none → Freed t d.key) (len : Nat)
    (ok : Bool) : Fine X t ⟨.munmap d.memory.view.memory len, ok⟩ := by
  right
  cases hpgs : d.memory.pages with
  | none => exact .inl (h.viewed hpgs)
  | some memory =>
    have hview := view_of_pages hpgs
    cases hstore : storage t d.memory.view.memory with
    | device offset => exact .inl ⟨offset, rfl⟩
    | process =>
      right
      intro hvis
      obtain ⟨g, hg, hgs⟩ := hvis
      have hsame : g.storage = .process memory := by
        rw [hgs, ← hview]
        unfold storage at hstore ⊢
        split at hstore
        · cases hstore
        · rfl
      exact hfree (by simp [hpgs]) g hg (h.keyed g hg memory hpgs hsame)

/-- Only the pages and the key matter, and the key only while a grant is
left. -/
theorem Guarded.congr (h : Guarded t d) {d' : Dma}
    (hview : d'.memory.view.memory = d.memory.view.memory) (hpgs : d'.memory.pages = d.memory.pages)
    (hkey : d'.key = d.key ∨ Freed t d.key) : Guarded t d' := by
  refine ⟨hview ▸ h.placed, fun hn => ?_, fun g hg memory hmem hstore => ?_⟩
  · rw [hview]
    exact h.viewed (hpgs ▸ hn)
  · have hold := h.keyed g hg memory (hpgs ▸ hmem) hstore
    rcases hkey with hkey | hfree
    · exact hkey.trans hold
    · exact absurd hold (hfree g hg)

/-! ## Releasing one allocation -/

section
variable (P : Platform)

theorem freed_ioasUnmap (t : Trace) (iova len : Nat) :
    Freed (t ++ [⟨.ioasUnmap iova len, some len⟩]) (some (.iova iova len)) := by
  intro g hg heq
  rw [ledger_concat] at hg
  simp only [enter, if_true, mem_filter, decide_eq_true_eq] at hg
  exact hg.2 (Option.some.inj heq).symm

theorem freed_broker (t : Trace) {command : DmaBrokerCommand}
    (h : command.operation = .free ∨ command.operation = .unmap) (reply : DmaBrokerCommand) :
    Freed (t ++ [⟨.broker command, some reply⟩]) (some (.handle command.handle)) := by
  intro g hg heq
  rw [ledger_concat] at hg
  rcases h with h | h
  all_goals
    simp only [enter, h, mem_filter, decide_eq_true_eq] at hg
    exact hg.2 (Option.some.inj heq).symm

/-- Pages in the IOAS: access is taken back before the pages go. -/
theorem dmaMapping_teardown {m : DmaMapping} (h : Guarded t d) (hm : d.memory = .ioas m) :
    let r := m.teardown P t
    Retreats X t r.2 ∧ Guarded r.2 { d with memory := .ioas r.1.2 } ∧
      r.1.2.memory = m.memory ∧ (r.1.1 = true → Freed r.2 d.key) := by
  have hsame : { d with memory := .ioas m } = d := by rw [← hm]
  unfold DmaMapping.teardown
  by_cases hmap : m.mapped
  · have hkey : d.key = some (.iova m.iova m.len) := by
      rw [Dma.key, hm]
      exact if_pos hmap
    have hunmap : Retreats X t (t ++ [⟨.ioasUnmap m.iova m.len, P.answer t _⟩]) :=
      retreats_ask P trivial trivial
    have hguard := h.advance hunmap.advances
    rw [if_pos hmap, bind_run, ask_run]
    cases hans : P.answer t (.ioasUnmap m.iova m.len) with
    | none =>
      rw [hans] at hunmap hguard
      refine ⟨hunmap, hsame ▸ hguard, rfl, fun hok => ?_⟩
      cases hok
    | some length =>
      rw [hans] at hunmap hguard
      dsimp only
      by_cases hlen : length = m.len
      · subst hlen
        have hfree := freed_ioasUnmap t m.iova m.len
        rw [← hkey] at hfree
        have hbare : Guarded _ { d with memory := .ioas { m with mapped := false } } :=
          (hsame ▸ hguard).congr rfl rfl (.inr (hsame ▸ hfree))
        have hmunmap := retreats_ask (X := X) P (c := .munmap m.memory m.len) trivial
          (hbare.fine (fun _ => freed_none) m.len _)
        rw [if_neg (not_not.mpr rfl), bind_run]
        refine ⟨hunmap.trans hmunmap, hbare.advance hmunmap.advances, rfl, fun _ => ?_⟩
        exact hfree.retreat hmunmap
      · rw [if_pos hlen]
        refine ⟨hunmap, hsame ▸ hguard, rfl, fun hok => ?_⟩
        cases hok
  · have hkey : d.key = none := by
      rw [Dma.key, hm]
      exact if_neg hmap
    rw [if_neg hmap]
    exact ⟨.refl t, hsame ▸ h, rfl, fun _ => hkey ▸ freed_none⟩

theorem teardown_retreats (m : Mapping) (h : ∀ ok, Fine X t ⟨.munmap m.memory m.len, ok⟩) :
    Retreats X t (m.teardown P t).2 ∧ (m.teardown P t).1.2.memory = m.memory := by
  unfold Mapping.teardown
  split
  · have hmunmap := retreats_ask P (c := .munmap m.memory m.len) trivial (h _)
    rw [bind_run, ask_run]
    split
    · exact ⟨hmunmap, rfl⟩
    · exact ⟨hmunmap, rfl⟩
  · exact ⟨.refl t, rfl⟩

theorem mapping_teardown (h : Guarded t d) (hfree : d.memory.pages ≠ none → Freed t d.key)
    {m : Mapping} (hm : d.memory.view = m) :
    Retreats X t (m.teardown P t).2 ∧ (m.teardown P t).1.2.memory = m.memory := by
  apply teardown_retreats
  intro ok
  rw [← hm]
  exact h.fine hfree _ ok

theorem forgetHandle_spec (operation : BrokerOp) (hop : operation = .free ∨ operation = .unmap) :
    let r := forgetHandle P operation d t
    Retreats X t r.2 ∧ r.1.2.memory = d.memory ∧
      ((r.1.1 = true ∧ Freed r.2 (d.brokerHandle.map .handle) ∧ r.1.2.brokerHandle = none) ∨
        (r.1.1 = false ∧ r.1.2 = d)) := by
  unfold forgetHandle
  cases hhdl : d.brokerHandle with
  | none => exact ⟨.refl t, rfl, .inl ⟨rfl, freed_none, hhdl⟩⟩
  | some handle =>
    have hclosing : (Syscall.broker { operation, handle }).Closing := by
      rcases hop with rfl | rfl
      · exact ⟨by simp, by simp⟩
      · exact ⟨by simp, by simp⟩
    have hask := retreats_ask (X := X) (t := t) P hclosing trivial
    dsimp only
    rw [bind_run, ask_run]
    cases hans : P.answer t (.broker { operation, handle }) with
    | none =>
      rw [ask_run, hans] at hask
      exact ⟨hask, rfl, .inr ⟨rfl, rfl⟩⟩
    | some reply =>
      rw [ask_run, hans] at hask
      exact ⟨hask, rfl, .inl ⟨rfl, freed_broker t hop reply, rfl⟩⟩

/-- What a release does: it keeps the rule, answers the allocation still
guarded, and succeeds only when all access is taken back. -/
structure Released (X : Nat → Prop) (t : Trace) (d : Dma) (r : (Bool × Dma) × Trace) : Prop where
  retreats : Retreats X t r.2
  guarded : Guarded r.2 r.1.2
  memory : r.1.2.memory.view.memory = d.memory.view.memory
  freed : r.1.1 = true → Freed r.2 d.key

section
variable {m : Mapping} (h : Guarded t d)
include h

/-- The view goes first; the broker frees only what is not viewed. -/
theorem releaseCoherent (hm : d.memory = .brokerCoherent m) :
    Released X t d (releaseDmaResource P d t) := by
  obtain ⟨_, iova, len, direction, handle⟩ := d
  cases hm
  obtain ⟨hret, hmemory⟩ := mapping_teardown (X := X) P h (fun hne => absurd rfl hne) (m := m) rfl
  rw [releaseDmaResource]
  dsimp only
  rw [bind_run]
  generalize m.teardown P t = r at hret hmemory
  obtain ⟨⟨ok, m'⟩, t'⟩ := r
  have hguard : Guarded t' ⟨.brokerCoherent m', iova, len, direction, handle⟩ :=
    (h.advance hret.advances).congr hmemory rfl (.inl rfl)
  cases ok with
  | false => exact ⟨hret, hguard, hmemory, fun hok => by cases hok⟩
  | true =>
    obtain ⟨hret', hsame, hcases⟩ := forgetHandle_spec (X := X) P .free (.inl rfl)
    have hguard' := hguard.advance hret'.advances
    refine ⟨hret.trans hret', ?_, ?_, fun hok => ?_⟩
    · rcases hcases with ⟨-, hfree, -⟩ | ⟨-, hd⟩
      · exact hguard'.congr (by rw [hsame]) (by rw [hsame]) (.inr hfree)
      · rw [hd]
        exact hguard'
    · rw [hsame]
      exact hmemory
    · rcases hcases with ⟨-, hfree, -⟩ | ⟨hfalse, -⟩
      · exact hfree
      · rw [hfalse] at hok
        cases hok

/-- The broker unmaps before the pages go. -/
theorem releaseStreaming (hm : d.memory = .brokerStreaming m) :
    Released X t d (releaseDmaResource P d t) := by
  obtain ⟨_, iova, len, direction, handle⟩ := d
  cases hm
  obtain ⟨hret, hsame, hcases⟩ := forgetHandle_spec (X := X) P .unmap (.inr rfl)
  have hguard := h.advance hret.advances
  rw [releaseDmaResource]
  dsimp only
  rw [bind_run]
  generalize forgetHandle P .unmap ⟨.brokerStreaming m, iova, len, direction, handle⟩ t
    = r at hret hsame hcases hguard
  obtain ⟨⟨ok, d'⟩, t'⟩ := r
  rcases hcases with ⟨rfl, hfree, hn⟩ | ⟨rfl, rfl⟩
  · have hkey : d'.key = none := by
      rw [Dma.key, hsame, hn]
      rfl
    have hguard' : Guarded t' d' := hguard.congr (by rw [hsame]) (by rw [hsame]) (.inr hfree)
    obtain ⟨hret', hmemory⟩ := mapping_teardown (X := X) P hguard' (fun _ => hkey ▸ freed_none)
      (m := m) (by rw [hsame]; rfl)
    dsimp only
    rw [bind_run]
    generalize m.teardown P t' = r' at hret' hmemory
    obtain ⟨⟨ok, m'⟩, t''⟩ := r'
    have hpgs : d'.memory.pages = some m'.memory := by
      rw [hsame, hmemory]
      rfl
    have hview : m'.memory = d'.memory.view.memory := (view_of_pages hpgs).symm
    have hguarded'' : Guarded t'' { d' with memory := .brokerStreaming m' } := by
      refine (hguard'.advance hret'.advances).congr hview hpgs.symm (.inl ?_)
      rw [hkey, Dma.key, hn]
      rfl
    exact ⟨hret.trans hret', hguarded'', hmemory, fun _ => hfree.retreat hret'⟩
  · exact ⟨hret, hguard, rfl, fun hok => by cases hok⟩

end

theorem releaseDmaResource_spec (h : Guarded t d) : Released X t d (releaseDmaResource P d t) := by
  obtain ⟨memory, iova, len, direction, handle⟩ := d
  cases memory with
  | ioas =>
    obtain ⟨hret, hguard, hmemory, hfree⟩ := dmaMapping_teardown P h rfl
    exact ⟨hret, hguard, hmemory, hfree⟩
  | brokerCoherent => exact releaseCoherent P h rfl
  | brokerStreaming => exact releaseStreaming P h rfl

/-! ## What is left of an allocation -/

theorem dmaMapping_left (m : DmaMapping) (t : Trace) :
    (m.teardown P t).1.2 = m ∨ (m.teardown P t).1.2 = { m with mapped := false } := by
  unfold DmaMapping.teardown
  split
  · rw [bind_run, ask_run]
    cases P.answer t (.ioasUnmap m.iova m.len) with
    | none => exact .inl rfl
    | some =>
      dsimp only
      split
      · exact .inl rfl
      · exact .inr rfl
  · exact .inl rfl

theorem forgetHandle_left {operation : BrokerOp} (hop : operation = .free ∨ operation = .unmap)
    (d : Dma) (t : Trace) :
    let d' := (forgetHandle P operation d t).1.2
    d'.memory = d.memory ∧ (d'.brokerHandle = d.brokerHandle ∨ d'.brokerHandle = none) := by
  obtain ⟨-, hmemory, ⟨-, -, hn⟩ | ⟨-, hd⟩⟩ :=
    forgetHandle_spec (X := fun _ => False) (t := t) (d := d) P operation hop
  · exact ⟨hmemory, .inr hn⟩
  · exact ⟨hmemory, .inl (congrArg _ hd)⟩

/-- A release takes from an allocation at most its mapping and its handle. -/
theorem releaseDmaResource_left (d : Dma) (t : Trace) :
    let d' := (releaseDmaResource P d t).1.2
    match d.memory with
    | .ioas m => d' = d ∨ d' = { d with memory := .ioas { m with mapped := false } }
    | .brokerCoherent _ => (∃ m', d'.memory = .brokerCoherent m') ∧
        (d'.brokerHandle = d.brokerHandle ∨ d'.brokerHandle = none)
    | .brokerStreaming _ => (∃ m', d'.memory = .brokerStreaming m') ∧
        (d'.brokerHandle = d.brokerHandle ∨ d'.brokerHandle = none) := by
  obtain ⟨memory, iova, len, direction, handle⟩ := d
  rw [releaseDmaResource]
  cases memory with
  | ioas m =>
    have hl := dmaMapping_left P m t
    dsimp only
    rw [bind_run]
    generalize m.teardown P t = r at hl
    obtain ⟨⟨ok, m'⟩, t'⟩ := r
    rcases hl with rfl | rfl
    · exact .inl rfl
    · exact .inr rfl
  | brokerCoherent m =>
    dsimp only
    rw [bind_run]
    generalize m.teardown P t = r
    obtain ⟨⟨ok, m'⟩, t'⟩ := r
    cases ok with
    | false => exact ⟨⟨m', rfl⟩, .inl rfl⟩
    | true =>
      obtain ⟨hmemory, hhdl⟩ := forgetHandle_left P (.inl rfl)
        ⟨.brokerCoherent m', iova, len, direction, handle⟩ t'
      exact ⟨⟨m', hmemory⟩, hhdl⟩
  | brokerStreaming m =>
    obtain ⟨hmemory, hhdl⟩ := forgetHandle_left P (.inr rfl)
      ⟨.brokerStreaming m, iova, len, direction, handle⟩ t
    dsimp only
    rw [bind_run]
    generalize forgetHandle P .unmap _ t = r at hmemory hhdl
    obtain ⟨⟨ok, d'⟩, t'⟩ := r
    cases ok with
    | false => exact ⟨⟨m, hmemory⟩, hhdl⟩
    | true => exact ⟨⟨_, rfl⟩, hhdl⟩

theorem releaseDmaResource_key (d : Dma) (t : Trace) :
    let d' := (releaseDmaResource P d t).1.2
    d'.key = d.key ∨ d'.key = none := by
  have hl := releaseDmaResource_left P d t
  generalize (releaseDmaResource P d t).1.2 = d' at hl ⊢
  unfold Dma.key
  cases hm : d.memory with
  | ioas =>
    rw [hm] at hl
    rcases hl with h | h
    · exact .inl (by rw [h, hm])
    · exact .inr (by rw [h]; rfl)
  | brokerCoherent m | brokerStreaming m =>
    rw [hm] at hl
    obtain ⟨⟨m', h⟩, hhdl | hhdl⟩ := hl
    · exact .inl (by rw [h, hhdl])
    · exact .inr (by rw [h, hhdl]; rfl)

/-! ## Releasing all of them -/

/-- The allocation is still there, or all access to it is taken back. -/
def Retained (t : Trace) (left : Table Dma) (id : Nat) (d : Dma) : Prop :=
  (∃ d', left.lookup id = some d' ∧ d'.memory.view.memory = d.memory.view.memory) ∨ Freed t d.key

variable {entries : List (Sigma fun _ : Nat => Dma)}

theorem releaseEach_spec {failed : Table Dma} (hnodup : entries.NodupKeys)
    (hapart : ∀ x ∈ entries, x.1 ∉ failed) (hents : ∀ x ∈ entries, Guarded t x.2)
    (hfail : ∀ id d, failed.lookup id = some d → Guarded t d) :
    let r := releaseEach P entries failed t
    Retreats X t r.2 ∧ (∀ id d, r.1.lookup id = some d → Guarded r.2 d) ∧
      (∀ id d, failed.lookup id = some d → r.1.lookup id = some d) ∧
      ∀ x ∈ entries, Retained r.2 r.1 x.1 x.2 := by
  induction entries generalizing failed t with
  | nil => exact ⟨.refl t, hfail, fun _ _ h => h, by simp⟩
  | cons entry rest ih =>
    obtain ⟨id, d⟩ := entry
    obtain ⟨hid, hnodup⟩ := nodupKeys_cons.mp hnodup
    have hspec := releaseDmaResource_spec (X := X) P (hents _ mem_cons_self)
    have hr : ∀ x ∈ rest, Guarded (releaseDmaResource P d t).2 x.2 := fun x hx =>
      (hents x (mem_cons_of_mem _ hx)).advance hspec.retreats.advances
    have hk : ∀ id' d', failed.lookup id' = some d' →
        Guarded (releaseDmaResource P d t).2 d' := fun id' d' h =>
      (hfail id' d' h).advance hspec.retreats.advances
    have hne : ∀ x ∈ rest, x.1 ≠ id := by
      intro x hx heq
      have hkey : x.1 ∈ rest.keys := mem_keys_of_mem hx
      exact hid (heq ▸ hkey)
    rw [releaseEach_cons]
    split
    next hok =>
      obtain ⟨hret, hguard, hold, hall⟩ := ih hnodup
        (fun x hx => hapart x (mem_cons_of_mem _ hx)) hr hk
      refine ⟨hspec.retreats.trans hret, hguard, hold, forall_mem_cons.mpr ⟨?_, hall⟩⟩
      exact .inr ((hspec.freed hok).retreat hret)
    next hok =>
      have hfresh : ∀ x ∈ rest, x.1 ∉ failed.insert id (releaseDmaResource P d t).1.2 := by
        intro x hx hmem
        rcases (AList.mem_insert _).mp hmem with heq | hmem
        · exact hne x hx heq
        · exact hapart x (mem_cons_of_mem _ hx) hmem
      have hguards : ∀ id' d',
          (failed.insert id (releaseDmaResource P d t).1.2).lookup id' = some d' →
          Guarded (releaseDmaResource P d t).2 d' := by
        intro id' d' h
        by_cases hid' : id' = id
        · subst hid'
          rw [AList.lookup_insert] at h
          cases h
          exact hspec.guarded
        · rw [AList.lookup_insert_ne hid'] at h
          exact hk id' d' h
      obtain ⟨hret, hguard, hold, hall⟩ := ih hnodup hfresh hr hguards
      refine ⟨hspec.retreats.trans hret, hguard, fun id' d' h => ?_, forall_mem_cons.mpr ⟨?_, hall⟩⟩
      · apply hold
        have hid' : id' ≠ id := by
          intro heq
          have hmem : id ∈ failed := by
            rw [← heq, ← AList.lookup_isSome, h]
            rfl
          exact hapart _ mem_cons_self hmem
        rw [AList.lookup_insert_ne hid']
        exact h
      · exact .inl ⟨_, hold _ _ (AList.lookup_insert _), hspec.memory⟩

theorem reset_closes (t : Trace) : ∀ g ∈ ledger (t ++ [⟨.reset, true⟩]),
    g.key.isHandle = false := by
  intro g hg
  rw [ledger_concat] at hg
  simpa using (mem_filter.mp hg).2

theorem freed_handle (h : ∀ g ∈ ledger t, g.key.isHandle = false) (handle : Option Nat) :
    Freed t (handle.map .handle) := by
  intro g hg heq
  cases handle with
  | none => cases heq
  | some =>
    have hkey := h g hg
    rw [← Option.some.inj heq] at hkey
    cases hkey

/-- A mapping of the broker is dropped twice, the second time as it goes
out of scope. -/
theorem discard_teardown {m : Mapping} (h : Guarded t d) (hm : d.memory.view = m)
    (hfree : Freed t d.key) :
    Retreats X t ((m.teardown P t).1.2.teardown P (m.teardown P t).2).2 := by
  subst hm
  obtain ⟨hret, hmemory⟩ := mapping_teardown (X := X) P h (fun _ => hfree) rfl
  have hguard := h.advance hret.advances
  have hfree' := hfree.retreat hret
  apply hret.trans
  apply (teardown_retreats P _ fun ok => ?_).1
  rw [hmemory]
  exact hguard.fine (fun _ => hfree') _ ok

theorem discardEach_spec (hents : ∀ x ∈ entries, Guarded t x.2)
    (hcl : ∀ g ∈ ledger t, g.key.isHandle = false) : Retreats X t (discardEach P entries t).2 := by
  induction entries generalizing t with
  | nil => exact .refl t
  | cons entry rest ih =>
    obtain ⟨id, memory, iova, len, direction, handle⟩ := entry
    have hh : Guarded t ⟨memory, iova, len, direction, handle⟩ := hents _ mem_cons_self
    have hstep : ∀ {t' : Trace}, Retreats X t t' → Retreats X t (discardEach P rest t').2 := by
      intro t' ht
      apply ht.trans
      apply ih
      · exact fun x hx => (hents x (mem_cons_of_mem _ hx)).advance ht.advances
      · obtain ⟨ext, -, -, hgr⟩ := ht
        exact fun g hg => hcl g (hgr g hg)
    cases memory with
    | ioas => exact hstep (dmaMapping_teardown P hh rfl).1
    | brokerCoherent m | brokerStreaming m =>
      exact hstep (discard_teardown P hh rfl (freed_handle hcl handle))

/-- The drop of what is left in quarantine. Arenas that the broker still
holds go all the same. -/
theorem dropQuarantined_spec (hents : ∀ x ∈ entries, Guarded t x.2)
    (hX : ∀ x ∈ entries, ∀ m, x.2.memory = .brokerStreaming m → x.2.brokerHandle ≠ none →
      X m.memory) : Retreats X t (dropQuarantined P entries t).2 := by
  induction entries generalizing t with
  | nil => exact .refl t
  | cons entry rest ih =>
    obtain ⟨id, memory, iova, len, direction, handle⟩ := entry
    have hh : Guarded t ⟨memory, iova, len, direction, handle⟩ := hents _ mem_cons_self
    have hdrop : Retreats X t (memory.drop P t).2 := by
      cases memory with
      | ioas => exact (dmaMapping_teardown P hh rfl).1
      | brokerCoherent => exact (mapping_teardown P hh (fun hne => absurd rfl hne) rfl).1
      | brokerStreaming m =>
        cases handle with
        | none => exact (mapping_teardown P hh (fun _ => freed_none) rfl).1
        | some handle =>
          have hheld := hX _ mem_cons_self m rfl (Option.some_ne_none handle)
          exact (teardown_retreats P m fun _ => .inl hheld).1
    refine hdrop.trans (ih ?_ fun x hx => hX x (mem_cons_of_mem _ hx))
    exact fun x hx => (hents x (mem_cons_of_mem _ hx)).advance hdrop.advances

end

end

end Drv.Vfio
