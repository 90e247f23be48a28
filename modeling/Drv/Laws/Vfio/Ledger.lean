import Drv.Laws.Vfio.Handles

/-!
# What the device may access

The grants in force after a trace, read off from the requests that were
answered well: memory mapped in the IOAS or given to the broker is open
to the device until an unmap, a free or a reset that covers it succeeds.
Grants are known by the key under which they are taken back.

`Fine` is the rule for giving memory back to the process: only when no
grant on it is left. A view of broker memory is outside the rule, since
the broker frees only what is no longer viewed. Requests that keep the
rule and open nothing to the device make the trace retreat (`Retreats`).

That an answer is true, and that the hardware keeps to the mappings, is
not proved.
-/

namespace Drv.Vfio

open List

/-- What memory is made of: pages of the process, known by their mapping,
or memory of the broker, known by its offset. -/
inductive Storage where
  | process (memory : Nat)
  | device (offset : Nat)

/-- What access is taken back by. -/
inductive Key where
  | iova (iova length : Nat)
  | handle (handle : Nat)
  deriving DecidableEq

def Key.isHandle : Key → Bool
  | handle _ => true
  | iova .. => false

structure Grant where
  key : Key
  storage : Storage

/-- The grants after one more request. -/
def enter (grants : List Grant) : Event → List Grant
  | ⟨.ioasMap _ length userVa _ _, some given⟩ => grants ++ [⟨.iova given length, .process userVa⟩]
  | ⟨.ioasUnmap iova length, some unmapped⟩ =>
    if unmapped = length then grants.filter (·.key ≠ .iova iova length) else grants
  | ⟨.broker command, some reply⟩ =>
    match command.operation with
    | .allocCoherent => grants ++ [⟨.handle reply.handle, .device reply.mmapOffset⟩]
    | .mapStreaming => grants ++ [⟨.handle reply.handle, .process command.userAddress⟩]
    | .free | .unmap => grants.filter (·.key ≠ .handle command.handle)
    | .syncCpu | .syncDevice => grants
  | ⟨.reset, true⟩ => grants.filter (! ·.key.isHandle)
  | _ => grants

/-- The grants in force. -/
def ledger (t : Trace) : List Grant := t.foldl enter []

theorem ledger_concat (t : Trace) (e : Event) : ledger (t ++ [e]) = enter (ledger t) e := by
  rw [ledger, foldl_append]
  rfl

/-- What is behind a mapping; it is known by the place of its `mmap`. -/
def storage (t : Trace) (memory : Nat) : Storage :=
  match t[memory]? with
  | some ⟨.mmap (.device offset) _, _⟩ => .device offset
  | _ => .process memory

/-- The device may access the memory behind a mapping. -/
def Visible (t : Trace) (memory : Nat) : Prop := ∃ g ∈ ledger t, g.storage = storage t memory

/-- Memory goes back to the process only when the device may not access
it. Views of broker memory are outside the rule, and so is `X`. -/
def Fine (X : Nat → Prop) (t : Trace) (e : Event) : Prop :=
  match e.call with
  | .munmap memory _ =>
    X memory ∨ (∃ offset, storage t memory = .device offset) ∨ ¬ Visible t memory
  | _ => True

/-- Every request of an extension keeps the rule. -/
def AllFine (X : Nat → Prop) (t ext : Trace) : Prop :=
  ∀ pre e post, ext = pre ++ e :: post → Fine X (t ++ pre) e

section
variable {X : Nat → Prop} {t t' t'' : Trace} {e : Event}

theorem allFine_singleton (h : Fine X t e) : AllFine X t [e] := by
  intro pre e' post heq
  cases pre with
  | nil =>
    cases heq
    rw [append_nil]
    exact h
  | cons => simp at heq

theorem allFine_append {ext ext' : Trace} (h : AllFine X t ext) (h' : AllFine X (t ++ ext) ext') :
    AllFine X t (ext ++ ext') := by
  intro pre e post heq
  rcases append_eq_append_iff.mp heq with ⟨mid, hpre, hpost⟩ | ⟨mid, hext, hpost⟩
  · rw [hpre, ← append_assoc]
    exact h' mid e post hpost
  · cases mid with
    | nil =>
      rw [append_nil] at hext
      have := h' [] e post hpost.symm
      rw [append_nil, hext] at this
      exact this
    | cons x mid =>
      cases hpost
      exact h pre e mid hext

/-! ## Retreats -/

/-- The trace grows by requests that keep the rule and open nothing. -/
def Retreats (X : Nat → Prop) (t t' : Trace) : Prop :=
  ∃ ext, t' = t ++ ext ∧ AllFine X t ext ∧ ∀ g ∈ ledger t', g ∈ ledger t

theorem Retreats.refl (t : Trace) : Retreats X t t :=
  ⟨[], (append_nil t).symm, by simp [AllFine], fun _ h => h⟩

theorem Retreats.trans (h : Retreats X t t') (h' : Retreats X t' t'') : Retreats X t t'' := by
  obtain ⟨ext, rfl, hfine, hgr⟩ := h
  obtain ⟨ext', rfl, hfine', hgr'⟩ := h'
  refine ⟨ext ++ ext', append_assoc .., allFine_append hfine hfine', ?_⟩
  exact fun g hg => hgr g (hgr' g hg)

/-- A grant is only taken, never opened, by requests other than the three
that open one. -/
def Syscall.Closing : Syscall → Prop
  | ioasMap .. => False
  | broker command => command.operation ≠ .allocCoherent ∧ command.operation ≠ .mapStreaming
  | _ => True

theorem mem_of_mem_enter (h : e.call.Closing) {grants : List Grant} {g : Grant}
    (hg : g ∈ enter grants e) : g ∈ grants := by
  unfold enter at hg
  split at hg
  · exact h.elim
  · split at hg
    · exact (mem_filter.mp hg).1
    · exact hg
  · split at hg
    next hop => exact absurd hop h.1
    next hop => exact absurd hop h.2
    next => exact (mem_filter.mp hg).1
    next => exact (mem_filter.mp hg).1
    next => exact hg
    next => exact hg
  · exact (mem_filter.mp hg).1
  · exact hg

theorem retreats_concat (h : Fine X t e)
    (hgr : ∀ g ∈ enter (ledger t) e, g ∈ ledger t) : Retreats X t (t ++ [e]) := by
  refine ⟨[e], rfl, allFine_singleton h, fun g hg => ?_⟩
  rw [ledger_concat] at hg
  exact hgr g hg

theorem retreats_ask (P : Platform) {c : Syscall} (hc : c.Closing)
    (h : Fine X t ⟨c, P.answer t c⟩) : Retreats X t (ask P c t).2 :=
  retreats_concat h fun _ hg => mem_of_mem_enter hc hg

theorem Syscall.Inert.closing {c : Syscall} (h : c.Inert) : c.Closing := by
  cases c with
  | broker =>
    rcases h with h | h
    · exact ⟨by simp [h], by simp [h]⟩
    · exact ⟨by simp [h], by simp [h]⟩
  | ioasMap => exact h.elim
  | _ => exact trivial

theorem Syscall.Inert.fine (h : e.call.Inert) : Fine X t e := by
  unfold Fine
  split
  next heq =>
    rw [heq] at h
    exact h.elim
  next => exact trivial

theorem retreats_each {ext : Trace} (h : ∀ e ∈ ext, e.call.Closing ∧ ∀ t, Fine X t e) :
    Retreats X t (t ++ ext) := by
  induction ext generalizing t with
  | nil =>
    rw [append_nil]
    exact .refl t
  | cons e ext ih =>
    obtain ⟨⟨hclosing, hfine⟩, hext⟩ := forall_mem_cons.mp h
    have hr := ih (t := t ++ [e]) hext
    rw [append_assoc] at hr
    exact (retreats_concat (hfine t) fun _ => mem_of_mem_enter hclosing).trans hr

theorem retreats_of_inert (h : Extends Syscall.Inert t t') : Retreats X t t' := by
  obtain ⟨ext, rfl, hext⟩ := h
  exact retreats_each fun e he => ⟨(hext e he).closing, fun _ => (hext e he).fine⟩

end

end Drv.Vfio
