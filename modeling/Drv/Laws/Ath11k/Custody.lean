import Drv.Laws.Ath11k.Operations

/-!
# Who owns a queue

A queue is `exposed` while the device may use it and `retired` once its
invalidation was confirmed. `Custody` says how queues pass between the
two, whatever list they are in; from it, no peer and TID has two exposed
queues, no memory has two owners, and a queue is never published for a
peer and TID whose old queue is still held (`queue_ownership`).

Whether a confirmed queue may be dropped is left to `Release`.
-/

namespace Drv.Ath11k

open Relation (ReflTransGen)
open List PeerRxTids

variable {P : Platform}

/-- A queue and its memory. -/
structure Owner where
  key : PeerKey
  tid : UInt8
  dma : Nat
  deriving DecidableEq

namespace Owner

def slot (o : Owner) : PeerKey × UInt8 := (o.key, o.tid)

def of (key : PeerKey) (tid : ReoTid) : Owner := ⟨key, tid.tid, tid.dma⟩

end Owner

open Owner

namespace PeerRxTids

/-- The queues that the device may use. -/
def exposed (s : PeerRxTids) : List Owner :=
  s.tids.map (fun e => .of e.key e.tid) ++ s.pendingDelete.map (fun e => .of e.key e.tid) ++
    s.uncertainSetup.map (fun e => .of e.key e.tid) ++
    s.failedDelete.map (fun e => .of e.key e.tid)

/-- The queues whose invalidation was confirmed. -/
def retired (s : PeerRxTids) : List Owner :=
  s.cachedDelete.map (fun e => .of e.key e.tid) ++ s.pendingFlush.map (fun e => .of e.key e.tid)

/-- The memory of all queues. -/
def segments (s : PeerRxTids) : List Nat := (s.exposed ++ s.retired).map dma

theorem slots_eq (s : PeerRxTids) : s.slots = s.exposed.map slot := by
  simp [slots, exposed, slot, of, Function.comp_def]

end PeerRxTids

/-- How queues pass on. -/
inductive Custody (s s' : PeerRxTids) : Prop
  | kept : s'.exposed.Perm s.exposed → s'.retired.Perm s.retired → Custody s s'
  | acquired (o : Owner) : o.dma = s.trace.length → s.trace.length < s'.trace.length →
    o.slot ∉ s.slots → o.key ∈ s.peers → s'.exposed.Perm (o :: s.exposed) →
    s'.retired.Perm s.retired → Custody s s'
  | invalidated (o : Owner) : (o :: s'.exposed).Perm s.exposed →
    s'.retired.Perm (o :: s.retired) → Custody s s'
  | dropped (o : Owner) : .drop o.dma ∈ s'.trace → s'.exposed.Perm s.exposed →
    (o :: s'.retired).Perm s.retired → Custody s s'

section
variable {s s' : PeerRxTids}

theorem exposed_setBaWindowSize (key : PeerKey) (tid : UInt8) (baWindowSize : UInt32)
    (tids : List ActiveTid) :
    (setBaWindowSize key tid baWindowSize tids).map (fun e => of e.key e.tid) =
      tids.map fun e => of e.key e.tid :=
  map_modifyFirst fun _ => rfl

theorem Admission.custody (h : Admission s s') : Custody s s' := by
  cases h with
  | refused | unsent | unallocated | scrapped | withdrawn => exact .kept (.refl _) (.refl _)
  | updated =>
    refine .kept ?_ (.refl _)
    simp only [exposed, exposed_setBaWindowSize]
    exact .refl _
  | @created key tid _ _ hfree hpeer _ hdma _ _ | @doubted key tid _ _ hfree hpeer _ hdma _ _ =>
    refine .acquired (.of key tid) hdma (by simp [logged, written]) hfree hpeer ?_ (.refl _)
    rw [perm_iff_count]
    intro o
    simp only [exposed, logged, map_append, map_singleton, count_append, count_cons, count_nil]
    omega

theorem Deletion.custody {key : PeerKey} {tid : UInt8} (h : Deletion key tid s s') :
    Custody s s' := by
  cases h with
  | absent => exact .kept (.refl _) (.refl _)
  | sent _ _ hp _ | stranded _ _ hp _ =>
    refine .kept ?_ (.refl _)
    rw [perm_iff_count]
    intro o
    have hcnt := (hp.map fun e => .of e.key e.tid).count_eq o
    simp only [PeerRxTids.exposed, PeerRxTids.sent, map_append, map_cons, map_nil,
      count_append, count_cons, count_nil] at hcnt ⊢
    omega

theorem SameQueues.exposed (h : SameQueues s s') : s'.exposed = s.exposed := by
  simp only [PeerRxTids.exposed, h.tids, h.pendingDelete, h.uncertainSetup, h.failedDelete]

theorem SameQueues.retired (h : SameQueues s s') : s'.retired = s.retired := by
  simp only [PeerRxTids.retired, h.cachedDelete, h.pendingFlush]

theorem retire_trace (key : PeerKey) (s : PeerRxTids) : (retire key s).trace = s.trace :=
  (retire_sameQueues key s).trace

theorem Delivery.custody {status : ReoStatus} (h : Delivery status s s') : Custody s s' := by
  cases h with
  | ignored => exact .kept (.refl _) (.refl _)
  | @cached pending _ _ hp _ _ =>
    refine .invalidated (.of pending.key pending.tid) ?_ ?_
    · rw [perm_iff_count]
      intro o
      have hcnt := (hp.map fun e => .of e.key e.tid).count_eq o
      simp only [exposed, logged, map_cons, count_append, count_cons] at hcnt ⊢
      omega
    · rw [retired, map_append, append_assoc]
      exact perm_middle
  | denied hp =>
    refine .kept ?_ (.refl _)
    rw [perm_iff_count]
    intro o
    have hcnt := (hp.map fun e => .of e.key e.tid).count_eq o
    simp only [exposed, logged, map_append, map_cons,
      map_nil, count_append, count_cons, count_nil] at hcnt ⊢
    omega
  | @released pending _ _ hp _ =>
    refine .dropped (.of pending.key pending.tid) ?_ ?_ ?_
    · rw [retire_trace]
      simp [logged, of]
    · rw [(retire_sameQueues ..).exposed]
      exact .refl _
    · rw [(retire_sameQueues ..).retired]
      exact perm_middle.symm.trans ((hp.map fun e => of e.key e.tid).append_left _)

theorem Flush.custody (h : Flush s s') : Custody s s' := by
  cases h with
  | sent hp =>
    refine .kept (.refl _) ?_
    rw [perm_iff_count]
    intro o
    have hcnt := (hp.map fun e => .of e.key e.tid).count_eq o
    simp only [retired, map_append, map_cons, map_nil,
      count_append, count_cons, count_nil] at hcnt ⊢
    omega
  | @unsent cached _ _ _ _ _ hp =>
    refine .dropped (.of cached.key cached.tid) ?_ ?_ ?_
    · rw [retire_trace]
      simp [logged, of]
    · rw [(retire_sameQueues ..).exposed]
      exact .refl _
    · rw [(retire_sameQueues ..).retired]
      exact (hp.map fun e => of e.key e.tid).append_right _

theorem Move.custody (h : Move s s') : Custody s s' := by
  cases h with
  | deletion h | flush h => exact h.custody
  | command h =>
    cases h
    exact .kept (.refl _) (.refl _)
  | same h => exact .kept (.of_eq h.exposed) (.of_eq h.retired)

end

/-! ## One exposed queue for a peer and TID -/

variable {s s' : PeerRxTids}

theorem Custody.slots_nodup (h : Custody s s') (hs : s.slots.Nodup) : s'.slots.Nodup := by
  rw [slots_eq] at hs ⊢
  cases h with
  | kept hexp | dropped o _ hexp => exact ((hexp.map _).nodup_iff).mpr hs
  | acquired o _ _ hfree _ hexp =>
    rw [slots_eq] at hfree
    exact ((hexp.map _).nodup_iff).mpr (nodup_cons.mpr ⟨hfree, hs⟩)
  | invalidated o hexp => exact (((hexp.map slot).nodup_iff).mpr hs).of_cons

/-! ## One owner for a segment -/

/-- No memory has two owners, and all of it was allocated before. -/
def PeerRxTids.Owned (s : PeerRxTids) : Prop :=
  s.segments.Nodup ∧ ∀ dma ∈ s.segments, dma < s.trace.length

/-- Who holds memory before and after: what is no longer held was dropped,
and what is new was allocated meanwhile. -/
theorem Custody.owners (h : Custody s s') : ∃ lost gained : List Owner,
    (lost ++ (s'.exposed ++ s'.retired)).Perm (gained ++ (s.exposed ++ s.retired)) ∧
    (∀ o ∈ lost, .drop o.dma ∈ s'.trace) ∧
    (gained = [] ∨ ∃ o, gained = [o] ∧ o.dma = s.trace.length ∧
      s.trace.length < s'.trace.length) := by
  cases h with
  | kept hexp hret => exact ⟨[], [], hexp.append hret, by simp, .inl rfl⟩
  | acquired o hdma hgrows _ _ hexp hret =>
    exact ⟨[], [o], hexp.append hret, by simp, .inr ⟨o, rfl, hdma, hgrows⟩⟩
  | invalidated o hexp hret =>
    refine ⟨[], [], ?_, by simp, .inl rfl⟩
    calc s'.exposed ++ s'.retired
        _ |>.Perm (s'.exposed ++ o :: s.retired) := hret.append_left _
        _ |>.Perm (o :: s'.exposed ++ s.retired) := perm_middle
        _ |>.Perm (s.exposed ++ s.retired) := hexp.append_right _
  | dropped o hd hexp hret =>
    have hp : (o :: (s'.exposed ++ s'.retired)).Perm (s.exposed ++ s.retired) :=
      perm_middle.symm.trans (hexp.append hret)
    exact ⟨[o], [], hp, by simpa using hd, .inl rfl⟩

theorem Custody.owned (h : Custody s s')
    (hle : s.trace.length ≤ s'.trace.length) (hs : s.Owned) : s'.Owned := by
  obtain ⟨hnodup, hlt⟩ := hs
  obtain ⟨lost, gained, hp, -, hgained⟩ := h.owners
  have hsegs : (lost.map dma ++ s'.segments).Perm (gained.map dma ++ s.segments) := by
    simpa only [segments, map_append] using hp.map dma
  have hold : ∀ dma ∈ s.segments, dma < s'.trace.length :=
    fun dma hmem => Nat.lt_of_lt_of_le (hlt dma hmem) hle
  have hall : (gained.map dma ++ s.segments).Nodup ∧
      ∀ dma ∈ gained.map Owner.dma ++ s.segments, dma < s'.trace.length := by
    rcases hgained with rfl | ⟨o, rfl, hdma, hgrows⟩
    · exact ⟨hnodup, hold⟩
    · refine ⟨nodup_cons.mpr ⟨fun hmem => ?_, hnodup⟩, forall_mem_cons.mpr ⟨by omega, hold⟩⟩
      have := hlt _ hmem
      omega
  exact ⟨(nodup_append.mp (hsegs.nodup_iff.mpr hall.1)).2.1,
    fun dma hmem => hall.2 dma (hsegs.subset (mem_append_right _ hmem))⟩

theorem Custody.kept_or_dropped (h : Custody s s') {dma : Nat}
    (hmem : dma ∈ s.segments) : dma ∈ s'.segments ∨ .drop dma ∈ s'.trace := by
  obtain ⟨o, ho, rfl⟩ := mem_map.mp hmem
  obtain ⟨lost, gained, hp, hlost, -⟩ := h.owners
  rcases mem_append.mp (hp.symm.subset (mem_append_right _ ho)) with hl | hk
  · exact .inr (hlost o hl)
  · exact .inl (mem_map_of_mem hk)

/-! ## Publications -/

/-- What was logged between two states, with a property of each event. -/
def Logs (Q : Event → Prop) (s s' : PeerRxTids) : Prop :=
  ∃ events, s'.trace = s.trace ++ events ∧ ∀ e ∈ events, Q e

namespace Logs

variable {Q : Event → Prop} {s s' s'' : PeerRxTids}

theorem refl (s : PeerRxTids) : Logs Q s s := ⟨[], by simp, by simp⟩

theorem trans (h : Logs Q s s') (h' : Logs Q s' s'') : Logs Q s s'' := by
  obtain ⟨events, htr, hevs⟩ := h
  obtain ⟨events', htr', hevs'⟩ := h'
  refine ⟨events ++ events', by rw [htr', htr, append_assoc], ?_⟩
  exact forall_mem_append.mpr ⟨hevs, hevs'⟩

end Logs

/-- Not a publication of a queue to the firmware. -/
def Event.Private : Event → Prop
  | sendReorderSetup .. => False
  | _ => True

variable {events : Trace}

theorem Sent.private {c : ReoCommand} {result : Except DpError UInt16} (h : Sent c events result) :
    ∀ e ∈ events, e.Private := by
  cases h <;> simp [Event.Private]

theorem Burst.private {segment : Nat} {n m : UInt16} (h : Burst segment n events m) :
    ∀ e ∈ events, e.Private := by
  induction h with
  | nil => simp
  | cons _ hsent _ ih => exact forall_mem_append.mpr ⟨hsent.private, ih⟩

theorem Delivery.logs {status : ReoStatus} (h : Delivery status s s') :
    Logs Event.Private s s' := by
  cases h with
  | ignored | cached | denied => exact ⟨_, rfl, by simp [Event.Private]⟩
  | released => exact ⟨_, retire_trace .., by simp [Event.Private]⟩

theorem Move.logs (h : Move s s') : Logs Event.Private s s' := by
  cases h with
  | deletion h =>
    cases h with
    | absent => exact .refl s
    | sent _ _ _ hsent | stranded _ _ _ hsent => exact ⟨_, rfl, hsent.private⟩
  | flush h =>
    cases h with
    | sent _ hburst _ hsent =>
      exact ⟨_, rfl, forall_mem_append.mpr ⟨hburst.private, hsent.private⟩⟩
    | unsent _ hburst _ hsent =>
      refine ⟨_, retire_trace .., forall_mem_concat ?_ trivial⟩
      exact forall_mem_append.mpr ⟨hburst.private, hsent.private⟩
  | command h =>
    cases h with
    | sent _ _ hsent => exact ⟨_, rfl, hsent.private⟩
  | same h => exact ⟨[], by rw [h.trace, append_nil], by simp⟩

namespace PeerRxTids

/-- The peers and TIDs whose old queue is held until the device lets go. -/
def heldSlots (s : PeerRxTids) : List (PeerKey × UInt8) :=
  s.pendingDelete.map (fun e => (e.key, e.tid.tid)) ++
    s.uncertainSetup.map (fun e => (e.key, e.tid.tid)) ++
    s.failedDelete.map (fun e => (e.key, e.tid.tid))

theorem slots_eq_append (s : PeerRxTids) :
    s.slots = s.tids.map (fun e => (e.key, e.tid.tid)) ++ s.heldSlots := by
  simp [slots, heldSlots]

end PeerRxTids

/-- A publication only of a queue whose peer and TID has no other. -/
def Event.Publishes (s : PeerRxTids) : Event → Prop
  | sendReorderSetup request .. => (request.key, request.tid) ∉ s.heldSlots
  | _ => True

theorem Event.Private.publishes {e : Event} (h : e.Private) : e.Publishes s := by
  cases e <;> first | exact trivial | exact h.elim

theorem Offered.publishes {request : PeerReorderQueueSetup} {nonVisible : Bool}
    {result : Except DpError Unit} (h : Offered request nonVisible events result)
    (hfree : (request.key, request.tid) ∉ s.heldSlots) : ∀ e ∈ events, e.Publishes s := by
  cases h <;> simp [Event.Publishes, hfree]

theorem Admission.logs (h : Admission s s') (hs : s.slots.Nodup) :
    Logs (Event.Publishes s) s s' := by
  have hheld : ∀ {slot : PeerKey × UInt8}, slot ∉ s.slots → slot ∉ s.heldSlots := by
    intro slot hfree hmem
    rw [slots_eq_append] at hfree
    exact hfree (mem_append_right _ hmem)
  have hwritten : ∀ dma, ∀ e ∈ written dma, e.Publishes s := by simp [written, Event.Publishes]
  cases h with
  | refused => exact .refl s
  | unsent _ _ hsent => exact ⟨_, rfl, fun e he => (hsent.private e he).publishes⟩
  | @updated active _ _ _ _ _ _ _ hact _ hsent hoff =>
    refine ⟨_, rfl, ?_⟩
    have hfree : (active.key, active.tid.tid) ∉ s.heldSlots := by
      rw [slots_eq_append] at hs
      intro hmem
      obtain ⟨-, -, hdisj⟩ := nodup_append.mp hs
      exact hdisj _ (mem_map_of_mem hact) _ hmem rfl
    refine forall_mem_append.mpr ⟨?_, hoff.publishes hfree⟩
    exact fun e he => (hsent.private e he).publishes
  | unallocated => exact ⟨_, rfl, by simp [Event.Publishes]⟩
  | scrapped hevs =>
    refine ⟨_, rfl, ?_⟩
    rcases hevs with rfl | rfl <;> simp [Event.Publishes]
  | created hfree _ _ _ _ hoff | doubted hfree _ _ _ _ hoff =>
    exact ⟨_, rfl, forall_mem_append.mpr ⟨hwritten _, hoff.publishes (hheld hfree)⟩⟩
  | withdrawn hfree _ hoff =>
    refine ⟨_, rfl, forall_mem_concat ?_ trivial⟩
    exact forall_mem_append.mpr ⟨hwritten _, hoff.publishes (hheld hfree)⟩

theorem exec_logs (op : Op) (hs : s.slots.Nodup) :
    Logs (Event.Publishes s) s (op.exec P s).state := by
  rcases exec_cases P op s with hadm | ⟨s', hdlvs, hmoves⟩
  · exact hadm.logs hs
  · have hmid := moves_keep (I := Logs Event.Private s)
      (fun _ _ ⟨_, _, h⟩ hlogs => hlogs.trans h.logs) hdlvs (.refl s)
    obtain ⟨events, htr, hevs⟩ := moves_keep (fun _ _ h hlogs => hlogs.trans h.logs) hmoves hmid
    exact ⟨events, htr, fun e he => (hevs e he).publishes⟩

theorem Logs.length_le {Q : Event → Prop} (h : Logs Q s s') : s.trace.length ≤ s'.trace.length := by
  obtain ⟨events, htr, -⟩ := h
  rw [htr, length_append]
  exact Nat.le_add_right ..

theorem exec_owned (op : Op) (hsl : s.slots.Nodup) (hs : s.Owned) : (op.exec P s).state.Owned := by
  rcases exec_cases P op s with hadm | ⟨s', hdlvs, hmoves⟩
  · exact hadm.custody.owned (hadm.logs hsl).length_le hs
  · have hmid := moves_keep (fun _ _ ⟨_, _, h⟩ => h.custody.owned h.logs.length_le) hdlvs hs
    exact moves_keep (fun _ _ h => h.custody.owned h.logs.length_le) hmoves hmid

theorem exec_slots_nodup (op : Op) (hs : s.slots.Nodup) : (op.exec P s).state.slots.Nodup :=
  exec_keeps (fun _ _ h => h.custody.slots_nodup) (fun _ _ _ h => h.custody.slots_nodup)
    (fun _ _ h => h.custody.slots_nodup) op hs

/-- In every run: a peer and TID has at most one queue in the lists of
those the device may use, and no operation publishes a queue for a peer
and TID whose old one is held. -/
theorem queue_ownership (P : Platform) (ops : List Op) :
    (new.run P ops).2.slots.Nodup ∧
    ∀ step ∈ (new.run P ops).1,
      ∃ events, step.after.trace = step.before.trace ++ events ∧
        ∀ request nonVisible error, .sendReorderSetup request nonVisible error ∈ events →
          (request.key, request.tid) ∉ step.before.heldSlots := by
  obtain ⟨hsteps, hlast⟩ := run_induct (I := fun s => s.slots.Nodup)
    (fun op _ => exec_slots_nodup op) ops (s := .new) nodup_nil
  refine ⟨hlast, ?_⟩
  intro step hstep
  obtain ⟨hpre, -, hpost⟩ := hsteps step hstep
  obtain ⟨events, htr, hevs⟩ := exec_logs step.op hpre
  rw [hpost]
  exact ⟨events, htr, fun request nonVisible error he => hevs _ he⟩

end Drv.Ath11k
