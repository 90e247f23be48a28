import Drv.Base.History
import Drv.Laws.Ath11k.Numbers

/-!
# The owner of a status

The code knows a status by its number alone. A number identifies the
command it belongs to as long as every status that is awaited was asked
for fewer than 65535 attempts ago, counting those that the next operation
may make (`numbers_identify_owner`); a status that stays out longer meets
a reused number (`command_number_reused`). The bound is a hypothesis on the
run: how soon the device answers is not in the model.
-/

namespace Drv.Ath11k

open Relation (ReflTransGen)
open List PeerRxTids PendingTid

variable {P : Platform}

/-! ## Commands whose status is awaited -/

namespace PendingTid

/-- The command that a queue waiting for its invalidation was sent. -/
def invalidation (e : PendingTid) : ReoCommand :=
  ⟨e.commandNumber, .updateRxQueue, e.tid.dma, 0, deleteParams⟩

/-- The command that a queue waiting for its flush was sent. -/
def baseFlush (e : PendingTid) : ReoCommand :=
  ⟨e.commandNumber, .flushCache, e.tid.dma, 0, baseFlushParams⟩

end PendingTid

/-- The commands whose status is awaited. -/
def PeerRxTids.outstanding (s : PeerRxTids) : List ReoCommand :=
  s.pendingDelete.map invalidation ++ s.pendingFlush.map baseFlush

/-- The trace goes on, and what is awaited was awaited before or has been
sent since. -/
structure Carries (s s' : PeerRxTids) : Prop where
  goesOn : s.trace <+: s'.trace
  outstanding : ∀ c ∈ s'.outstanding, c ∈ s.outstanding ∨
    ∃ j, s.trace.length ≤ j ∧ s'.trace[j]? = some (.publish c none)

variable {c : ReoCommand} {n : UInt16} {events : Trace}

namespace Carries

variable {s s' s'' : PeerRxTids}

theorem of_subset (htr : s'.trace = s.trace ++ events) (h : s'.outstanding ⊆ s.outstanding) :
    Carries s s' where
  goesOn := ⟨events, htr.symm⟩
  outstanding _ hc := .inl (h hc)

theorem of_sent (before : Trace) (htr : s'.trace = s.trace ++ (before ++ events))
    (hsent : Sent c events (.ok n)) (h : s'.outstanding ⊆ c :: s.outstanding) : Carries s s' where
  goesOn := ⟨before ++ events, htr.symm⟩
  outstanding c' hc' := by
    rcases mem_cons.mp (h hc') with rfl | hold
    · refine .inr ⟨(s.trace ++ before).length + 1, ?_, ?_⟩
      · rw [length_append]
        omega
      · cases hsent
        rw [htr, ← append_assoc, getElem?_append_right (Nat.le_add_right ..),
          Nat.add_sub_cancel_left]
        rfl
    · exact .inl hold

theorem refl (s : PeerRxTids) : Carries s s := of_subset (append_nil _).symm (fun _ => id)

theorem trans (h : Carries s s') (h' : Carries s' s'') : Carries s s'' where
  goesOn := h.goesOn.trans h'.goesOn
  outstanding c hc := by
    rcases h'.outstanding c hc with hc | ⟨j, hj, hget⟩
    · rcases h.outstanding c hc with hc | ⟨j, hj, hget⟩
      · exact .inl hc
      · exact .inr ⟨j, hj, getElem?_of_isPrefix h'.goesOn hget⟩
    · exact .inr ⟨j, Nat.le_trans h.goesOn.length_le hj, hget⟩

end Carries

variable {status : ReoStatus} {key : PeerKey}

section
variable {s s' : PeerRxTids}

theorem SameQueues.outstanding (h : SameQueues s s') : s'.outstanding = s.outstanding := by
  rw [PeerRxTids.outstanding, h.pendingDelete, h.pendingFlush]
  rfl

theorem SameQueues.carries (h : SameQueues s s') : Carries s s' :=
  .of_subset (h.trace.trans (append_nil _).symm) (by rw [h.outstanding]; exact fun _ => id)

theorem Admission.carries (h : Admission s s') : Carries s s' := by
  cases h with
  | refused => exact .refl s
  | unsent | updated | unallocated | scrapped | created | doubted | withdrawn =>
    exact .of_subset rfl (fun _ => id)

theorem subset_of_cons_perm {α β : Type} {a : α} {rest l : List α} (h : (a :: rest).Perm l)
    (f : α → β) : rest.map f ⊆ l.map f :=
  map_subset f (Subset.trans (subset_cons_self a rest) h.subset)

theorem append_subset_append {α : Type} {a a' b b' : List α} (ha : a ⊆ a') (hb : b ⊆ b') :
    a ++ b ⊆ a' ++ b' :=
  append_subset.mpr ⟨subset_append_of_subset_left _ ha, subset_append_of_subset_right _ hb⟩

theorem Delivery.outstanding_subset (h : Delivery status s s') :
    s'.outstanding ⊆ s.outstanding := by
  cases h with
  | ignored => exact fun _ => id
  | cached hp | denied hp => exact append_subset_append (subset_of_cons_perm hp _) (fun _ => id)
  | released _ hp =>
    rw [(retire_sameQueues ..).outstanding]
    exact append_subset_append (fun _ => id) (subset_of_cons_perm hp _)

theorem Delivery.carries (h : Delivery status s s') : Carries s s' := by
  obtain ⟨events, htr, -⟩ := h.logs
  exact .of_subset htr h.outstanding_subset

theorem Deletion.carries {tid : UInt8} (h : Deletion key tid s s') : Carries s s' := by
  cases h with
  | absent => exact .refl s
  | sent _ _ _ hsent =>
    apply Carries.of_sent [] rfl hsent
    cases hsent
    rw [outstanding, map_append, append_assoc]
    exact perm_middle.subset
  | stranded => exact .of_subset rfl (fun _ => id)

theorem Flush.carries (h : Flush s s') : Carries s s' := by
  cases h with
  | sent _ _ _ hsent =>
    apply Carries.of_sent _ rfl hsent
    cases hsent
    rw [outstanding, map_append, ← append_assoc]
    exact (perm_append_singleton ..).subset
  | unsent =>
    apply Carries.trans _ (retire_sameQueues ..).carries
    exact .of_subset rfl (fun _ => id)

theorem Move.carries (h : Move s s') : Carries s s' := by
  cases h with
  | deletion h | flush h | same h => exact h.carries
  | command h =>
    cases h
    exact .of_subset rfl (fun _ => id)

theorem exec_carries (op : Op) (s : PeerRxTids) : Carries s (op.exec P s).state :=
  exec_keeps (fun _ _ h hs => hs.trans h.carries)
    (fun _ _ _ h hs => hs.trans h.carries) (fun _ _ h hs => hs.trans h.carries) op (.refl s)

end

/-! ## How many commands an operation can send -/

/-- The commands that flush a queue. -/
def ReoTid.flushes (tid : ReoTid) : Nat := tid.size / 128 - 1 + 1

namespace PeerRxTids

/-- The commands that flush everything that can be flushed now. -/
def flushes (s : PeerRxTids) : Nat :=
  ((s.cachedDelete.map fun e => e.tid.flushes) ++ s.pendingDelete.map fun e => e.tid.flushes).sum

end PeerRxTids

/-- The most commands that an operation tries to send from a state. -/
def Op.budget (s : PeerRxTids) : Op → Nat
  | rxAmpduStart .. | rxAmpduStop .. | peerRxTidSetup .. | peerRxTidDelete .. => 1
  | installPeerKey .. | peerRxTidCleanup .. => allTids.length
  | rxTidDelFunc .. | flushAged .. => s.flushes
  | _ => 0

section
variable {s s' : PeerRxTids}

theorem attempts_logged (h : ∀ e ∈ events, e.Plain) :
    attempts (s.logged events).trace = attempts s.trace := by
  rw [logged, attempts_append, attempts_plain h, Nat.add_zero]

theorem Admission.attempts_le (h : Admission s s') : attempts s'.trace ≤ attempts s.trace + 1 := by
  cases h with
  | refused => omega
  | unsent _ _ hsent => exact Nat.le_of_eq hsent.attempts_sent
  | updated _ _ hsent hoff =>
    rw [← sent_logged, attempts_logged hoff.plain]
    exact Nat.le_of_eq hsent.attempts_sent
  | unallocated =>
    rw [attempts_logged (by simp [Event.Plain])]
    omega
  | scrapped hevs =>
    rw [attempts_logged (by rcases hevs with rfl | rfl <;> simp [Event.Plain])]
    omega
  | created _ _ _ _ _ hoff | doubted _ _ _ _ _ hoff =>
    rw [attempts_logged (forall_mem_append.mpr ⟨written_plain _, hoff.plain⟩)]
    omega
  | withdrawn _ _ hoff =>
    have hplain := fun dma => forall_mem_append.mpr ⟨written_plain dma, hoff.plain⟩
    rw [attempts_logged (forall_mem_append.mpr ⟨hplain _, drop_plain _⟩)]
    omega

theorem Deletion.attempts_le {tid : UInt8} (h : Deletion key tid s s') :
    attempts s'.trace ≤ attempts s.trace + 1 := by
  cases h with
  | absent => omega
  | sent _ _ _ hsent | stranded _ _ _ hsent => exact Nat.le_of_eq hsent.attempts_sent

theorem Purge.attempts_le {tids : List UInt8} (h : Purge key tids s s') :
    attempts s'.trace ≤ attempts s.trace + tids.length := by
  induction h with
  | nil => omega
  | @cons tid rest s s' _ hdel _ ih =>
    have hfst := hdel.attempts_le
    have hgath : (s'.gathered key (some tid)).trace = s'.trace := rfl
    rw [hgath] at ih
    rw [length_cons]
    omega

theorem retire_flushes (key : PeerKey) (s : PeerRxTids) : (retire key s).flushes = s.flushes := by
  have hsame := retire_sameQueues key s
  rw [flushes, hsame.cachedDelete, hsame.pendingDelete]
  rfl

/-- What was sent, with what flushing can still send, is no more than before. -/
abbrev Spends (s s' : PeerRxTids) : Prop :=
  attempts s'.trace + s'.flushes ≤ attempts s.trace + s.flushes

theorem Delivery.spends (h : Delivery status s s') : Spends s s' := by
  unfold Spends
  have hplain : ∀ e ∈ [Event.consume status], e.Plain := by simp [Event.Plain]
  cases h with
  | ignored =>
    rw [attempts_logged hplain]
    exact Nat.le_refl _
  | cached hp | denied hp =>
    have hsum := (hp.map fun e => e.tid.flushes).sum_nat
    rw [attempts_logged hplain]
    simp only [flushes, logged, map_append, map_cons, map_nil, sum_append, sum_cons,
      sum_nil] at hsum ⊢
    omega
  | released =>
    rw [retire_trace, retire_flushes]
    rw [attempts_logged (by simp [Event.Plain])]
    exact Nat.le_refl _

theorem Flush.spends (h : Flush s s') : Spends s s' := by
  unfold Spends
  cases h with
  | sent hp _ hcnt hsent | unsent hp _ hcnt hsent =>
    have hsum := (hp.map fun e => e.tid.flushes).sum_nat
    have hone := hsent.attempts_eq
    have hd := fun dma => attempts_plain (drop_plain dma)
    simp only [retire_trace, retire_flushes]
    simp only [flushes, logged, map_cons, sum_append, sum_cons, attempts_append, hd,
      ReoTid.flushes] at hsum ⊢
    omega

theorem flushes_spend {s₀ : PeerRxTids} (h : ReflTransGen Flush s s') (hs : Spends s₀ s) :
    Spends s₀ s' :=
  moves_keep (fun _ _ h => h.spends.trans) h hs

end

/-- No operation tries to send more commands than its budget. -/
theorem exec_attempts (op : Op) (s : PeerRxTids) :
    attempts (op.exec P s).state.trace ≤ attempts s.trace + op.budget s := by
  -- where the queues are left alone, so is the trace
  have hsame : SameQueues s (op.exec P s).state →
      attempts (op.exec P s).state.trace ≤ attempts s.trace + op.budget s := by
    intro h
    rw [h.trace]
    exact Nat.le_add_right ..
  cases op with
  | registerPeerAfterFirmwareCreate => exact hsame (register_registration ..).sameQueues
  | registerPeerMap => exact hsame (registerPeerMap_mapping ..).sameQueues
  | unregisterPeerMap => exact hsame (unregisterPeerMap_unmapping ..).sameQueues
  | installPeerKey key pairwise keyIndex securityType =>
    obtain ⟨s', -, hcnt, hkey⟩ := installPeerKey_cases P key pairwise keyIndex securityType s
    rw [← hkey.sameQueues.trace] at hcnt
    exact hcnt
  | rxAmpduStart => exact (rxAmpduStart_admission ..).attempts_le
  | rxAmpduStop => exact (rxAmpduStop_admission ..).attempts_le
  | peerRxTidSetup => exact (peerRxTidSetup_admission ..).attempts_le
  | peerRxTidDelete => exact (peerRxTidDelete_deletion ..).attempts_le
  | peerRxTidCleanup key =>
    obtain ⟨s', hpurge, hst⟩ := peerRxTidCleanup_cases P key s
    have hcnt := hpurge.attempts_le
    rw [← retire_trace key s', ← hst] at hcnt
    exact hcnt
  | peerFragsFlush key | expireIncompleteFragments nowMs =>
    exact hsame ⟨rfl, rfl, rfl, rfl, rfl, rfl, rfl, rfl⟩
  | takePendingFragmentLinkReturns key =>
    exact hsame (takePendingFragmentLinkReturns_sameQueues key s)
  | rxFragHMpdu input nowMs => exact hsame (rxFragHMpdu_sameQueues input nowMs s)
  | rxTidDelFunc ring nowMs =>
    obtain ⟨s', hdlvs, hflus⟩ := rxTidDelFunc_cases P ring nowMs s
    have hspend : Spends s s' :=
      moves_keep (fun _ _ ⟨_, _, h⟩ => h.spends.trans) hdlvs (Nat.le_refl _)
    exact Nat.le_trans (Nat.le_add_right ..) (flushes_spend hflus hspend)
  | flushAged nowMs =>
    have hspend := flushes_spend (flushAged_flushes P nowMs s) (Nat.le_refl _)
    exact Nat.le_trans (Nat.le_add_right ..) hspend

/-! ## Numbers identify commands -/

/-- A command was published, and fewer attempts than make the counter meet
its number again have followed, with `k` to come. -/
def Recent (t : Trace) (c : ReoCommand) (k : Nat) : Prop :=
  ∃ j, t[j]? = some (.publish c none) ∧ attempts (t.drop j) + k < 65534

theorem attempts_take_le (t : Trace) {i j : Nat} (h : i ≤ j) :
    attempts (t.take i) ≤ attempts (t.take j) := by
  rw [← Nat.min_eq_left h, ← take_take]
  exact (take_sublist i (t.take j)).countP_le

theorem attempts_take_add_drop (t : Trace) (i : Nat) :
    attempts (t.take i) + attempts (t.drop i) = attempts t := by
  rw [← attempts_append, take_append_drop]

variable {t : Trace}

/-- The attempt of a command in a trace: its number is the count before
it, which is one less than the count before the command. -/
theorem Numbered.attempt (h : Numbered n t) {j : Nat} {error : Option HalError}
    (hget : t[j]? = some (.publish c error)) :
    ∃ a, c.commandNumber = numberAt a ∧ attempts (t.take j) = a + 1 := by
  obtain ⟨i, segment, offset, ok, rfl, hi, hnum⟩ := h.command j c error hget
  refine ⟨attempts (t.take i), hnum, ?_⟩
  rw [take_add_one, hi, attempts_append]
  rfl

theorem Numbered.command_unique (h : Numbered n t) {j j' : Nat}
    {c' : ReoCommand} {error error' : Option HalError}
    (hget : t[j]? = some (.publish c error)) (hget' : t[j']? = some (.publish c' error'))
    (hcnt : attempts (t.take j) = attempts (t.take j')) : j = j' := by
  -- the later one follows its own attempt, which follows the earlier one
  have hlt : ∀ {j j' : Nat} {c c' : ReoCommand} {error error' : Option HalError},
      t[j]? = some (.publish c error) → t[j']? = some (.publish c' error') → j < j' →
      attempts (t.take j) < attempts (t.take j') := by
    intro j j' c c' error error' hget hget' hj
    obtain ⟨i, segment, offset, ok, rfl, hi, -⟩ := h.command j' c' error' hget'
    rw [take_add_one, hi, attempts_append]
    exact Nat.lt_succ_of_le (attempts_take_le t (by omega))
  rcases Nat.lt_trichotomy j j' with hj | hj | hj
  · have := hlt hget hget' hj
    omega
  · exact hj
  · have := hlt hget' hget hj
    omega

theorem Numbered.recent_unique (h : Numbered n t) {c' : ReoCommand} (hc : Recent t c 0)
    (hc' : Recent t c' 0) (hnum : c.commandNumber = c'.commandNumber) : c = c' := by
  obtain ⟨j, hget, hage⟩ := hc
  obtain ⟨j', hget', hage'⟩ := hc'
  obtain ⟨a, ha, hcnt⟩ := h.attempt hget
  obtain ⟨a', ha', hcnt'⟩ := h.attempt hget'
  have htotal := attempts_take_add_drop t j
  have htotal' := attempts_take_add_drop t j'
  have heq : a = a' := by
    rw [ha, ha'] at hnum
    exact numberAt_inj (t := attempts t) (by omega) (by omega) (by omega) (by omega) hnum
  have hj := h.command_unique hget hget' (by omega)
  rw [hj, hget'] at hget
  cases hget
  rfl

theorem Numbered.recent_ne_next (h : Numbered n t) (hc : Recent t c 0) : c.commandNumber ≠ n := by
  obtain ⟨j, hget, hage⟩ := hc
  obtain ⟨a, ha, hcnt⟩ := h.attempt hget
  have htotal := attempts_take_add_drop t j
  intro hnum
  rw [ha, h.next] at hnum
  have heq := numberAt_inj (t := attempts t) (by omega) (by omega) (by omega) (by omega) hnum
  omega

variable {s : PeerRxTids}

namespace PeerRxTids

theorem outstanding_numbers (s : PeerRxTids) : s.outstanding.map ReoCommand.commandNumber =
    (s.pendingDelete ++ s.pendingFlush).map commandNumber := by
  simp [outstanding, invalidation, baseFlush, Function.comp_def]

theorem outstanding_segments (s : PeerRxTids) :
    (s.outstanding.map ReoCommand.segment).Sublist s.segments := by
  have hdelete : (s.pendingDelete.map fun e => .of e.key e.tid).Sublist s.exposed :=
    ((sublist_append_right _ _).trans (sublist_append_left _ _)).trans
      (sublist_append_left _ _)
  have hflush : (s.pendingFlush.map fun e => .of e.key e.tid).Sublist s.retired :=
    sublist_append_right _ _
  have hboth := (hdelete.append hflush).map Owner.dma
  simpa [outstanding, segments, invalidation, baseFlush, Owner.of, Function.comp_def] using hboth

/-- What the arrival of a status leaves. -/
def received (status : ReoStatus) (nowMs : UInt64) (s : PeerRxTids) : PeerRxTids :=
  (applyStatus status nowMs (s.logged [.consume status])).state

/-- The numbers identify the queues that wait for a status: they are
distinct, the next one is free, and a status takes out the queue whose
command has its number, and no other. -/
structure Identifies (s : PeerRxTids) : Prop where
  distinct : ((s.pendingDelete ++ s.pendingFlush).map commandNumber).Nodup
  next : s.nextCommandNumber ∉ (s.pendingDelete ++ s.pendingFlush).map commandNumber
  invalidated : ∀ status nowMs, ∀ e ∈ s.pendingDelete, e.commandNumber = status.commandNumber →
    (e :: (s.received status nowMs).pendingDelete).Perm s.pendingDelete ∧
      (s.received status nowMs).pendingFlush = s.pendingFlush
  flushed : ∀ status nowMs, ∀ e ∈ s.pendingFlush, e.commandNumber = status.commandNumber →
    (s.received status nowMs).pendingDelete = s.pendingDelete ∧
      (e :: (s.received status nowMs).pendingFlush).Perm s.pendingFlush

theorem identifies_of_distinct
    (hdist : ((s.pendingDelete ++ s.pendingFlush).map commandNumber).Nodup)
    (hnx : s.nextCommandNumber ∉ (s.pendingDelete ++ s.pendingFlush).map commandNumber) :
    s.Identifies := by
  have hinj := inj_on_of_nodup_map hdist
  refine ⟨hdist, hnx, ?_, ?_⟩
  · intro status nowMs e he hnum
    obtain ⟨s', hdlv, happly⟩ := applyStatus_delivery status nowMs s
    rw [received, happly]
    cases hdlv with
    | ignored hn => exact absurd hnum (hn e (mem_append_left _ he))
    | cached hp hpend | denied hp hpend =>
      have heq := hinj (mem_append_left _ he)
        (mem_append_left _ (hp.subset mem_cons_self)) (hnum.trans hpend.symm)
      rw [heq]
      exact ⟨hp, rfl⟩
    | released hn => exact absurd hnum (hn e he)
  · intro status nowMs e he hnum
    obtain ⟨s', hdlv, happly⟩ := applyStatus_delivery status nowMs s
    rw [received, happly]
    -- the queue is in one list only
    have hother : ∀ pending ∈ s.pendingDelete, pending.commandNumber ≠ status.commandNumber := by
      intro pending hpend heq
      rw [map_append] at hdist
      obtain ⟨-, -, hdisj⟩ := nodup_append.mp hdist
      exact hdisj _ (mem_map_of_mem hpend) _ (mem_map_of_mem he) (heq.trans hnum.symm)
    cases hdlv with
    | ignored hn => exact absurd hnum (hn e (mem_append_right _ he))
    | cached hp hpend | denied hp hpend => exact absurd hpend (hother _ (hp.subset mem_cons_self))
    | @released pending pendingFlush _ hp hpend =>
      have hsame := retire_sameQueues pending.key
        { s.logged [.consume status, .drop pending.tid.dma] with pendingFlush := pendingFlush }
      have heq := hinj (mem_append_right _ he)
        (mem_append_right _ (hp.subset mem_cons_self)) (hnum.trans hpend.symm)
      rw [hsame.pendingDelete, hsame.pendingFlush, heq]
      exact ⟨rfl, hp⟩

/-- While every status that is awaited is recent, the numbers identify. -/
theorem identifies_of_recent (hnumb : s.Numbered) (howned : s.Owned)
    (hrec : ∀ c ∈ s.outstanding, Recent s.trace c 0) : s.Identifies := by
  apply identifies_of_distinct
  · rw [← outstanding_numbers]
    have hnodup : s.outstanding.Nodup := Nodup.of_map _ (howned.1.sublist s.outstanding_segments)
    apply Nodup.map_on _ hnodup
    intro c hc c' hc' hnum
    exact Numbered.recent_unique hnumb (hrec c hc) (hrec c' hc') hnum
  · rw [← outstanding_numbers]
    intro hmem
    obtain ⟨c, hc, hnum⟩ := mem_map.mp hmem
    exact Numbered.recent_ne_next hnumb (hrec c hc) hnum

end PeerRxTids

/-! ## Whole runs -/

/-- What holds in every state of a run. -/
structure PeerRxTids.Regular (s : PeerRxTids) : Prop where
  slots : s.slots.Nodup
  owned : s.Owned
  numbered : s.Numbered

theorem new_regular : new.Regular where
  slots := nodup_nil
  owned := ⟨nodup_nil, fun _ h => absurd h not_mem_nil⟩
  numbered := new_numbered

theorem exec_regular (op : Op) (s : PeerRxTids) (h : s.Regular) : (op.exec P s).state.Regular where
  slots := exec_slots_nodup op h.slots
  owned := exec_owned op h.slots h.owned
  numbered := exec_keeps (fun _ _ h => h.numbered) (fun _ _ _ h => h.numbered)
    (fun _ _ h => h.numbered) op h.numbered

/-- Before an operation, every status that is awaited was asked for
recently, also counting what the operation may send. -/
def Step.Timely (step : Step) : Prop :=
  step.op.budget step.before < 65534 ∧
    ∀ c ∈ step.before.outstanding, Recent step.before.trace c (step.op.budget step.before)

theorem exec_recent (op : Op) (hbudget : op.budget s < 65534)
    (hrec : ∀ c ∈ s.outstanding, Recent s.trace c (op.budget s)) :
    ∀ c ∈ (op.exec P s).state.outstanding, Recent (op.exec P s).state.trace c 0 := by
  intro c hc
  have hcnt := exec_attempts (P := P) op s
  obtain ⟨⟨events, htr⟩, hout⟩ := exec_carries op s
  rw [← htr, attempts_append] at hcnt
  rcases hout c hc with hold | ⟨j, hj, hget⟩
  · obtain ⟨j, hget, hage⟩ := hrec c hold
    refine ⟨j, getElem?_of_isPrefix ⟨events, htr⟩ hget, ?_⟩
    have hj := lt_of_getElem? hget
    rw [← htr, drop_append_of_le_length (by omega), attempts_append]
    omega
  · refine ⟨j, hget, ?_⟩
    have hd : attempts ((op.exec P s).state.trace.drop j) ≤ attempts events := by
      rw [← htr, ← Nat.sub_add_cancel hj, Nat.add_comm, ← drop_drop, drop_left]
      exact (drop_sublist _ events).countP_le
    omega

/-- After every timely operation of a run, a command number identifies
the queue that waits for its status. -/
theorem numbers_identify_owner (P : Platform) (ops : List Op) :
    ∀ step ∈ (new.run P ops).1, step.Timely → step.after.Identifies := by
  intro step hstep htimely
  obtain ⟨hsteps, -⟩ := run_induct exec_regular ops new_regular
  obtain ⟨hpre, -, hpost⟩ := hsteps step hstep
  have hregular := exec_regular (P := P) step.op step.before hpre
  rw [hpost]
  exact identifies_of_recent hregular.numbered hregular.owned
    (exec_recent step.op htimely.1 htimely.2)

/-! ## Numbers run out -/

/-- A platform on which everything succeeds. -/
def obliging : Platform where
  allocate _ := true
  write _ _ := true
  syncForDevice _ _ := true
  deviceAddress _ _ _ := true
  publish _ _ := none
  sendReorderSetup _ _ := none

def peer : PeerKey := ⟨0, #v[2, 0, 0, 0, 0, 1]⟩

/-- Two queues of a peer, the first one deleted. -/
def deleting : List Op :=
  [.registerPeerAfterFirmwareCreate peer, .peerRxTidSetup false peer 0 1 0,
    .peerRxTidSetup false peer 1 1 0, .peerRxTidDelete peer 0]

/-- The delete of a second queue comes while the first one waits. -/
theorem second_delete_identified :
    ∃ step ∈ (new.run obliging (deleting ++ [.peerRxTidDelete peer 1])).1,
      step.before.outstanding ≠ [] ∧ step.Timely ∧ step.after.Identifies := by
  have hmem := getElem_mem (l := (new.run obliging
    (deleting ++ [.peerRxTidDelete peer 1])).1) (n := 4) (by decide)
  refine ⟨_, hmem, by decide, ?_⟩
  have htimely : Step.Timely ((new.run obliging (deleting ++ [.peerRxTidDelete peer 1])).1[4]) := by
    refine ⟨by decide, ?_⟩
    intro c hc
    have heq : c = ⟨1, .updateRxQueue, 0, 0, deleteParams⟩ := by
      revert c
      decide
    rw [heq]
    exact ⟨11, by decide, by decide⟩
  exact ⟨htimely, numbers_identify_owner _ _ _ hmem htimely⟩

theorem run_append (P : Platform) (s : PeerRxTids) (a b : List Op) :
    (s.run P (a ++ b)).2 = ((s.run P a).2.run P b).2 := by
  induction a generalizing s with
  | nil => rfl
  | cons op rest ih => exact ih (op.exec P s).state

theorem run_cons (P : Platform) (s : PeerRxTids) (op : Op) (rest : List Op) :
    (s.run P (op :: rest)).2 = ((op.exec P s).state.run P rest).2 := rfl

/-- One active queue of the peer, and the counter. -/
structure Stopping (k : Nat) (pendingDelete : List PendingTid) (s : PeerRxTids) : Prop where
  tids : ∃ baWindowSize size dma, s.tids = [⟨peer, ⟨1, baWindowSize, size, dma⟩⟩]
  peers : s.peers = [peer]
  tearingDown : s.tearingDown = []
  pendingDelete : s.pendingDelete = pendingDelete
  next : s.nextCommandNumber = numberAt k

variable {pendingDelete : List PendingTid}

theorem stop_once {k : Nat} (h : Stopping k pendingDelete s) :
    Stopping (k + 1) pendingDelete ((Op.rxAmpduStop false peer 1).exec obliging s).state := by
  obtain ⟨⟨baWindowSize, size, dma, htids⟩, hpeers, htear, hpend, hnx⟩ := h
  obtain ⟨tids, pendingDelete', cachedDelete, pendingFlush, uncertainSetup, failedDelete,
    tearingDown,
    fragments, pendingFragmentLinks, peers, security, uncertainSecurity, next, trace⟩ := s
  dsimp only at htids hpeers htear hpend hnx
  subst htids hpeers htear hpend
  refine ⟨⟨1, size, dma, rfl⟩, rfl, rfl, rfl, ?_⟩
  show bump next = _
  rw [hnx, bump_numberAt]

theorem stop_often (n : Nat) {k : Nat} (h : Stopping k pendingDelete s) :
    Stopping (k + n) pendingDelete
      (s.run obliging (replicate n (.rxAmpduStop false peer 1))).2 := by
  induction n generalizing k s with
  | zero => exact h
  | succ n ih =>
    have hr := ih (stop_once h)
    rw [Nat.add_right_comm] at hr
    exact hr

/-- While the first queue waits for its status, aggregation on the second
is stopped so many times. -/
def recycling (n : Nat) : List Op := deleting ++ replicate n (.rxAmpduStop false peer 1)

theorem recycling_stopping (n : Nat) : Stopping (1 + n) [⟨1, peer, ⟨0, 1, 512, 0⟩⟩]
    (new.run obliging (recycling n)).2 := by
  have hstart : Stopping 1 [⟨1, peer, ⟨0, 1, 512, 0⟩⟩] (new.run obliging deleting).2 :=
    ⟨⟨1, 512, 5, by decide⟩, by decide, by decide, by decide, by decide⟩
  exact stop_often n hstart

/-- When the counter has come round, the next number is one that a queue
still waits for. -/
theorem command_number_reused :
    (new.run obliging (recycling 65534)).2.nextCommandNumber ∈
      ((new.run obliging (recycling 65534)).2.pendingDelete ++
        (new.run obliging (recycling 65534)).2.pendingFlush).map
          commandNumber := by
  have hl := recycling_stopping 65534
  have hwrap : numberAt (1 + 65534) = 1 := by decide
  rw [hl.next, hl.pendingDelete, hwrap, map_append]
  exact mem_append_left _ mem_cons_self

end Drv.Ath11k
