import Drv.Ath11k.Peers

/-!
# What the operations do to the queues

One relation for each function that moves a queue, with everything it can
do: `Admission` for setup, `Deletion`, `Delivery` of a status, `Flush` and
`Command`. An invariant of the queues is checked once for each of them.
-/

namespace Drv.Ath11k

open Relation (ReflTransGen)
open List PeerRxTids Eff ReoController

variable {P : Platform}

namespace PeerRxTids

/-- With more in the trace. -/
def logged (s : PeerRxTids) (events : Trace) : PeerRxTids :=
  { s with trace := s.trace ++ events }

/-- With one more command number taken. -/
def sent (s : PeerRxTids) (events : Trace) : PeerRxTids :=
  { s with nextCommandNumber := bump s.nextCommandNumber, trace := s.trace ++ events }

end PeerRxTids

theorem ask_apply {α : Type} (question : Trace → α) (event : α → Event) (s : PeerRxTids) :
    ask question event s = ⟨.ok (question s.trace), s.logged [event (question s.trace)], []⟩ :=
  rfl

theorem logged_logged (s : PeerRxTids) (a b : Trace) :
    (s.logged a).logged b = s.logged (a ++ b) := by
  simp [logged]

theorem sent_logged (s : PeerRxTids) (a b : Trace) : (s.sent a).logged b = s.sent (a ++ b) := by
  simp [sent, logged]

/-! ## Commands -/

/-- What sending a command logs and answers. -/
inductive Sent (c : ReoCommand) : Trace → Except DpError UInt16 → Prop
  | unaddressed : Sent c [.deviceAddressAt c.segment c.offset false] (.error .deviceFault)
  | refused (e : HalError) :
    Sent c [.deviceAddressAt c.segment c.offset true, .publish c (some e)] (.error (mapHal e))
  | published :
    Sent c [.deviceAddressAt c.segment c.offset true, .publish c none] (.ok c.commandNumber)

theorem sendAt_sent (P : Platform) (kind : ReoCommandKind) (tid : ReoTid) (offset : Nat)
    (params : ReoCommandParams) (s : PeerRxTids) :
    ∃ events result, Sent ⟨s.nextCommandNumber, kind, tid.dma, offset, params⟩ events result ∧
      sendAt P kind tid offset params s = ⟨result, s.sent events, []⟩ := by
  rw [sendAt, look_bind, modify_bind, bind_of_silent (ask_apply ..)]
  generalize P.deviceAddress _ _ _ = addressed
  cases addressed with
  | false => exact ⟨_, _, .unaddressed, rfl⟩
  | true =>
    rw [if_pos rfl, bind_of_silent (ask_apply ..)]
    generalize P.publish _ _ = error
    cases error with
    | none =>
      refine ⟨_, _, .published, ?_⟩
      simp [sent, logged]
    | some e =>
      refine ⟨_, _, .refused e, ?_⟩
      simp [sent, logged]

/-- What publishing a queue to the firmware logs and answers. -/
inductive Offered (request : PeerReorderQueueSetup) (nonVisible : Bool) :
    Trace → Except DpError Unit → Prop
  | unaddressed :
    Offered request nonVisible [.deviceAddress request.queueAddress false] (.error .deviceFault)
  | refused (e : DpError) :
    Offered request nonVisible [.deviceAddress request.queueAddress true,
      .sendReorderSetup request nonVisible (some e)] (.error e)
  | sent :
    Offered request nonVisible [.deviceAddress request.queueAddress true,
      .sendReorderSetup request nonVisible none] (.ok ())

theorem sendReorderSetup_offered (P : Platform) (nonVisible : Bool) (key : PeerKey) (tid : ReoTid)
    (baWindowSize : UInt32) (s : PeerRxTids) :
    ∃ events result, Offered ⟨key, tid.tid, tid.dma, 1, baWindowSize⟩ nonVisible events result ∧
      sendReorderSetup P nonVisible key tid baWindowSize s = ⟨result, s.logged events, []⟩ := by
  rw [sendReorderSetup, bind_of_silent (ask_apply ..)]
  generalize P.deviceAddress _ _ _ = addressed
  cases addressed with
  | false => exact ⟨_, _, .unaddressed, rfl⟩
  | true =>
    rw [if_pos rfl, bind_of_silent (ask_apply ..), logged_logged]
    generalize P.sendReorderSetup _ _ = error
    cases error with
    | none => exact ⟨_, _, .sent, rfl⟩
    | some e => exact ⟨_, _, .refused e, rfl⟩

/-! ## Setup -/

namespace PeerRxTids

/-- The peer and TID of every queue that the device may still use. -/
def slots (s : PeerRxTids) : List (PeerKey × UInt8) :=
  s.tids.map (fun e => (e.key, e.tid.tid)) ++ s.pendingDelete.map (fun e => (e.key, e.tid.tid)) ++
    s.uncertainSetup.map (fun e => (e.key, e.tid.tid)) ++
    s.failedDelete.map (fun e => (e.key, e.tid.tid))

end PeerRxTids

/-- Memory that was allocated and written; its name is the place of the
allocation. -/
def written (dma : Nat) : Trace := [.allocate true, .write dma true, .syncForDevice dma true]

/-- What setting up a queue can do. -/
inductive Admission (s : PeerRxTids) : PeerRxTids → Prop
  | refused : Admission s s
  /-- The update of an active queue was not sent. -/
  | unsent {active params events e} :
    active ∈ s.tids → params.update0 &&& updateValid = 0 →
    Sent ⟨s.nextCommandNumber, .updateRxQueue, active.tid.dma, 0, params⟩ events (.error e) →
    Admission s (s.sent events)
  /-- An active queue was updated and published again. -/
  | updated {active params events offer n baWindowSize nonVisible result} :
    active ∈ s.tids → params.update0 &&& updateValid = 0 →
    Sent ⟨s.nextCommandNumber, .updateRxQueue, active.tid.dma, 0, params⟩ events (.ok n) →
    Offered ⟨active.key, active.tid.tid, active.tid.dma, 1, baWindowSize⟩ nonVisible offer
      result →
    Admission s { s.sent (events ++ offer) with
      tids := setBaWindowSize active.key active.tid.tid baWindowSize s.tids }
  | unallocated : Admission s (s.logged [.allocate false])
  /-- The memory could not be written. -/
  | scrapped {events : Trace} :
    (events = [.write s.trace.length false] ∨
      events = [.write s.trace.length true, .syncForDevice s.trace.length false]) →
    Admission s (s.logged (.allocate true :: events ++ [.drop s.trace.length]))
  | created {key tid offer nonVisible} :
    (key, tid.tid) ∉ s.slots → key ∈ s.peers → key ∉ s.tearingDown → tid.dma = s.trace.length →
    tid.size ≤ 512 →
    Offered ⟨key, tid.tid, tid.dma, 1, tid.baWindowSize⟩ nonVisible offer (.ok ()) →
    Admission s { s.logged (written tid.dma ++ offer) with tids := s.tids ++ [⟨key, tid⟩] }
  /-- The firmware may have seen the address. -/
  | doubted {key tid offer e} :
    (key, tid.tid) ∉ s.slots → key ∈ s.peers → key ∉ s.tearingDown → tid.dma = s.trace.length →
    tid.size ≤ 512 →
    Offered ⟨key, tid.tid, tid.dma, 1, tid.baWindowSize⟩ false offer (.error e) →
    Admission s { s.logged (written tid.dma ++ offer) with
      uncertainSetup := s.uncertainSetup ++ [⟨key, tid⟩] }
  /-- The firmware has not seen the address. -/
  | withdrawn {key} {tid : ReoTid} {offer e} :
    (key, tid.tid) ∉ s.slots → tid.dma = s.trace.length →
    Offered ⟨key, tid.tid, tid.dma, 1, tid.baWindowSize⟩ true offer (.error e) →
    Admission s (s.logged (written tid.dma ++ offer ++ [.drop tid.dma]))

variable {s : PeerRxTids} {baWindowSize : UInt32}

theorem updateActive_admission {nonVisible : Bool} {active : ActiveTid} {params : ReoCommandParams}
    (hact : active ∈ s.tids) (hparams : params.update0 &&& updateValid = 0) :
    Admission s (updateActive P nonVisible active.key active baWindowSize params s).state := by
  obtain ⟨events, result, hsent, hsend⟩ := sendAt_sent P .updateRxQueue active.tid 0 params s
  rw [updateActive]
  cases result with
  | error =>
    rw [sendReoCmd, bind_of_error hsend]
    exact .unsent hact hparams hsent
  | ok =>
    rw [sendReoCmd, bind_of_silent hsend, modify_bind]
    obtain ⟨offer, result, hoff, hoffer⟩ := sendReorderSetup_offered P nonVisible active.key
      active.tid baWindowSize { s.sent events with
        tids := setBaWindowSize active.key active.tid.tid baWindowSize s.tids }
    have hst := Admission.updated hact hparams hsent hoff
    rw [← sent_logged] at hst
    exact (congrArg (fun o => Admission s o.state) hoffer).mpr hst

theorem descriptorLength_le (tid : UInt8) (baWindowSize : UInt32) :
    ReoTid.descriptorLength tid baWindowSize ≤ 512 := by
  unfold ReoTid.descriptorLength
  split
  · split
    · omega
    · split
      · omega
      · split <;> omega
  · omega

/-- Setting up the memory: it is there and written, or nothing is left of
it. -/
theorem setup_cases (P : Platform) (tid : UInt8) (baWindowSize : UInt32) (s : PeerRxTids) :
    (∃ t : ReoTid, t.tid = tid ∧ t.baWindowSize = baWindowSize ∧ t.dma = s.trace.length ∧
      t.size ≤ 512 ∧
      ReoTid.setup P tid baWindowSize s = ⟨.ok t, s.logged (written t.dma), []⟩) ∨
    ∃ e s', Admission s s' ∧ ReoTid.setup P tid baWindowSize s = ⟨.error e, s', []⟩ := by
  rw [ReoTid.setup, look_bind, bind_of_silent (ask_apply ..)]
  generalize P.allocate _ = allocated
  cases allocated with
  | false => exact .inr ⟨_, _, .unallocated, rfl⟩
  | true =>
    rw [if_pos rfl, bind_of_silent (ask_apply ..), logged_logged]
    generalize P.write _ _ = wrote
    cases wrote with
    | false =>
      refine .inr ⟨.deviceFault, _, .scrapped (.inl rfl), ?_⟩
      simp [drop, log, logged, bind_apply]
    | true =>
      rw [if_pos rfl, bind_of_silent (ask_apply ..), logged_logged]
      generalize P.syncForDevice _ _ = synced
      cases synced with
      | false =>
        refine .inr ⟨.deviceFault, _, .scrapped (.inr rfl), ?_⟩
        simp [drop, log, logged, bind_apply]
      | true =>
        exact .inl ⟨⟨tid, baWindowSize, _, s.trace.length⟩, rfl, rfl, rfl,
          descriptorLength_le tid baWindowSize, rfl⟩

variable {key : PeerKey} {tid : UInt8}

theorem createQueue_admission {nonVisible : Bool} (hfree : (key, tid) ∉ s.slots)
    (hpeer : key ∈ s.peers) (htear : key ∉ s.tearingDown) :
    Admission s (createQueue P nonVisible key tid baWindowSize s).state := by
  rw [createQueue]
  rcases setup_cases P tid baWindowSize s with
    ⟨t, rfl, rfl, hdma, hsz, hsetup⟩ | ⟨e, s', had, hsetup⟩
  · rw [bind_of_silent hsetup]
    obtain ⟨offer, result, hoff, hoffer⟩ :=
      sendReorderSetup_offered P nonVisible key t t.baWindowSize (s.logged (written t.dma))
    rw [logged_logged] at hoffer
    rw [bind_attempt hoffer]
    cases result with
    | error =>
      dsimp only
      split
      next hvis =>
        subst hvis
        have := Admission.withdrawn hfree hdma hoff
        rw [← logged_logged] at this
        exact this
      next hvis =>
        simp only [Bool.not_eq_true] at hvis
        subst hvis
        exact .doubted hfree hpeer htear hdma hsz hoff
    | ok => exact .created hfree hpeer htear hdma hsz hoff
  · rw [bind_of_error hsetup]
    exact had

theorem isFor_iff {e : ActiveTid} : isFor key tid e = true ↔ e.key = key ∧ e.tid.tid = tid := by
  simp [isFor]

theorem not_mem_slots (hheld : ¬ (s.uncertainSetup ++ s.failedDelete).any (isFor key tid))
    (hpend : ¬ s.pendingDelete.any (isPendingFor key tid))
    (hact : s.tids.find? (isFor key tid) = none) : (key, tid) ∉ s.slots := by
  simp only [any_eq_true, isFor_iff, mem_append] at hheld
  simp only [any_eq_true, isPendingFor, decide_eq_true_eq] at hpend
  rw [find?_eq_none] at hact
  simp only [isFor_iff] at hact
  simp only [slots, mem_append, mem_map, Prod.mk.injEq]
  rintro (((⟨e, he, heq⟩ | ⟨e, he, heq⟩) | ⟨e, he, heq⟩) | ⟨e, he, heq⟩)
  · exact hact e he heq
  · exact hpend ⟨e, he, heq⟩
  · exact hheld ⟨e, .inl he, heq⟩
  · exact hheld ⟨e, .inr he, heq⟩

variable (nonVisible : Bool) (key : PeerKey)

theorem peerRxTidSetup_admission (tid : UInt8) (baWindowSize : UInt32) (startSequence : UInt16)
    (s : PeerRxTids) :
    Admission s (peerRxTidSetup P nonVisible key tid baWindowSize startSequence s).state := by
  rw [peerRxTidSetup, look_bind]
  split
  · exact .refused
  split
  · exact .refused
  next hpeer =>
  split
  · exact .refused
  next hheld =>
  split
  · exact .refused
  next hpend =>
  simp only [not_or, not_not] at hpeer
  cases hf : s.tids.find? (isFor key tid) with
  | none => exact createQueue_admission (not_mem_slots hheld hpend hf) hpeer.1 hpeer.2
  | some =>
    split
    · exact .refused
    · obtain ⟨rfl, rfl⟩ := isFor_iff.mp (find?_some hf)
      exact updateActive_admission (mem_of_find?_eq_some hf)
        (by decide : (updateBaWindowSize ||| updateStartSequence) &&& updateValid = 0)

theorem rxAmpduStart_admission (tid : UInt8) (baWindowSize : UInt32) (startSequence : UInt16)
    (s : PeerRxTids) :
    Admission s (rxAmpduStart P nonVisible key tid baWindowSize startSequence s).state := by
  rw [rxAmpduStart, look_bind]
  split
  · exact .refused
  · exact peerRxTidSetup_admission nonVisible key tid baWindowSize startSequence s

theorem rxAmpduStop_admission (tid : UInt8) (s : PeerRxTids) :
    Admission s (rxAmpduStop P nonVisible key tid s).state := by
  rw [rxAmpduStop, look_bind]
  split
  · exact .refused
  cases hf : s.tids.find? (isFor key tid) with
  | none => exact .refused
  | some =>
    obtain ⟨rfl, rfl⟩ := isFor_iff.mp (find?_some hf)
    exact updateActive_admission (mem_of_find?_eq_some hf) (by decide)

/-! ## Delete -/

/-- What deleting a queue can do. -/
inductive Deletion (key : PeerKey) (tid : UInt8) (s : PeerRxTids) : PeerRxTids → Prop
  | absent : (∀ e ∈ s.tids, ¬ (e.key = key ∧ e.tid.tid = tid)) → Deletion key tid s s
  | sent {active tids events n} :
    active.key = key → active.tid.tid = tid → (active :: tids).Perm s.tids →
    Sent ⟨s.nextCommandNumber, .updateRxQueue, active.tid.dma, 0, deleteParams⟩ events
      (.ok n) →
    Deletion key tid s { s.sent events with
      tids := tids
      pendingDelete := s.pendingDelete ++ [⟨n, active.key, active.tid⟩] }
  | stranded {active tids events e} :
    active.key = key → active.tid.tid = tid → (active :: tids).Perm s.tids →
    Sent ⟨s.nextCommandNumber, .updateRxQueue, active.tid.dma, 0, deleteParams⟩ events
      (.error e) →
    Deletion key tid s { s.sent events with
      tids := tids
      failedDelete := s.failedDelete ++ [active] }

theorem peerRxTidDelete_deletion (tid : UInt8) (s : PeerRxTids) :
    Deletion key tid s (peerRxTidDelete P key tid s).state := by
  rw [peerRxTidDelete, look_bind]
  cases hextr : extract (isFor key tid) s.tids with
  | none =>
    apply Deletion.absent
    intro e he heq
    have hfor := extract_none hextr e he
    rw [isFor_iff.mpr heq] at hfor
    cases hfor
  | some found =>
    obtain ⟨active, tids⟩ := found
    obtain ⟨hfor, hp⟩ := extract_some hextr
    obtain ⟨rfl, rfl⟩ := isFor_iff.mp hfor
    dsimp only
    rw [modify_bind]
    obtain ⟨events, result, hsent, hsend⟩ := sendAt_sent P .updateRxQueue active.tid 0
      deleteParams { s with tids := tids }
    rw [sendReoCmd, bind_attempt hsend]
    cases result with
    | ok => exact .sent rfl rfl hp hsent
    | error => exact .stranded rfl rfl hp hsent

/-! ## Statuses -/

/-- What a status can do. -/
inductive Delivery (status : ReoStatus) (s : PeerRxTids) : PeerRxTids → Prop
  | ignored :
    (∀ e ∈ s.pendingDelete ++ s.pendingFlush, e.commandNumber ≠ status.commandNumber) →
    Delivery status s (s.logged [.consume status])
  | cached {pending pendingDelete nowMs} :
    (pending :: pendingDelete).Perm s.pendingDelete →
    pending.commandNumber = status.commandNumber → status.executionStatus = 0 →
    Delivery status s { s.logged [.consume status] with
      pendingDelete := pendingDelete
      cachedDelete := s.cachedDelete ++ [⟨nowMs, pending.key, pending.tid⟩] }
  | denied {pending pendingDelete} :
    (pending :: pendingDelete).Perm s.pendingDelete →
    pending.commandNumber = status.commandNumber → status.executionStatus ≠ 0 →
    Delivery status s { s.logged [.consume status] with
      pendingDelete := pendingDelete
      failedDelete := s.failedDelete ++ [⟨pending.key, pending.tid⟩] }
  | released {pending pendingFlush} :
    (∀ e ∈ s.pendingDelete, e.commandNumber ≠ status.commandNumber) →
    (pending :: pendingFlush).Perm s.pendingFlush →
    pending.commandNumber = status.commandNumber →
    Delivery status s (retire pending.key
      { s.logged [.consume status, .drop pending.tid.dma] with pendingFlush := pendingFlush })

theorem applyStatus_delivery (status : ReoStatus) (nowMs : UInt64) (s : PeerRxTids) :
    ∃ s', Delivery status s s' ∧
      applyStatus status nowMs (s.logged [.consume status]) = ⟨.ok (), s', []⟩ := by
  rw [applyStatus, look_bind]
  cases hdel : extract (fun pending => decide (pending.commandNumber = status.commandNumber))
    (s.logged [.consume status]).pendingDelete with
  | some found =>
    obtain ⟨hnum, hp⟩ := extract_some hdel
    simp only [decide_eq_true_eq] at hnum
    by_cases hok : status.executionStatus = 0
    · simp only [hok, if_true]
      exact ⟨_, .cached hp hnum hok, rfl⟩
    · simp only [hok, if_false]
      exact ⟨_, .denied hp hnum hok, rfl⟩
  | none =>
    have hother : ∀ e ∈ s.pendingDelete, e.commandNumber ≠ status.commandNumber := by
      intro e he
      simpa using extract_none hdel e he
    cases hflush : extract (fun pending => decide (pending.commandNumber = status.commandNumber))
      (s.logged [.consume status]).pendingFlush with
    | some found =>
      obtain ⟨pending, pendingFlush⟩ := found
      obtain ⟨hnum, hp⟩ := extract_some hflush
      simp only [decide_eq_true_eq] at hnum
      have hlog : ({ s.logged [.consume status] with pendingFlush := pendingFlush }.logged
          [.drop pending.tid.dma] : PeerRxTids) =
          { s.logged [.consume status, .drop pending.tid.dma] with
            pendingFlush := pendingFlush } := by
        simp [logged]
      refine ⟨_, .released hother hp hnum, ?_⟩
      rw [← hlog]
      rfl
    | none =>
      refine ⟨_, .ignored (forall_mem_append.mpr ⟨hother, fun e he => ?_⟩), rfl⟩
      simpa using extract_none hflush e he

/-! ## Flushes -/

/-- The commands sent, delivered or not: each one takes a number. -/
def attempts (t : Trace) : Nat :=
  t.countP fun e => match e with | .deviceAddressAt .. => true | _ => false

theorem attempts_append (t t' : Trace) : attempts (t ++ t') = attempts t + attempts t' :=
  countP_append

variable {result : Except DpError UInt16}

theorem Sent.attempts_eq {c : ReoCommand} {events : Trace} (h : Sent c events result) :
    attempts events = 1 := by
  cases h <;> rfl

theorem Sent.attempts_sent {c : ReoCommand} {events : Trace} (h : Sent c events result) :
    attempts (s.sent events).trace = attempts s.trace + 1 := by
  rw [← h.attempts_eq, ← attempts_append]
  rfl

/-- Flush commands for the lines of a descriptor after its first, from one
counter to another. -/
inductive Burst (segment : Nat) : UInt16 → Trace → UInt16 → Prop
  | nil (n : UInt16) : Burst segment n [] n
  | cons {n m : UInt16} {offset : Nat} {events rest : Trace} {result : Except DpError UInt16} :
    offset ≠ 0 → Sent ⟨n, .flushCache, segment, offset, {}⟩ events result →
    Burst segment (bump n) rest m → Burst segment n (events ++ rest) m

/-- What flushing a cached queue can do. -/
inductive Flush (s : PeerRxTids) : PeerRxTids → Prop
  | sent {cached cachedDelete burst events n m} :
    (cached :: cachedDelete).Perm s.cachedDelete →
    Burst cached.tid.dma s.nextCommandNumber burst m →
    attempts burst = cached.tid.size / 128 - 1 →
    Sent ⟨m, .flushCache, cached.tid.dma, 0, baseFlushParams⟩ events (.ok n) →
    Flush s { s.logged (burst ++ events) with
      nextCommandNumber := bump m
      cachedDelete := cachedDelete
      pendingFlush := s.pendingFlush ++ [⟨n, cached.key, cached.tid⟩] }
  | unsent {cached cachedDelete burst events m e} :
    (cached :: cachedDelete).Perm s.cachedDelete →
    Burst cached.tid.dma s.nextCommandNumber burst m →
    attempts burst = cached.tid.size / 128 - 1 →
    Sent ⟨m, .flushCache, cached.tid.dma, 0, baseFlushParams⟩ events (.error e) →
    Flush s (retire cached.key
      { s.logged (burst ++ events ++ [.drop cached.tid.dma]) with
        nextCommandNumber := bump m
        cachedDelete := cachedDelete })

theorem flushExtensions_burst (P : Platform) (tid : ReoTid) (lines : Nat) (s : PeerRxTids) :
    ∃ burst m, Burst tid.dma s.nextCommandNumber burst m ∧ attempts burst = lines ∧
      flushExtensions P tid lines s =
        ⟨.ok (), { s.logged burst with nextCommandNumber := m }, []⟩ := by
  induction lines generalizing s with
  | zero =>
    refine ⟨[], s.nextCommandNumber, .nil _, rfl, ?_⟩
    simp [flushExtensions, logged]
  | succ lines ih =>
    obtain ⟨events, result, hsent, hsend⟩ := sendAt_sent P .flushCache tid ((lines + 1) * 128) {} s
    obtain ⟨burst, m, hburst, hcnt, hr⟩ := ih (s.sent events)
    refine ⟨events ++ burst, m, .cons (by omega) hsent hburst, ?_, ?_⟩
    · rw [attempts_append, hsent.attempts_eq, hcnt]
      omega
    · rw [flushExtensions, bind_attempt hsend, hr]
      simp [logged, sent]

theorem flushAgedFrom_flushes (P : Platform) (nowMs : UInt64) (fuel index : Nat) (s : PeerRxTids) :
    ReflTransGen Flush s (flushAgedFrom P nowMs fuel index s).state := by
  induction fuel generalizing index s with
  | zero => exact .refl
  | succ fuel ih =>
    rw [flushAgedFrom, look_bind]
    cases hget : s.cachedDelete[index]? with
    | none => exact .refl
    | some =>
      dsimp only
      split
      next =>
        obtain ⟨hlt, rfl⟩ := List.getElem?_eq_some_iff.mp hget
        have hp := swapRemove_perm hlt
        rw [modify_bind]
        obtain ⟨burst, m, hburst, hcnt, hexts⟩ := flushExtensions_burst P s.cachedDelete[index].tid
          (s.cachedDelete[index].tid.size / 128 - 1)
          { s with cachedDelete := swapRemove s.cachedDelete index }
        obtain ⟨events, result, hsent, hsend⟩ := sendAt_sent P .flushCache
          s.cachedDelete[index].tid 0 baseFlushParams { logged
            { s with cachedDelete := swapRemove s.cachedDelete index } burst with
            nextCommandNumber := m }
        have hflush := Eq.refl (flushOne P s.cachedDelete[index]
          { s with cachedDelete := swapRemove s.cachedDelete index })
        conv_rhs at hflush => rw [flushOne, bind_of_silent hexts, bind_attempt hsend]
        cases result with
        | ok n =>
          simp only [sent, logged, append_assoc, modify_apply] at hflush
          rw [bind_attempt hflush]
          exact .head (.sent hp hburst hcnt hsent) (ih index _)
        | error e =>
          simp only [drop, log, sent, logged, append_assoc, bind_apply, modify_apply, fail_apply,
            append_nil] at hflush
          rw [bind_attempt hflush, ← append_assoc burst]
          exact .single (.unsent hp hburst hcnt hsent)
      next => exact ih (index + 1) s

theorem flushAged_flushes (P : Platform) (nowMs : UInt64) (s : PeerRxTids) :
    ReflTransGen Flush s (flushAged P nowMs s).state :=
  flushAgedFrom_flushes P nowMs s.cachedDelete.length 0 s

/-- One of some statuses is delivered. -/
def Delivers (statuses : List ReoStatus) (s s' : PeerRxTids) : Prop :=
  ∃ status ∈ statuses, Delivery status s s'

/-- The statuses of a ring that were decoded. -/
def PeerRxTids.StatusRing.statuses (ring : StatusRing) : List ReoStatus :=
  ring.descriptors.filterMap Except.toOption

theorem consumeStatuses_delivers (nowMs : UInt64) (fault : Option HalError)
    {descriptors : List (Except HalError ReoStatus)} {statuses : List ReoStatus}
    (hall : ∀ status, .ok status ∈ descriptors → status ∈ statuses) (s : PeerRxTids) :
    ReflTransGen (Delivers statuses) s (consumeStatuses nowMs fault descriptors s).state := by
  induction descriptors generalizing s with
  | nil => cases fault <;> exact .refl
  | cons descriptor rest ih =>
    cases descriptor with
    | error => exact .refl
    | ok status =>
      obtain ⟨s', hdlv, happly⟩ := applyStatus_delivery status nowMs s
      refine .head ⟨status, hall status mem_cons_self, hdlv⟩ ?_
      have hr := ih (fun other hmem => hall other (mem_cons_of_mem _ hmem)) s'
      rw [consumeStatuses, log, modify_bind]
      rw [show ({ s with trace := s.trace ++ [.consume status] } : PeerRxTids) =
        s.logged [.consume status] from rfl, bind_of_silent happly, bind_apply]
      split <;> exact hr

theorem rxTidDelFunc_cases (P : Platform) (ring : StatusRing) (nowMs : UInt64)
    (s : PeerRxTids) : ∃ s', ReflTransGen (Delivers ring.statuses) s s' ∧
      ReflTransGen Flush s' (rxTidDelFunc P ring nowMs s).state := by
  refine ⟨_, consumeStatuses_delivers nowMs ring.fault
    (fun status hmem => mem_filterMap.mpr ⟨_, hmem, rfl⟩) s, ?_⟩
  rw [rxTidDelFunc, bind_apply]
  split
  · rw [bind_apply]
    split <;> exact flushAged_flushes P nowMs _
  · exact .refl

/-! ## Commands for active queues -/

/-- A command for an active queue that leaves it in use. -/
inductive Command (s : PeerRxTids) : PeerRxTids → Prop
  | sent {active : ActiveTid} {params : ReoCommandParams} {events : Trace}
    {result : Except DpError UInt16} :
    active ∈ s.tids → params.update0 &&& updateValid = 0 →
    Sent ⟨s.nextCommandNumber, .updateRxQueue, active.tid.dma, 0, params⟩ events result →
    Command s (s.sent events)

theorem configurePn_commands (P : Platform) (key : PeerKey) (tids : List UInt8) (s : PeerRxTids) :
    ReflTransGen Command s (configurePn P key tids s).state ∧
    attempts (configurePn P key tids s).state.trace ≤
      attempts s.trace + tids.length := by
  induction tids generalizing s with
  | nil => exact ⟨.refl, Nat.le_refl _⟩
  | cons tid rest ih =>
    rw [configurePn, look_bind]
    cases hf : s.tids.find? (isFor key tid) with
    | none => exact ⟨.refl, Nat.le_add_right ..⟩
    | some active =>
      obtain ⟨events, result, hsent, hsend⟩ :=
        sendAt_sent P .updateRxQueue active.tid 0 pnCheckParams s
      have hcmd : Command s (s.sent events) := .sent (mem_of_find?_eq_some hf) (by decide) hsent
      have hone := hsent.attempts_sent (s := s)
      dsimp only
      rw [length_cons]
      cases result with
      | ok =>
        rw [sendReoCmd, bind_of_silent hsend]
        obtain ⟨hr, hcnt⟩ := ih (s.sent events)
        exact ⟨.head hcmd hr, by omega⟩
      | error =>
        rw [sendReoCmd, bind_of_error hsend]
        exact ⟨.single hcmd, by dsimp only; omega⟩

end Drv.Ath11k
