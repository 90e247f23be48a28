import Drv.Laws.Ath11k.Owners

/-!
# When queue memory is released

Memory whose address the firmware may know is dropped only after the
invalidation of the queue was confirmed and its flush was answered or
could not be sent (`queue_memory_released_late`). The rule is `Allowed`,
one condition for each event of the trace.

That the code sees numbers only, and not which command a status answers,
is where this rests on the device: each status has to answer a command
with its number that was sent recently, and the queue that waits for the
number too (`Faithful`). Without that, a late status releases memory that
the device still uses (`released_by_late_status`).
-/

namespace Drv.Ath11k

open Relation (ReflTransGen)
open List PeerRxTids Event

variable {P : Platform}

/-! ## What has to come before -/

/-- The firmware may know the address: it was sent, and the send did not
fail in a way that excludes it. -/
def Exposed (t : Trace) (dma : Nat) : Prop :=
  ∃ request nonVisible error, .sendReorderSetup request nonVisible error ∈ t ∧
    request.queueAddress = dma ∧ (error = none ∨ nonVisible = false)

/-- A command that flushes the first line of a descriptor. -/
def ReoCommand.FlushesBase (c : ReoCommand) (dma : Nat) : Prop :=
  c.kind = .flushCache ∧ c.segment = dma ∧ c.offset = 0

/-- The device has confirmed an invalidation of the queue. -/
def Confirmed (t : Trace) (dma : Nat) : Prop :=
  ∃ (j k : Nat) (c : ReoCommand) (status : ReoStatus), j < k ∧
    t[j]? = some (.publish c none) ∧ c.Invalidates ∧ c.segment = dma ∧
    t[k]? = some (.consume status) ∧ status.answers = j ∧ status.executionStatus = 0

/-- After that, the base flush was answered, or could not be published. -/
def Released (t : Trace) (dma : Nat) : Prop :=
  ∃ l, Confirmed (t.take l) dma ∧
    ((∃ c, t[l]? = some (.publish c none) ∧ c.FlushesBase dma ∧
        ∃ (m : Nat) (status : ReoStatus), l < m ∧ t[m]? = some (.consume status) ∧
          status.answers = l) ∨
      (∃ c e, t[l]? = some (.publish c (some e)) ∧ c.FlushesBase dma) ∨
      t[l]? = some (.deviceAddressAt dma 0 false))

variable {dma : Nat} {t : Trace}

theorem Confirmed.mono {t' : Trace} (h : Confirmed t dma) (hgrows : t <+: t') :
    Confirmed t' dma := by
  obtain ⟨j, k, c, status, hlt, hj, hinv, hseg, hk, hans, hstat⟩ := h
  exact ⟨j, k, c, status, hlt, getElem?_of_isPrefix hgrows hj, hinv, hseg,
    getElem?_of_isPrefix hgrows hk, hans, hstat⟩

/-- What an event needs before it. -/
def Allowed (t : Trace) : Event → Prop
  | .drop dma => dma < t.length ∧ (Exposed t dma → Released t dma)
  | .publish c _ => c.kind = .flushCache → Confirmed t c.segment
  | .sendReorderSetup request .. => request.queueAddress < t.length
  | _ => True

theorem not_exposed (h : Justified Allowed t) (hle : t.length ≤ dma) : ¬ Exposed t dma := by
  rintro ⟨request, nonVisible, error, hmem, rfl, -⟩
  obtain ⟨i, hi, hget⟩ := mem_iff_getElem.mp hmem
  have hlt : request.queueAddress < (t.take i).length :=
    h.at (List.getElem?_eq_some_iff.mpr ⟨hi, hget⟩)
  rw [length_take] at hlt
  omega

/-! ## The condition on statuses -/

/-- A status answers a command with its number, and fewer attempts than
make the counter meet that number again have followed. -/
def Credible (t : Trace) (status : ReoStatus) : Prop :=
  ∃ c, t[status.answers]? = some (.publish c none) ∧ c.commandNumber = status.commandNumber ∧
    attempts (t.drop status.answers) < 65534

/-- A status is credible, and so is the wait of any queue for it. -/
def Vouched (s : PeerRxTids) (status : ReoStatus) : Prop :=
  Credible s.trace status ∧
    ∀ c ∈ s.outstanding, c.commandNumber = status.commandNumber → Recent s.trace c 0

/-- The device's part in an operation. -/
def Faithful (s : PeerRxTids) (op : Op) : Prop := ∀ status ∈ op.statuses, Vouched s status

variable {status : ReoStatus} {s : PeerRxTids} {c : ReoCommand}

/-- A credible status answers the very command that is awaited. -/
theorem Vouched.answers (h : Vouched s status) (hnum : s.Numbered) (hc : c ∈ s.outstanding)
    (hnumber : c.commandNumber = status.commandNumber) :
    s.trace[status.answers]? = some (.publish c none) := by
  obtain ⟨⟨c', hget', hnum', hage'⟩, hrec⟩ := h
  have hsame := Numbered.recent_unique hnum (hrec c hc hnumber)
    ⟨status.answers, hget', by omega⟩ (hnumber.trans hnum'.symm)
  rw [hsame]
  exact hget'

theorem Delivery.vouched {other : ReoStatus} {s s' : PeerRxTids} (h : Delivery status s s')
    (hother : Vouched s other) : Vouched s' other := by
  -- a delivery only appends events without a number
  have hplain : ∃ events, s'.trace = s.trace ++ events ∧ ∀ e ∈ events, e.Plain := by
    cases h with
    | ignored | cached | denied => exact ⟨_, rfl, by simp [Plain]⟩
    | released => exact ⟨_, retire_trace .., by simp [Plain]⟩
  obtain ⟨events, htr, hevs⟩ := hplain
  have hage : ∀ {j : Nat} {e : Event}, s.trace[j]? = some e →
      attempts (s'.trace.drop j) = attempts (s.trace.drop j) := by
    intro j e hget
    have hj := lt_of_getElem? hget
    rw [htr, drop_append_of_le_length (by omega), attempts_append,
      attempts_plain hevs, Nat.add_zero]
  have hgrows : s.trace <+: s'.trace := ⟨events, htr.symm⟩
  obtain ⟨⟨c, hget, hnumber, hlt⟩, hrec⟩ := hother
  refine ⟨⟨c, getElem?_of_isPrefix hgrows hget, hnumber, by rw [hage hget]; exact hlt⟩, ?_⟩
  intro c' hc' hnum'
  have hsub : s'.outstanding ⊆ s.outstanding := h.outstanding_subset
  obtain ⟨j, hget', hlt'⟩ := hrec c' (hsub hc') hnum'
  exact ⟨j, getElem?_of_isPrefix hgrows hget', by rw [hage hget']; exact hlt'⟩

/-! ## The invariant -/

/-- Every event so far was allowed; what is exposed is owned or dropped,
and what is cached was confirmed. -/
structure Tracked (s : PeerRxTids) : Prop where
  regular : s.Regular
  justified : Justified Allowed s.trace
  exposed : ∀ dma, Exposed s.trace dma → .drop dma ∈ s.trace ∨ dma ∈ s.segments
  cached : ∀ e ∈ s.cachedDelete, Confirmed s.trace e.tid.dma

theorem Tracked.lt {events : Trace} (h : Tracked s) (hmem : dma ∈ s.segments) :
    dma < (s.trace ++ events).length := by
  rw [length_append]
  exact Nat.lt_of_lt_of_le (h.regular.owned.2 _ hmem) (Nat.le_add_right ..)

theorem exposed_append {a b : Trace} (h : Exposed (a ++ b) dma) :
    Exposed a dma ∨ Exposed b dma := by
  obtain ⟨request, nonVisible, error, hmem, hr⟩ := h
  rcases mem_append.mp hmem with hmem | hmem
  · exact .inl ⟨request, nonVisible, error, hmem, hr⟩
  · exact .inr ⟨request, nonVisible, error, hmem, hr⟩

theorem not_exposed_append {a b : Trace} (ha : ¬ Exposed a dma) (hb : ¬ Exposed b dma) :
    ¬ Exposed (a ++ b) dma :=
  fun h => (exposed_append h).elim ha hb

variable {events : Trace}

theorem not_exposed_private (h : ∀ e ∈ events, e.Private) : ¬ Exposed events dma := by
  rintro ⟨request, nonVisible, error, hmem, -⟩
  exact h _ hmem

section
variable {s s' : PeerRxTids}

theorem Tracked.step (h : Tracked s) (hcust : Custody s s') (hnum : s'.Numbered)
    (htr : s'.trace = s.trace ++ events) (hjust : JustifiedAfter Allowed s.trace events)
    (hexposes : ∀ dma, Exposed events dma → dma ∈ s'.segments)
    (hcached : ∀ e ∈ s'.cachedDelete, e ∈ s.cachedDelete ∨ Confirmed s'.trace e.tid.dma) :
    Tracked s' where
  regular := {
    slots := hcust.slots_nodup h.regular.slots
    owned := hcust.owned (by rw [htr, length_append]; exact Nat.le_add_right ..)
      h.regular.owned
    numbered := hnum }
  justified := by
    rw [htr]
    exact justified_append.mpr ⟨h.justified, hjust⟩
  exposed dma hexposed := by
    rw [htr] at hexposed
    rcases exposed_append hexposed with hold | hnew
    · rcases h.exposed dma hold with hd | hmem
      · rw [htr]
        exact .inl (mem_append_left _ hd)
      · exact (hcust.kept_or_dropped hmem).symm
    · exact .inr (hexposes dma hnew)
  cached e he := by
    rcases hcached e he with hold | hnew
    · exact (h.cached e hold).mono ⟨events, htr.symm⟩
    · exact hnew

theorem Tracked.private (h : Tracked s) (hcust : Custody s s') (hnum : s'.Numbered)
    (htr : s'.trace = s.trace ++ events) (hjust : JustifiedAfter Allowed s.trace events)
    (hpriv : ∀ e ∈ events, e.Private)
    (hcached : ∀ e ∈ s'.cachedDelete, e ∈ s.cachedDelete ∨ Confirmed s'.trace e.tid.dma) :
    Tracked s' :=
  h.step hcust hnum htr hjust
    (fun _ hexposed => absurd hexposed (not_exposed_private hpriv)) hcached

/-! ## Setup -/

theorem Sent.justified {result : Except DpError UInt16} (h : Sent c events result)
    (hflush : c.kind = .flushCache → Confirmed t c.segment) : JustifiedAfter Allowed t events := by
  have hflush' : c.kind = .flushCache →
      Confirmed (t ++ [.deviceAddressAt c.segment c.offset true]) c.segment :=
    fun hkind => (hflush hkind).mono (prefix_append ..)
  cases h with
  | unaddressed => exact ⟨trivial, trivial⟩
  | refused e | published => exact ⟨trivial, hflush', trivial⟩

variable {request : PeerReorderQueueSetup} {result : Except DpError Unit} {nonVisible : Bool}

theorem Offered.justified (h : Offered request nonVisible events result)
    (hlt : request.queueAddress < t.length) : JustifiedAfter Allowed t events := by
  have hlt' : request.queueAddress < (t ++ [deviceAddress request.queueAddress true]).length := by
    rw [length_append]
    omega
  cases h with
  | unaddressed => exact ⟨trivial, trivial⟩
  | refused e | sent => exact ⟨trivial, hlt', trivial⟩

theorem Offered.exposes (h : Offered request nonVisible events result)
    (hexposed : Exposed events dma) :
    dma = request.queueAddress ∧ (result = .ok () ∨ nonVisible = false) := by
  obtain ⟨request', nonVisible', error, hmem, rfl, hvis⟩ := hexposed
  cases h with
  | unaddressed => simp at hmem
  | refused | sent =>
    simp only [mem_cons, not_mem_nil, or_false, reduceCtorEq, false_or,
      sendReorderSetup.injEq] at hmem
    obtain ⟨rfl, rfl, rfl⟩ := hmem
    exact ⟨rfl, hvis.imp_left (by simp)⟩

theorem offer_justified {offer : Trace} (h : Offered request nonVisible offer result)
    (hdma : request.queueAddress = t.length) :
    JustifiedAfter Allowed t (written request.queueAddress ++ offer) := by
  refine justifiedAfter_append.mpr ⟨⟨trivial, trivial, trivial, trivial⟩, h.justified ?_⟩
  rw [length_append, hdma]
  simp [written]

theorem offer_exposes {offer : Trace} (h : Offered request nonVisible offer result)
    (hexposed : Exposed (written request.queueAddress ++ offer) dma) :
    dma = request.queueAddress ∧ (result = .ok () ∨ nonVisible = false) := by
  rcases exposed_append hexposed with hexposed | hexposed
  · exact absurd hexposed (not_exposed_private (by simp [written, Private]))
  · exact h.exposes hexposed

theorem mem_segments_of_active {active : ActiveTid} (h : active ∈ s.tids) :
    active.tid.dma ∈ s.segments := by
  have hmem : Owner.of active.key active.tid ∈ s.exposed ++ s.retired := by
    simp only [exposed, append_assoc]
    exact mem_append_left _ (mem_map_of_mem h)
  exact mem_map_of_mem hmem

theorem Admission.tracked (h : Admission s s') (hs : Tracked s) : Tracked s' := by
  have hcust := h.custody
  have hnum := h.numbered hs.regular.numbered
  cases h with
  | refused => exact hs
  | unsent _ _ hsent =>
    exact hs.private hcust hnum rfl (hsent.justified nofun) hsent.private fun _ => .inl
  | @updated active _ events offer _ baWindowSize _ _ hact _ hsent hoff =>
    have hmem := mem_segments_of_active hact
    have hsegs : segments { s.sent (events ++ offer) with
        tids := setBaWindowSize active.key active.tid.tid baWindowSize s.tids } =
        s.segments := by
      simp only [segments, exposed, exposed_setBaWindowSize]
      rfl
    refine hs.step hcust hnum rfl ?_ ?_ (fun _ => .inl)
    · exact justifiedAfter_append.mpr ⟨hsent.justified (fun hkind => nomatch hkind),
        hoff.justified (hs.lt hmem)⟩
    · intro dma hexposed
      rcases exposed_append hexposed with hexposed | hexposed
      · exact absurd hexposed (not_exposed_private hsent.private)
      · rw [hsegs, (hoff.exposes hexposed).1]
        exact hmem
  | unallocated =>
    exact hs.private hcust hnum rfl ⟨trivial, trivial⟩ (by simp [Private]) fun _ => .inl
  | @scrapped events hevs =>
    have hpriv : ∀ e ∈ allocate true :: events, e.Private := by
      rcases hevs with rfl | rfl <;> simp [Private]
    have hwrote : JustifiedAfter Allowed s.trace (.allocate true :: events) := by
      rcases hevs with rfl | rfl
      · exact ⟨trivial, trivial, trivial⟩
      · exact ⟨trivial, trivial, trivial, trivial⟩
    refine hs.private hcust hnum rfl ?_ ?_ fun _ => .inl
    · refine justifiedAfter_append.mpr ⟨hwrote, justifiedAfter_singleton.mpr ⟨?_, ?_⟩⟩
      · simp
      · exact fun hexposed => absurd hexposed (not_exposed_append
          (not_exposed hs.justified (Nat.le_refl _)) (not_exposed_private hpriv))
    · exact forall_mem_append.mpr ⟨hpriv, by simp [Private]⟩
  | @created key tid offer _ _ _ _ hdma _ hoff
  | @doubted key tid offer _ _ _ _ hdma _ hoff =>
    refine hs.step hcust hnum rfl (offer_justified hoff hdma) ?_ (fun _ => .inl)
    intro dma hexposed
    rw [(offer_exposes hoff hexposed).1]
    simp [segments, exposed, Owner.of]
  | @withdrawn key tid offer _ _ hdma hoff =>
    have hhidden : ∀ dma, ¬ Exposed (written tid.dma ++ offer) dma := by
      intro dma hexposed
      obtain ⟨-, hvis⟩ := offer_exposes hoff hexposed
      simp at hvis
    refine hs.step hcust hnum rfl ?_ ?_ (fun _ => .inl)
    · refine justifiedAfter_append.mpr
        ⟨offer_justified hoff hdma, justifiedAfter_singleton.mpr ⟨?_, ?_⟩⟩
      · simp [written, hdma]
      · exact fun hexposed => absurd hexposed (not_exposed_append
          (not_exposed hs.justified (Nat.le_of_eq hdma.symm)) (hhidden _))
    · exact fun dma hexposed => absurd hexposed (not_exposed_append (hhidden dma)
        (not_exposed_private (by simp [Private])))

/-! ## Statuses -/

theorem Delivery.tracked (h : Delivery status s s') (hvouched : Vouched s status) (hs : Tracked s) :
    Tracked s' := by
  have hcust := h.custody
  have hnum := h.numbered hs.regular.numbered
  -- a status alone exposes nothing and is always allowed
  have hpriv : ∀ e ∈ [consume status], e.Private := by simp [Private]
  cases h with
  | ignored | denied => exact hs.private hcust hnum rfl ⟨trivial, trivial⟩ hpriv fun _ => .inl
  | @cached pending _ _ hp hnumber hstat =>
    refine hs.private hcust hnum rfl ⟨trivial, trivial⟩ hpriv ?_
    refine forall_mem_concat (fun _ => .inl) ?_
    have hout : pending.invalidation ∈ s.outstanding := mem_append_left _
      (mem_map_of_mem (hp.subset mem_cons_self))
    have hans := hvouched.answers hs.regular.numbered hout hnumber
    have hlt := lt_of_getElem? hans
    refine .inr ⟨status.answers, s.trace.length, pending.invalidation, status, hlt, ?_, ?_, rfl,
      ?_, rfl, hstat⟩
    · exact getElem?_of_isPrefix (prefix_append ..) hans
    · exact ⟨rfl, by show updateValid &&& updateValid ≠ 0; decide⟩
    · exact getElem?_concat_length
  | @released pending pendingFlush _ hp hnumber =>
    have hout : pending.baseFlush ∈ s.outstanding := mem_append_right _
      (mem_map_of_mem (hp.subset mem_cons_self))
    have hans := hvouched.answers hs.regular.numbered hout hnumber
    have hlt := lt_of_getElem? hans
    have hmem : pending.tid.dma ∈ s.segments := by
      have hsubl := s.outstanding_segments.subset
      exact hsubl (mem_map_of_mem hout)
    refine hs.private hcust hnum (retire_trace ..) ?_ (by simp [Private]) ?_
    · refine ⟨trivial, ⟨hs.lt hmem, fun _ => ?_⟩, trivial⟩
      have hconf : Confirmed (s.trace.take status.answers) pending.tid.dma :=
        hs.justified.at hans rfl
      refine ⟨status.answers, ?_, .inl ⟨pending.baseFlush, ?_, ⟨rfl, rfl, rfl⟩,
        s.trace.length, status, hlt, getElem?_concat_length, rfl⟩⟩
      · rw [take_append_of_le_length (by omega)]
        exact hconf
      · exact getElem?_of_isPrefix (prefix_append ..) hans
    · intro e he
      rw [(retire_sameQueues ..).cachedDelete] at he
      exact .inl he

/-! ## Flushes and everything else -/

theorem Burst.justified {segment : Nat} {n m : UInt16} (h : Burst segment n events m)
    (hconf : Confirmed t segment) : JustifiedAfter Allowed t events := by
  induction h generalizing t with
  | nil => exact trivial
  | cons _ hsent _ ih =>
    exact justifiedAfter_append.mpr ⟨hsent.justified (fun _ => hconf),
      ih (hconf.mono (prefix_append ..))⟩

theorem Sent.released {e : DpError} (h : Sent c events (.error e)) (hkind : c.kind = .flushCache)
    (hoffset : c.offset = 0) (hconf : Confirmed t c.segment) :
    Released (t ++ events) c.segment := by
  cases h with
  | unaddressed =>
    refine ⟨t.length, ?_, .inr (.inr ?_)⟩
    · rw [take_left']
      · exact hconf
      · rfl
    · rw [getElem?_concat_length, hoffset]
  | refused e =>
    refine ⟨t.length + 1, ?_, .inr (.inl ⟨c, e, ?_, hkind, rfl, hoffset⟩)⟩
    · apply hconf.mono
      rw [take_append, Nat.add_sub_cancel_left, take_of_length_le (by omega)]
      exact prefix_append ..
    · rw [getElem?_append_right (by omega), Nat.add_sub_cancel_left]
      rfl

theorem Flush.tracked (h : Flush s s') (hs : Tracked s) : Tracked s' := by
  have hcust := h.custody
  have hmove : Move s s' := .flush h
  have hnum := hmove.numbered hs.regular.numbered
  obtain ⟨logged, hlog, hpriv⟩ := hmove.logs
  cases h with
  | @sent cached cachedDelete burst events _ _ hp hburst _ hsent =>
    have hconf := hs.cached cached (hp.subset mem_cons_self)
    have heq : logged = burst ++ events := append_cancel_left hlog.symm
    refine hs.private hcust hnum hlog ?_ hpriv ?_
    · rw [heq]
      exact justifiedAfter_append.mpr ⟨hburst.justified hconf,
        hsent.justified (fun _ => hconf.mono (prefix_append ..))⟩
    · exact fun e he => .inl (hp.subset (mem_cons_of_mem _ he))
  | @unsent cached cachedDelete burst events _ _ hp hburst _ hsent =>
    have hcached := hp.subset mem_cons_self
    have hconf := hs.cached cached hcached
    have hconf' : Confirmed (s.trace ++ burst) cached.tid.dma := hconf.mono (prefix_append ..)
    have heq : logged = burst ++ events ++ [.drop cached.tid.dma] := by
      rw [retire_trace] at hlog
      exact append_cancel_left hlog.symm
    have hmem : cached.tid.dma ∈ s.segments := by
      have hret : Owner.of cached.key cached.tid ∈ s.retired := mem_append_left _
        (mem_map_of_mem hcached)
      exact mem_map_of_mem (mem_append_right _ hret)
    refine hs.private hcust hnum hlog ?_ hpriv ?_
    · rw [heq]
      refine justifiedAfter_append.mpr ⟨justifiedAfter_append.mpr ⟨hburst.justified hconf,
        hsent.justified (fun _ => hconf')⟩, justifiedAfter_singleton.mpr
        ⟨hs.lt hmem, fun _ => ?_⟩⟩
      rw [← append_assoc]
      exact hsent.released rfl rfl hconf'
    · intro e he
      rw [(retire_sameQueues ..).cachedDelete] at he
      exact .inl (hp.subset (mem_cons_of_mem _ he))

theorem Move.tracked (h : Move s s') (hs : Tracked s) : Tracked s' := by
  have hcust := h.custody
  have hnum := h.numbered hs.regular.numbered
  cases h with
  | deletion h =>
    cases h with
    | absent => exact hs
    | sent _ _ _ hsent | stranded _ _ _ hsent =>
      exact hs.private hcust hnum rfl (hsent.justified nofun) hsent.private fun _ => .inl
  | flush h => exact h.tracked hs
  | command h =>
    cases h with
    | sent _ _ hsent =>
      exact hs.private hcust hnum rfl (hsent.justified nofun) hsent.private fun _ => .inl
  | same h =>
    refine hs.private hcust hnum (h.trace.trans (append_nil _).symm) trivial (by simp) ?_
    rw [h.cachedDelete]
    exact fun _ => .inl

/-! ## Whole runs -/

theorem exec_tracked (op : Op) (hs : Tracked s) (hfaithful : Faithful s op) :
    Tracked (op.exec P s).state := by
  rcases exec_cases P op s with hadm | ⟨s', hdlvs, hmoves⟩
  · exact hadm.tracked hs
  · -- every delivery leaves the statuses that follow vouched for
    have hmid := moves_keep (I := fun s => Tracked s ∧ ∀ status ∈ op.statuses, Vouched s status)
      (fun _ _ ⟨status, hstat, h⟩ hI => ⟨h.tracked (hI.2 status hstat) hI.1,
        fun other hother => h.vouched (hI.2 other hother)⟩) hdlvs ⟨hs, hfaithful⟩
    exact moves_keep (fun _ _ h => h.tracked) hmoves hmid.1

end

theorem new_tracked : Tracked new where
  regular := new_regular
  justified := trivial
  exposed _ h := by
    obtain ⟨_, _, _, hmem, -⟩ := h
    exact absurd hmem not_mem_nil
  cached _ h := absurd h not_mem_nil

theorem run_tracked (ops : List Op) (hs : Tracked s)
    (hfaithful : ∀ step ∈ (s.run P ops).1, Faithful step.before step.op) :
    Tracked (s.run P ops).2 := by
  induction ops generalizing s with
  | nil => exact hs
  | cons op rest ih =>
    have hfst : Faithful s op := hfaithful _ mem_cons_self
    exact ih (exec_tracked op hs hfst) fun step hstep => hfaithful step (mem_cons_of_mem _ hstep)

/-- In every run with a faithful device: memory that the firmware may know
is dropped only after its invalidation was confirmed and its base flush
then answered or not sent, and until then it has an owner. -/
theorem queue_memory_released_late (P : Platform) (ops : List Op)
    (hfaithful : ∀ step ∈ (new.run P ops).1, Faithful step.before step.op) :
    let last := (new.run P ops).2
    (∀ i dma, last.trace[i]? = some (.drop dma) → Exposed (last.trace.take i) dma →
      Released (last.trace.take i) dma) ∧
    ∀ dma, Exposed last.trace dma → .drop dma ∈ last.trace ∨ dma ∈ last.segments := by
  intro last
  have htracked := run_tracked ops new_tracked hfaithful
  refine ⟨?_, htracked.exposed⟩
  intro i dma hget hexposed
  exact (htracked.justified.at hget).2 hexposed

/-- The whole life of a queue. -/
def retiring : List Op :=
  [.registerPeerAfterFirmwareCreate peer, .peerRxTidSetup false peer 0 1 0,
    .peerRxTidDelete peer 0, .rxTidDelFunc ⟨[.ok ⟨1, 0, 6⟩], none⟩ 0, .flushAged 2000,
    .rxTidDelFunc ⟨[.ok ⟨5, 0, 15⟩], none⟩ 2000]

/-- Both statuses come in time, so the memory goes when it may. -/
theorem retired_queue_released :
    (new.run obliging retiring).2.trace[17]? = some (.drop 0) ∧
    Released ((new.run obliging retiring).2.trace.take 17) 0 := by
  have hd : (new.run obliging retiring).2.trace[17]? = some (.drop 0) := by decide
  refine ⟨hd, (queue_memory_released_late obliging retiring ?_).1 17 0 hd ?_⟩
  · -- only the two polls bring a status
    refine forall_mem_cons.mpr ⟨forall_mem_nil _, forall_mem_cons.mpr ⟨forall_mem_nil _,
      forall_mem_cons.mpr ⟨forall_mem_nil _, forall_mem_cons.mpr ⟨?_,
        forall_mem_cons.mpr ⟨forall_mem_nil _, forall_mem_cons.mpr ⟨?_, forall_mem_nil _⟩⟩⟩⟩⟩⟩
    · refine forall_mem_singleton.mpr ⟨⟨⟨1, .updateRxQueue, 0, 0, deleteParams⟩,
        by decide, by decide, by decide⟩, ?_⟩
      intro c hc _
      have heq : c = ⟨1, .updateRxQueue, 0, 0, deleteParams⟩ := by
        revert c
        decide
      rw [heq]
      exact ⟨6, by decide, by decide⟩
    · refine forall_mem_singleton.mpr ⟨⟨⟨5, .flushCache, 0, 0, baseFlushParams⟩,
        by decide, by decide, by decide⟩, ?_⟩
      intro c hc _
      have heq : c = ⟨5, .flushCache, 0, 0, baseFlushParams⟩ := by
        revert c
        decide
      rw [heq]
      exact ⟨15, by decide, by decide⟩
  · exact ⟨⟨peer, 0, 0, 1, 1⟩, false, none, by decide, rfl, .inl rfl⟩

/-! ## A status that comes too late -/

/-- A platform that takes everything but a base flush. -/
def flushless : Platform where
  allocate _ := true
  write _ _ := true
  syncForDevice _ _ := true
  deviceAddress _ _ _ := true
  publish _ c := if c.kind = .flushCache ∧ c.offset = 0 then some .deviceFault else none
  sendReorderSetup _ _ := none

/-- Two active queues of a peer, with a counter and a trace. -/
def twoActive (baWindowSize : UInt32) (next : UInt16) (trace : Trace) : PeerRxTids :=
  { new with
    tids := [⟨peer, ⟨0, 1, 512, 0⟩⟩, ⟨peer, ⟨1, baWindowSize, 512, 5⟩⟩]
    peers := [peer]
    security := [⟨peer, ⟨none, 0, 0, none, none⟩⟩]
    nextCommandNumber := next
    trace := trace }

/-- Events logged one by one. -/
def snoc (trace events : Trace) : Trace := events.foldl (fun t e => t ++ [e]) trace

variable (trace : Trace)

theorem snoc_eq (events : Trace) : snoc trace events = trace ++ events := by
  induction events generalizing trace with
  | nil => exact (append_nil trace).symm
  | cons e rest ih =>
    show snoc (trace ++ [e]) rest = _
    rw [ih, append_assoc]
    rfl

/-- The command that stops aggregation on the second queue. -/
def stopCommand (next : UInt16) : ReoCommand := ⟨next, .updateRxQueue, 5, 0, stopParams⟩

def stopEvents (next : UInt16) : Trace :=
  [.deviceAddressAt 5 0 true, .publish (stopCommand next) none, .deviceAddress 5 true,
    .sendReorderSetup ⟨peer, 1, 5, 1, 1⟩ false none]

variable (baWindowSize : UInt32)

theorem twoActive_stop (next : UInt16) (trace : Trace) :
    ((Op.rxAmpduStop false peer 1).exec flushless (twoActive baWindowSize next trace)).state =
      twoActive 1 (bump next) (snoc trace (stopEvents next)) := rfl

theorem twoActive_stops (n : Nat) (baWindowSize : UInt32) (k : Nat) (trace : Trace) :
    ∃ baWindowSize' events, ((twoActive baWindowSize (numberAt k) trace).run flushless
        (replicate n (.rxAmpduStop false peer 1))).2 =
          twoActive baWindowSize' (numberAt (k + n)) (trace ++ events) ∧
      ∀ status, .consume status ∉ events := by
  induction n generalizing baWindowSize k trace with
  | zero => exact ⟨baWindowSize, [], by rw [append_nil]; rfl, by simp⟩
  | succ n ih =>
    obtain ⟨baWindowSize', events, hrun, hevs⟩ := ih 1 (k + 1) (trace ++ stopEvents (numberAt k))
    refine ⟨baWindowSize', stopEvents (numberAt k) ++ events, ?_, ?_⟩
    · rw [← bump_numberAt, ← snoc_eq, ← twoActive_stop baWindowSize, snoc_eq, append_assoc,
        Nat.add_right_comm] at hrun
      exact hrun
    · simpa [stopEvents] using hevs

/-- What is logged while the first queue is deleted, a status with its
number comes, and the base flush fails. -/
def lastEvents : Trace :=
  [.deviceAddressAt 0 0 true, .publish ⟨1, .updateRxQueue, 0, 0, deleteParams⟩ none,
    .consume ⟨1, 0, 11⟩,
    .deviceAddressAt 0 384 true, .publish ⟨2, .flushCache, 0, 384, {}⟩ none,
    .deviceAddressAt 0 256 true, .publish ⟨3, .flushCache, 0, 256, {}⟩ none,
    .deviceAddressAt 0 128 true, .publish ⟨4, .flushCache, 0, 128, {}⟩ none,
    .deviceAddressAt 0 0 true,
    .publish ⟨5, .flushCache, 0, 0, baseFlushParams⟩ (some .deviceFault)]

/-- The second queue is stopped so often that the number of the first
stop comes round; the delete of the first queue gets it, and the status
of that first stop is taken for its own. -/
def confusing (n : Nat) : List Op :=
  [.registerPeerAfterFirmwareCreate peer, .peerRxTidSetup false peer 0 1 0,
    .peerRxTidSetup false peer 1 1 0, .rxAmpduStop false peer 1] ++
  replicate n (.rxAmpduStop false peer 1) ++
  [.peerRxTidDelete peer 0, .rxTidDelFunc ⟨[.ok ⟨1, 0, 11⟩], none⟩ 0, .flushAged 2000]

def firstEvents : Trace :=
  written 0 ++ [.deviceAddress 0 true, .sendReorderSetup ⟨peer, 0, 0, 1, 1⟩ false none] ++
  written 5 ++ [.deviceAddress 5 true, .sendReorderSetup ⟨peer, 1, 5, 1, 1⟩ false none] ++
  stopEvents 1

theorem confusing_start : (new.run flushless [.registerPeerAfterFirmwareCreate peer,
    .peerRxTidSetup false peer 0 1 0, .peerRxTidSetup false peer 1 1 0,
    .rxAmpduStop false peer 1]).2 = twoActive 1 (numberAt 1) firstEvents := rfl

/-- The first queue waits for its invalidation, or for its flush. -/
def oneDeleted (baWindowSize : UInt32) (pendingDelete : List PendingTid)
    (cachedDelete : List CachedTid) (trace : Trace) : PeerRxTids :=
  { twoActive baWindowSize 2 trace with
    tids := [⟨peer, ⟨1, baWindowSize, 512, 5⟩⟩]
    pendingDelete := pendingDelete
    cachedDelete := cachedDelete }

theorem twoActive_delete :
    ((Op.peerRxTidDelete peer 0).exec flushless (twoActive baWindowSize 1 trace)).state =
      oneDeleted baWindowSize [⟨1, peer, ⟨0, 1, 512, 0⟩⟩] [] (snoc trace (lastEvents.take 2)) := rfl

theorem oneDeleted_status :
    ((Op.rxTidDelFunc ⟨[.ok ⟨1, 0, 11⟩], none⟩ 0).exec flushless
      (oneDeleted baWindowSize [⟨1, peer, ⟨0, 1, 512, 0⟩⟩] [] trace)).state =
      oneDeleted baWindowSize [] [⟨0, peer, ⟨0, 1, 512, 0⟩⟩] (trace ++ [.consume ⟨1, 0, 11⟩]) := rfl

theorem oneDeleted_flush :
    ((Op.flushAged 2000).exec flushless
      (oneDeleted baWindowSize [] [⟨0, peer, ⟨0, 1, 512, 0⟩⟩] trace)).state.trace =
      snoc trace (lastEvents.drop 3 ++ [.drop 0]) := rfl

theorem confusing_trace {n : Nat} (hwrap : numberAt (1 + n) = 1) :
    ∃ events, (new.run flushless (confusing n)).2.trace =
      firstEvents ++ events ++ lastEvents ++ [.drop 0] ∧ ∀ status, .consume status ∉ events := by
  obtain ⟨baWindowSize, events, hrun, hevs⟩ := twoActive_stops n 1 1 firstEvents
  refine ⟨events, ?_, hevs⟩
  rw [confusing, run_append, run_append, confusing_start, hrun, hwrap, run_cons, run_cons,
    run_cons, twoActive_delete, oneDeleted_status]
  show trace (Outcome.state _) = _
  rw [oneDeleted_flush, snoc_eq, snoc_eq]
  simp [lastEvents]

/-- Memory that the firmware knows is dropped although its invalidation
was never confirmed. -/
theorem released_by_late_status :
    ∃ i, (new.run flushless (confusing 65534)).2.trace[i]? = some (.drop 0) ∧
      Exposed ((new.run flushless (confusing 65534)).2.trace.take i) 0 ∧
      ¬ Released ((new.run flushless (confusing 65534)).2.trace.take i) 0 := by
  obtain ⟨events, htr, hevs⟩ := confusing_trace (n := 65534) (by decide)
  refine ⟨(firstEvents ++ events ++ lastEvents).length, ?_⟩
  rw [htr, getElem?_concat_length, take_left']
  · refine ⟨rfl, ?_, ?_⟩
    · refine ⟨⟨peer, 0, 0, 1, 1⟩, false, none, ?_, rfl, .inl rfl⟩
      exact mem_append_left _ (mem_append_left _ (by decide))
    · rintro ⟨l, hconf, -⟩
      obtain ⟨j, k, c, status, -, hj, hinv, -, hk, hans, -⟩ := hconf.mono ( take_prefix l _)
      -- the only status answers the first stop
      have hstat : status = ⟨1, 0, 11⟩ := by
        have hmem := mem_of_getElem? hk
        simpa [firstEvents, written, stopEvents, hevs, lastEvents] using hmem
      have hstop : (firstEvents ++ events ++ lastEvents)[11]? =
          some (.publish (stopCommand 1) none) :=
        getElem?_of_isPrefix ((prefix_append ..).trans (prefix_append ..)) (by decide)
      rw [← hans, hstat, hstop] at hj
      cases hj
      exact absurd hinv (by decide)
  · rfl

end Drv.Ath11k
