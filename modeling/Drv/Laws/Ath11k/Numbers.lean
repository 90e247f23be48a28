import Drv.Laws.Ath11k.Custody

/-!
# Command numbers

The counter of the controller takes one step for each command it tries to
send, so the number of a command is the count of the attempts before it,
wrapped (`Numbered`). Two commands with one number are therefore at least
65535 attempts apart (`numberAt_inj`). An attempt that the ring refuses
counts as well.
-/

namespace Drv.Ath11k

open List

/-! ## The number of an attempt -/

/-- The number that the counter has after so many attempts. -/
def numberAt (k : Nat) : UInt16 := UInt16.ofNat (k % 65535 + 1)

theorem toNat_numberAt (k : Nat) : (numberAt k).toNat = k % 65535 + 1 := by
  rw [numberAt, UInt16.toNat_ofNat']
  omega

theorem bump_numberAt (k : Nat) : bump (numberAt k) = numberAt (k + 1) := by
  have hsucc : (numberAt k + 1).toNat = (k % 65535 + 2) % 65536 := by
    rw [UInt16.toNat_add, toNat_numberAt]
    rfl
  apply UInt16.toNat_inj.mp
  rw [toNat_numberAt]
  show (if numberAt k + 1 ≤ 1 then 1 else numberAt k + 1 : UInt16).toNat = _
  split
  next hle =>
    rw [UInt16.le_iff_toNat_le, hsucc] at hle
    simp only [UInt16.reduceToNat] at hle ⊢
    omega
  next hle =>
    rw [UInt16.le_iff_toNat_le, hsucc] at hle
    simp only [UInt16.reduceToNat] at hle
    omega

theorem numberAt_inj {a b t : Nat} (ha : a ≤ t) (hb : b ≤ t) (ha' : t < a + 65535)
    (hb' : t < b + 65535) (h : numberAt a = numberAt b) : a = b := by
  have hnat := congrArg UInt16.toNat h
  rw [toNat_numberAt, toNat_numberAt] at hnat
  omega

/-! ## The numbers in a trace -/

/-- An event that is neither an attempt nor a command. -/
def Event.Plain : Event → Prop
  | deviceAddressAt .. | publish .. => False
  | _ => True

theorem attempts_plain {events : Trace} (h : ∀ e ∈ events, e.Plain) : attempts events = 0 := by
  rw [attempts, countP_eq_zero]
  intro e he
  have := h e he
  cases e <;> simp_all [Event.Plain]

/-- The counter counts the attempts, and a published command carries the
number of its own. -/
structure Numbered (n : UInt16) (t : Trace) : Prop where
  next : n = numberAt (attempts t)
  command : ∀ j c error, t[j]? = some (.publish c error) →
    ∃ i segment offset ok, j = i + 1 ∧ t[i]? = some (.deviceAddressAt segment offset ok) ∧
      c.commandNumber = numberAt (attempts (t.take i))

namespace Numbered

variable {n m : UInt16} {t events : Trace}

theorem command_append (h : Numbered n t) (events : Trace) {j : Nat} {c : ReoCommand}
    {error : Option HalError} (hj : j < t.length)
    (hget : (t ++ events)[j]? = some (.publish c error)) :
    ∃ i segment offset ok, j = i + 1 ∧
      (t ++ events)[i]? = some (.deviceAddressAt segment offset ok) ∧
      c.commandNumber = numberAt (attempts ((t ++ events).take i)) := by
  rw [getElem?_append_left hj] at hget
  obtain ⟨i, segment, offset, ok, rfl, hi, hnumber⟩ := h.command j c error hget
  refine ⟨i, segment, offset, ok, rfl, ?_, ?_⟩
  · rw [getElem?_append_left (by omega)]
    exact hi
  · rw [take_append_of_le_length (by omega)]
    exact hnumber

theorem plain (h : Numbered n t) (hevs : ∀ e ∈ events, e.Plain) : Numbered n (t ++ events) where
  next := by rw [attempts_append, attempts_plain hevs, Nat.add_zero, h.next]
  command j c error hget := by
    by_cases hj : j < t.length
    · exact h.command_append events hj hget
    · rw [getElem?_append_right (by omega)] at hget
      exact (hevs _ (mem_of_getElem? hget)).elim

theorem sent {c : ReoCommand} {result : Except DpError UInt16} (h : Numbered n t)
    (hsent : Sent c events result) (hn : c.commandNumber = n) :
    Numbered (bump n) (t ++ events) where
  next := by rw [attempts_append, hsent.attempts_eq, h.next, bump_numberAt]
  command j c' error hget := by
    by_cases hj : j < t.length
    · exact h.command_append events hj hget
    · rw [getElem?_append_right (by omega)] at hget
      -- a new command follows its own attempt
      have hnew : ∀ k ok e, [Event.deviceAddressAt c.segment c.offset ok, .publish c e][k]? =
          some (.publish c' error) → k = 1 ∧ c' = c := by
        intro k ok e hk
        match k with
        | 0 => simp at hk
        | 1 => simp at hk; exact ⟨rfl, hk.1.symm⟩
        | k + 2 => simp at hk
      have hat : j = t.length + 1 ∧ c' = c ∧ ∃ ok, events[0]? =
          some (.deviceAddressAt c.segment c.offset ok) := by
        cases hsent with
        | unaddressed =>
          have := mem_of_getElem? hget
          simp at this
        | refused e | published =>
          obtain ⟨hk, hc⟩ := hnew _ _ _ hget
          exact ⟨by omega, hc, _, rfl⟩
      obtain ⟨rfl, rfl, ok, hfst⟩ := hat
      refine ⟨t.length, c'.segment, c'.offset, ok, rfl, ?_, ?_⟩
      · rw [getElem?_append_right (Nat.le_refl _), Nat.sub_self]
        exact hfst
      · rw [take_left', hn, h.next]
        rfl

theorem burst {segment : Nat} (h : Numbered n t) (hburst : Burst segment n events m) :
    Numbered m (t ++ events) := by
  induction hburst generalizing t with
  | nil =>
    rw [append_nil]
    exact h
  | cons _ hsent _ ih =>
    rw [← append_assoc]
    exact ih (h.sent hsent rfl)

end Numbered

def PeerRxTids.Numbered (s : PeerRxTids) : Prop := Ath11k.Numbered s.nextCommandNumber s.trace

section
variable {s s' : PeerRxTids}

theorem SameQueues.numbered (h : SameQueues s s') (hs : s.Numbered) : s'.Numbered := by
  rw [PeerRxTids.Numbered, h.nextCommandNumber, h.trace]
  exact hs

theorem Offered.plain {request : PeerReorderQueueSetup} {nonVisible : Bool} {events : Trace}
    {result : Except DpError Unit} (h : Offered request nonVisible events result) :
    ∀ e ∈ events, e.Plain := by
  cases h <;> simp [Event.Plain]

theorem written_plain (dma : Nat) : ∀ e ∈ written dma, e.Plain := by
  simp [written, Event.Plain]

theorem drop_plain (dma : Nat) : ∀ e ∈ [Event.drop dma], e.Plain := by
  simp [Event.Plain]

theorem Admission.numbered (h : Admission s s') (hs : s.Numbered) : s'.Numbered := by
  cases h with
  | refused => exact hs
  | unsent _ _ hsent => exact .sent hs hsent rfl
  | @updated _ _ events offer _ _ _ _ _ _ hsent hoff =>
    have hnum := (Numbered.sent hs hsent rfl).plain hoff.plain
    rw [append_assoc] at hnum
    exact hnum
  | unallocated => exact hs.plain (by simp [Event.Plain])
  | scrapped hevs =>
    apply Numbered.plain hs
    rcases hevs with rfl | rfl <;> simp [Event.Plain]
  | created _ _ _ _ _ hoff | doubted _ _ _ _ _ hoff =>
    exact hs.plain (forall_mem_append.mpr ⟨written_plain _, hoff.plain⟩)
  | withdrawn _ _ hoff =>
    exact hs.plain (forall_mem_concat (forall_mem_append.mpr ⟨written_plain _, hoff.plain⟩) trivial)

theorem Delivery.numbered {status : ReoStatus} (h : Delivery status s s') (hs : s.Numbered) :
    s'.Numbered := by
  cases h with
  | ignored | cached | denied => exact hs.plain (by simp [Event.Plain])
  | released => exact (retire_sameQueues ..).numbered (hs.plain (by simp [Event.Plain]))

theorem Move.numbered (h : Move s s') (hs : s.Numbered) : s'.Numbered := by
  cases h with
  | deletion h =>
    cases h with
    | absent => exact hs
    | sent _ _ _ hsent | stranded _ _ _ hsent => exact .sent hs hsent rfl
  | flush h =>
    cases h with
    | sent _ hburst _ hsent =>
      have hnum := (hs.burst hburst).sent hsent rfl
      rw [append_assoc] at hnum
      exact hnum
    | @unsent cached _ _ _ _ _ _ hburst _ hsent =>
      apply (retire_sameQueues ..).numbered
      have hnum := ((hs.burst hburst).sent hsent rfl).plain (drop_plain cached.tid.dma)
      simpa [PeerRxTids.Numbered, PeerRxTids.logged] using hnum
  | command h =>
    cases h with
    | sent _ _ hsent => exact .sent hs hsent rfl
  | same h => exact h.numbered hs

end

theorem new_numbered : PeerRxTids.new.Numbered where
  next := by decide
  command j c error hget := by simp [PeerRxTids.new] at hget

end Drv.Ath11k
