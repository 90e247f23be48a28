import Drv.Ath11k.BufferIds
import Mathlib.Data.Nat.Bitwise

/-!
# Identifiers are found while there are any

One turn from the cursor meets every identifier of the range
(`nextUnused_complete`), and the cursor for frames to send stays in its
range (`MsduCursor.le`). Which identifiers are in use is a parameter: that
it matches what the device holds is not shown here.
-/

namespace Drv.Ath11k

/-- An identifier of the range that is free is found if there is one, and
only then. -/
def Complete (isUsed : Nat → Bool) (first last : Nat) (answer : Except DpError Nat) : Prop :=
  ((∃ id, first ≤ id ∧ id ≤ last ∧ isUsed id = false) →
    ∃ id, answer = .ok id ∧ first ≤ id ∧ id ≤ last ∧ isUsed id = false) ∧
  ((∃ e, answer = .error e) ↔ ∀ id, first ≤ id → id ≤ last → isUsed id = true)

variable {next : Nat}

section
variable {candidate : Nat → Nat} {first last : Nat} (isUsed : Nat → Bool)
  (hcand : ∀ id, first ≤ id → id ≤ last → candidate id = id)
include hcand

/-- Failing, the candidates of `turns` turns are all in use. -/
theorem nextUnused_spec (turns next id : Nat) (hid : candidate next = id) (hlo : first ≤ id)
    (hhi : id ≤ last) :
    match (nextUnused candidate first last isUsed turns next).1 with
    | .ok found => first ≤ found ∧ found ≤ last ∧ isUsed found = false
    | .error _ => ∀ other, first ≤ other → other ≤ last →
      id ≤ other ∧ other < id + turns ∨ other + (last - first + 1) < id + turns →
      isUsed other = true := by
  induction turns generalizing next id with
  | zero =>
    intro other _ _ hother
    omega
  | succ turns ih =>
    rw [nextUnused, hid]
    cases hused : isUsed id with
    | false => exact ⟨hlo, hhi, hused⟩
    | true =>
      obtain ⟨id', hid'⟩ : ∃ id', (if id = last then first else id + 1) = id' := ⟨_, rfl⟩
      have hrange : first ≤ id' ∧ id' ≤ last := by
        split at hid' <;> omega
      have hrest := ih id' id' (hcand id' hrange.1 hrange.2) hrange.1 hrange.2
      simp only [if_true, hid']
      split at hrest
      · exact hrest
      · intro other hlo' hhi' hother
        by_cases heq : other = id
        · rw [heq, hused]
        · refine hrest other hlo' hhi' ?_
          split at hid' <;> omega

/-- A whole turn meets every identifier of the range. -/
theorem nextUnused_complete (hlo : first ≤ candidate next) (hhi : candidate next ≤ last) :
    Complete isUsed first last
      (nextUnused candidate first last isUsed (last - first + 1) next).1 := by
  have hspec := nextUnused_spec isUsed hcand (last - first + 1) next _ rfl hlo hhi
  unfold Complete
  split at hspec
  next found hfound =>
    refine ⟨fun _ => ⟨found, hfound, hspec⟩, by simp [hfound], fun hall => ?_⟩
    simp [hall found hspec.1 hspec.2.1] at hspec
  next e he =>
    have hall : ∀ id, first ≤ id → id ≤ last → isUsed id = true :=
      fun id hlo' hhi' => hspec id hlo' hhi' (by omega)
    refine ⟨?_, fun _ => hall, fun _ => ⟨e, he⟩⟩
    rintro ⟨id, hlo', hhi', hfree⟩
    simp [hall id hlo' hhi'] at hfree

end

section
variable {candidate : Nat → Nat} {last : Nat} {isUsed : Nat → Bool}

theorem nextUnused_cursor (hcand : ∀ next ≤ last, candidate next ≤ last) (turns : Nat)
    (h : next ≤ last) : (nextUnused candidate 0 last isUsed turns next).2 ≤ last := by
  induction turns generalizing next with
  | zero => exact h
  | succ turns ih =>
    have hle := hcand next h
    have hnext : (if candidate next = last then 0 else candidate next + 1) ≤ last := by
      split <;> omega
    unfold nextUnused
    dsimp only
    split
    · exact ih hnext
    · exact hnext

theorem MsduCursor.le {β : Type} (h : MsduCursor β next) : next ≤ maxMsduId := by
  induction h with
  | new => exact Nat.zero_le _
  | allocated _ _ ih => exact nextUnused_cursor (fun _ h => h) _ ih

end

/-- With no frame in flight the cursor moves on by one. -/
theorem MsduCursor.of_le {β : Type} (h : next ≤ maxMsduId) : MsduCursor β next := by
  induction next with
  | zero => exact .new
  | succ next ih =>
    have hstep : (allocateMsduId ([] : List (PendingTx β)) next).2 = next + 1 :=
      if_neg (Nat.ne_of_lt h)
    rw [← hstep]
    exact .allocated (ih (by omega)) []

/-- Both allocators find an identifier of their range that is not in use
whenever there is one, from every value of their cursor. -/
theorem identifiers_complete {β : Type} :
    (∀ (pending : List (PendingTx β)) (next : Nat), MsduCursor β next →
      Complete (fun id => pending.any (·.msduId = id)) 0 maxMsduId
        (allocateMsduId pending next).1) ∧
    ∀ (isUsed : Nat → Bool) (next : Nat),
      Complete isUsed 1 rxBufferIdMask (nextUnusedRxBufferId isUsed next).1 := by
  constructor
  · intro pending next h
    exact nextUnused_complete _ (fun _ _ _ => rfl) (Nat.zero_le _) h.le
  · intro isUsed next
    have hmask : ∀ n, n &&& rxBufferIdMask = n % (rxBufferIdMask + 1) := fun n =>
      Nat.and_two_pow_sub_one_eq_mod n 18
    have hpos : 1 ≤ rxBufferIdMask := by decide
    refine nextUnused_complete isUsed (fun id hlo hhi => ?_) (Nat.le_max_right _ _) ?_
    · rw [hmask, Nat.mod_eq_of_lt (by omega), max_eq_left hlo]
    · have hlt := Nat.mod_lt next (Nat.succ_pos rxBufferIdMask)
      rw [hmask]
      exact Nat.max_le.mpr ⟨Nat.le_of_lt_succ hlt, hpos⟩

/-- The last identifier and the first are in use, and the cursor is at the
last. -/
theorem identifiers_complete_wrapped :
    let pending : List (PendingTx Unit) := [⟨maxMsduId, ()⟩, ⟨0, ()⟩]
    allocateMsduId pending maxMsduId = (.ok 1, 2) ∧
      Complete (fun id => pending.any (·.msduId = id)) 0 maxMsduId (.ok 1) := by
  intro pending
  have hfound : allocateMsduId pending maxMsduId = (.ok 1, 2) := rfl
  have hcomplete := identifiers_complete.1 pending maxMsduId (.of_le (Nat.le_refl _))
  rw [hfound] at hcomplete
  exact ⟨hfound, hcomplete⟩

end Drv.Ath11k
