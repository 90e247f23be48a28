import Drv.Base.Slots
import Drv.Ath11k.Srng

/-!
# Rings stay inside their memory

The device's pointer is compared with the host's cursors and never used
to compute one, so whatever it is, a cursor is always the start of an
entry. `Srng.Sound` says so; every operation keeps it, and the offset it
answers is then that of a whole entry. Only the count of free entries
(`number_free_exact`) assumes that the device's pointer is one as well; that
the device writes such a pointer is not shown.
-/

namespace Drv.Ath11k

open List Srng

/-- The start of an entry. -/
def Srng.At (r : Srng) (pointer : Nat) : Prop := r.entryWords ∣ pointer ∧ pointer < r.ringWords

/-- A whole entry of the ring. -/
def Srng.Inside (r : Srng) (access : Access) : Prop :=
  r.entrySize ∣ access.offset ∧ access.length = r.entrySize ∧
    access.offset + access.length ≤ r.ringWords * 4

structure Srng.Sound (r : Srng) : Prop where
  ringWords : r.ringWords = r.entryWords * r.memory.entries.toNat
  entryWords : 0 < r.entryWords ∧ r.entryWords ≤ 26
  entries : 0 < r.memory.entries.toNat
  head : r.At r.head
  tail : r.At r.tail
  reapHead : r.At r.reapHead

/-- The 32-bit sums of the source are those of naturals. -/
theorem Srng.Sound.next_lt {r : Srng} (h : r.Sound) {pointer : Nat} (hp : r.At pointer) :
    pointer + r.entryWords < 2 ^ 32 := by
  have hwords : r.ringWords ≤ 26 * 2 ^ 16 := by
    rw [h.ringWords]
    exact Nat.mul_le_mul h.entryWords.2 r.memory.entries.toNat_lt.le
  obtain ⟨-, hlt⟩ := hp
  have hentry := h.entryWords.2
  omega

/-- A cursor that was taken of the ring. -/
structure SrngCursor.Of (cursor : SrngCursor) (r : Srng) : Prop where
  head : r.At cursor.head
  tail : r.At cursor.tail
  reapHead : r.At cursor.reapHead

variable {ringType : RingType} {memory : RingMemory} {offset : Option Nat}

namespace Srng

/-- Nothing but the cursors and the device's pointer differ. -/
structure Same (r r' : Srng) : Prop where
  memory : r'.memory = r.memory
  entryWords : r'.entryWords = r.entryWords
  ringWords : r'.ringWords = r.ringWords
  direction : r'.direction = r.direction

instance : IsPreorder Srng Same where
  refl _ := ⟨rfl, rfl, rfl, rfl⟩
  trans _ _ _ h h' := ⟨h'.memory.trans h.memory, h'.entryWords.trans h.entryWords,
    h'.ringWords.trans h.ringWords, h'.direction.trans h.direction⟩

variable {pointer : Nat} {r r' : Srng}

theorem Same.at (h : Same r r') : r'.At pointer ↔ r.At pointer := by
  simp only [At, h.entryWords, h.ringWords]

theorem Same.inside (h : Same r r') {access : Access} : r'.Inside access ↔ r.Inside access := by
  simp only [Inside, entrySize, h.entryWords, h.ringWords]

theorem Same.of (h : Same r r') {cursor : SrngCursor} : cursor.Of r' ↔ cursor.Of r :=
  ⟨fun hc => ⟨h.at.mp hc.head, h.at.mp hc.tail, h.at.mp hc.reapHead⟩,
    fun hc => ⟨h.at.mpr hc.head, h.at.mpr hc.tail, h.at.mpr hc.reapHead⟩⟩

theorem Sound.moved (h : r.Sound) (hsame : Same r r') (hh : r.At r'.head) (htail : r.At r'.tail)
    (hreap : r.At r'.reapHead) : r'.Sound where
  ringWords := by rw [hsame.ringWords, hsame.entryWords, hsame.memory, h.ringWords]
  entryWords := hsame.entryWords ▸ h.entryWords
  entries := hsame.memory ▸ h.entries
  head := hsame.at.mpr hh
  tail := hsame.at.mpr htail
  reapHead := hsame.at.mpr hreap

variable {r : Srng}

theorem Sound.ringWords_pos (h : r.Sound) : 0 < r.ringWords := by
  rw [h.ringWords]
  exact Nat.mul_pos h.entryWords.1 h.entries

/-- Entries tile the ring: from the start of one to the end of the ring
there is room for it. -/
theorem Sound.room (h : r.Sound) (hp : r.At pointer) : pointer + r.entryWords ≤ r.ringWords := by
  obtain ⟨⟨k, rfl⟩, hlt⟩ := hp
  rw [h.ringWords] at hlt ⊢
  have hk : k + 1 ≤ r.memory.entries.toNat := Nat.lt_of_mul_lt_mul_left hlt
  calc r.entryWords * k + r.entryWords = r.entryWords * (k + 1) := (Nat.mul_succ ..).symm
    _ ≤ r.entryWords * r.memory.entries.toNat := Nat.mul_le_mul_left _ hk

theorem Sound.following (h : r.Sound) (hp : r.At pointer) : r.At (r.following pointer) :=
  ⟨(Nat.dvd_mod_iff ⟨_, h.ringWords⟩).mpr (Nat.dvd_add hp.1 (dvd_refl _)),
    Nat.mod_lt _ h.ringWords_pos⟩

theorem Sound.following_last (h : r.Sound) : r.following (r.ringWords - r.entryWords) = 0 := by
  have hle := h.room h.head
  rw [Srng.following, Nat.sub_add_cancel (by omega), Nat.mod_self]

variable {a b : Nat}

theorem At.following_inj (ha : r.At a) (hb : r.At b) (heq : r.following a = r.following b) :
    a = b := by
  have hmod := Nat.ModEq.add_right_cancel' r.entryWords heq
  rwa [Nat.ModEq, Nat.mod_eq_of_lt ha.2, Nat.mod_eq_of_lt hb.2] at hmod

theorem Sound.inside (h : r.Sound) (hp : r.At pointer) : r.Inside ⟨pointer * 4, r.entrySize⟩ := by
  have hroom := h.room hp
  refine ⟨Nat.mul_dvd_mul_right hp.1 4, rfl, ?_⟩
  show pointer * 4 + r.entryWords * 4 ≤ r.ringWords * 4
  omega

/-! ## Places

An entry that is counted on without wrapping. -/

/-- The pointer to the entry of a place. -/
def entry (r : Srng) (place : Nat) : Nat := r.entryWords * (place % r.memory.entries.toNat)

theorem Same.entry (h : Same r r') (place : Nat) : r'.entry place = r.entry place := by
  rw [Srng.entry, Srng.entry, h.entryWords, h.memory]

section
variable (h : r.Sound)
include h

variable (place : Nat)

theorem Sound.following_entry : r.following (r.entry place) = r.entry (place + 1) := by
  rw [Srng.following, entry, entry, h.ringWords, ← Nat.mul_succ, Nat.mul_mod_mul_left,
    Nat.succ_eq_add_one, Nat.mod_add_mod]

theorem Sound.entry_eq_iff :
    r.entry a = r.entry b ↔ a % r.memory.entries.toNat = b % r.memory.entries.toNat :=
  Nat.mul_right_inj h.entryWords.1.ne'

theorem Sound.entry_inj (heq : r.entry a = r.entry b) (hle : a ≤ b)
    (hlt : b < a + r.memory.entries.toNat) : a = b :=
  eq_of_mod_eq (h.entry_eq_iff.mp heq) hle hlt

theorem Sound.slot_entry : r.entry place * 4 / r.entrySize = place % r.memory.entries.toNat := by
  have hpos : 0 < r.entrySize := Nat.mul_pos h.entryWords.1 (by decide)
  rw [entry, Nat.mul_right_comm]
  exact Nat.mul_div_cancel_left _ hpos

theorem Sound.entry_at : r.At (r.entry place) := by
  refine ⟨Nat.dvd_mul_right .., ?_⟩
  rw [entry, h.ringWords]
  exact Nat.mul_lt_mul_of_pos_left (Nat.mod_lt _ h.entries) h.entryWords.1

theorem Sound.toNat_entry : (UInt32.ofNat (r.entry place)).toNat = r.entry place := by
  have hlt := h.next_lt (h.entry_at place)
  exact Nat.mod_eq_of_lt (by omega)

/-! ## Cursor operations -/

/-- An operation keeps a ring sound and answers the offset of an entry. -/
structure Keeps (r : Srng) (offset : Option Nat) (r' : Srng) : Prop where
  same : Same r r'
  sound : r'.Sound
  inside : ∀ o ∈ offset, r.Inside ⟨o, r.entrySize⟩

theorem Sound.kept : Keeps r none r := ⟨refl_of Same r, h, by simp⟩

theorem Sound.keeps {r' : Srng} (hsame : Same r r') (hh : r.At r'.head) (htail : r.At r'.tail)
    (hreap : r.At r'.reapHead) (hin : ∀ o ∈ offset, r.Inside ⟨o, r.entrySize⟩) :
    Keeps r offset r' :=
  ⟨hsame, h.moved hsame hh htail hreap, hin⟩

theorem Sound.sourceNext : Keeps r r.sourceNext.1 r.sourceNext.2 := by
  unfold Srng.sourceNext
  split
  · exact h.kept
  · dsimp only
    split
    · exact h.kept
    · have hnx := h.following h.head
      refine h.keeps ⟨rfl, rfl, rfl, rfl⟩ hnx h.tail hnx ?_
      simpa using h.inside h.head

theorem Sound.sourceReapNext : Keeps r r.sourceReapNext.1 r.sourceReapNext.2 := by
  unfold Srng.sourceReapNext
  split
  · exact h.kept
  · dsimp only
    split
    · exact h.kept
    · have hnx := h.following h.reapHead
      refine h.keeps ⟨rfl, rfl, rfl, rfl⟩ h.head h.tail hnx ?_
      simpa using h.inside hnx

theorem Sound.sourceNextReaped : Keeps r r.sourceNextReaped.1 r.sourceNextReaped.2 := by
  unfold Srng.sourceNextReaped
  split
  · exact h.kept
  · refine h.keeps ⟨rfl, rfl, rfl, rfl⟩ (h.following h.head) h.tail h.reapHead ?_
    simpa using h.inside h.head

/-- The tail is compared with the end of the ring only once it is past an
entry; since entries tile the ring, it cannot step over the end. -/
theorem Sound.destinationNext : Keeps r r.destinationNext.1 r.destinationNext.2 := by
  unfold Srng.destinationNext
  split
  · exact h.kept
  · dsimp only
    split
    · refine h.keeps ⟨rfl, rfl, rfl, rfl⟩ h.head ⟨dvd_zero _, h.ringWords_pos⟩ h.reapHead ?_
      simpa using h.inside h.tail
    next hend =>
      have hroom := h.room h.tail
      have htail : r.At (r.tail + r.entryWords) :=
        ⟨Nat.dvd_add h.tail.1 (dvd_refl _), lt_of_le_of_ne hroom hend⟩
      refine h.keeps ⟨rfl, rfl, rfl, rfl⟩ h.head htail h.reapHead ?_
      simpa using h.inside h.tail

theorem Sound.peek : Keeps r r.peek r := by
  refine ⟨refl_of Same r, h, fun o ho => ?_⟩
  unfold Srng.peek at ho
  split at ho
  · split at ho
    · cases ho
      exact h.inside h.head
    · cases ho
  · split at ho
    · cases ho
      exact h.inside h.tail
    · cases ho

theorem Sound.sourceNextPeek : Keeps r r.sourceNextPeek r := by
  refine ⟨refl_of Same r, h, fun o ho => ?_⟩
  unfold Srng.sourceNextPeek at ho
  split at ho
  · cases ho
  · dsimp only at ho
    split at ho
    · cases ho
      exact h.inside (h.following h.head)
    · cases ho

theorem Sound.repointed (pointer : Nat) : { r with cachedHardwarePointer := pointer }.Sound :=
  h.moved ⟨rfl, rfl, rfl, rfl⟩ h.head h.tail h.reapHead

theorem Sound.accessBegin (pointer : UInt32) : Keeps r none (r.accessBegin pointer) :=
  ⟨⟨rfl, rfl, rfl, rfl⟩, h.repointed _, by simp⟩

theorem Sound.checkpoint : r.checkpoint.Of r := ⟨h.head, h.tail, h.reapHead⟩

theorem Sound.restore {cursor : SrngCursor} (hc : cursor.Of r) : Keeps r none (r.restore cursor) :=
  h.keeps ⟨rfl, rfl, rfl, rfl⟩ hc.head hc.tail hc.reapHead (by simp)

end

variable {ringNumber macId : UInt8} {programmed : Except HalError Unit}

theorem eq_of_setup {ring : Srng}
    (h : setup ringType ringNumber macId memory programmed = .ok ring) :
    ∃ id, ring =
      { id, ringType, direction := (config ringType).direction, memory
        entryWords := (config ringType).entryWords
        ringWords := (config ringType).entryWords * memory.entries.toNat
        head := 0, tail := 0, cachedHardwarePointer := 0
        reapHead := (config ringType).entryWords * memory.entries.toNat -
          (config ringType).entryWords
        loopCount := 1 } := by
  unfold setup at h
  split at h
  next id _ =>
    split at h
    · cases h
      exact ⟨id, rfl⟩
    · cases programmed with
      | error => cases h
      | ok =>
        cases h
        exact ⟨id, rfl⟩
  · cases h

theorem setup_sound {ring : Srng} (h : setup ringType ringNumber macId memory programmed = .ok ring)
    (hentries : 0 < memory.entries.toNat) :
    ring.Sound ∧ ring.memory = memory ∧ ring.entrySize = ringType.entrySize := by
  obtain ⟨id, rfl⟩ := eq_of_setup h
  have hwords : 0 < (config ringType).entryWords ∧ (config ringType).entryWords ≤ 26 := by
    cases ringType <;> decide
  have hpos := Nat.mul_pos hwords.1 hentries
  refine ⟨⟨rfl, hwords, hentries, ⟨dvd_zero _, hpos⟩, ⟨dvd_zero _, hpos⟩, ?_, ?_⟩, rfl, rfl⟩
  · exact Nat.dvd_sub (Nat.dvd_mul_right ..) (dvd_refl _)
  · exact Nat.sub_lt hpos hwords.1

/-! ## Occupancy -/

variable {free : Nat}

/-- The call that takes an entry. -/
def next (r : Srng) : Option Nat × Srng :=
  match r.direction with
  | .source => r.sourceNext
  | .destination => r.destinationNext

def nexts (r : Srng) : Nat → Srng
  | 0 => r
  | count + 1 => (r.nexts count).next.2

/-- The pointer that the call compares with the device's. -/
def cursor (r : Srng) : Nat :=
  match r.direction with
  | .source => r.following r.head
  | .destination => r.tail

/-- The device's pointer is so many entries ahead. -/
def Free (r : Srng) (free : Nat) : Prop :=
  free < r.memory.entries.toNat ∧ ∃ place, r.cursor = r.entry place ∧
    r.cachedHardwarePointer = r.entry (place + free)

section
variable (h : r.Sound)
include h

theorem Sound.exists_entry {p : Nat} (hp : r.At p) :
    ∃ place < r.memory.entries.toNat, p = r.entryWords * place := by
  obtain ⟨⟨place, rfl⟩, hlt⟩ := hp
  rw [h.ringWords] at hlt
  exact ⟨place, Nat.lt_of_mul_lt_mul_left hlt, rfl⟩

theorem Sound.free_numberFree (hhw : r.At r.cachedHardwarePointer) : r.Free r.numberFree := by
  have hpos := h.entryWords.1
  obtain ⟨b, hb, hbeq⟩ := h.exists_entry hhw
  -- an entry is where its place is, or a turn before
  have hentry : ∀ place, place = b ∨ place = b + r.memory.entries.toNat →
      r.entryWords * b = r.entry place := by
    rintro place (rfl | rfl)
    · rw [entry, Nat.mod_eq_of_lt hb]
    · rw [entry, Nat.add_mod_right, Nat.mod_eq_of_lt hb]
  unfold Free numberFree cursor
  cases r.direction with
  | source =>
    obtain ⟨a, ha, haeq⟩ := h.exists_entry h.head
    have hcur : r.following (r.entryWords * a) = r.entry (a + 1) := by
      rw [← h.following_entry, entry, Nat.mod_eq_of_lt ha]
    simp only [haeq, hbeq, hcur, h.ringWords, gt_iff_lt, Nat.mul_lt_mul_left hpos, ← Nat.mul_sub,
      ← Nat.mul_add, Nat.mul_div_cancel_left _ hpos]
    split <;> exact ⟨by omega, a + 1, rfl, hentry _ (by omega)⟩
  | destination =>
    obtain ⟨a, ha, haeq⟩ := h.exists_entry h.tail
    have hcur : r.entryWords * a = r.entry a := by rw [entry, Nat.mod_eq_of_lt ha]
    simp only [haeq, hbeq, h.ringWords, ge_iff_le, Nat.mul_le_mul_left_iff hpos, ← Nat.mul_sub,
      ← Nat.mul_add, Nat.mul_div_cancel_left _ hpos]
    split <;> exact ⟨by omega, a, hcur, hentry _ (by omega)⟩

theorem Sound.destinationNext_eq (hdirec : r.direction = .destination)
    (hne : r.tail ≠ r.cachedHardwarePointer) :
    ∃ loop, r.destinationNext =
      (some (r.tail * 4), { r with tail := r.following r.tail, loopCount := loop }) := by
  have hroom := h.room h.tail
  unfold Srng.destinationNext
  rw [if_neg (by simp [hdirec, hne])]
  dsimp only
  split
  next hend =>
    refine ⟨r.loopCount + 1, ?_⟩
    rw [Srng.following, hend, Nat.mod_self]
  next hend =>
    refine ⟨r.loopCount, ?_⟩
    rw [Srng.following, Nat.mod_eq_of_lt (lt_of_le_of_ne hroom hend)]

theorem Sound.next_cases :
    r.cursor = r.cachedHardwarePointer ∧ r.next = (none, r) ∨
    r.cursor ≠ r.cachedHardwarePointer ∧ r.next.1.isSome ∧
      r.next.2.cachedHardwarePointer = r.cachedHardwarePointer ∧
      r.next.2.cursor = r.following r.cursor := by
  cases hd : r.direction with
  | source =>
    by_cases hnx : r.following r.head = r.cachedHardwarePointer
    · simp [next, cursor, hd, Srng.sourceNext, hnx]
    · simp [next, cursor, hd, Srng.sourceNext, hnx]
      rfl
  | destination =>
    by_cases hnx : r.tail = r.cachedHardwarePointer
    · simp [next, cursor, hd, Srng.destinationNext, hnx]
    · obtain ⟨loop, heq⟩ := h.destinationNext_eq hd hnx
      simp [next, cursor, hd, heq, hnx]

theorem Sound.next : Keeps r r.next.1 r.next.2 := by
  unfold Srng.next
  split
  · exact h.sourceNext
  · exact h.destinationNext

theorem Sound.next_free (hf : r.Free free) :
    (r.next.1.isSome ↔ 0 < free) ∧ r.next.2.Free (free - 1) ∧
      r.next.2.cachedHardwarePointer = r.cachedHardwarePointer := by
  obtain ⟨hlt, place, hcur, hhw⟩ := hf
  have hzero : r.cursor = r.cachedHardwarePointer ↔ free = 0 := by
    rw [hcur, hhw]
    refine ⟨fun heq => ?_, fun hz => by rw [hz, Nat.add_zero]⟩
    have hplace := h.entry_inj heq (Nat.le_add_right ..) (by omega)
    omega
  rcases h.next_cases with ⟨heq, hnext⟩ | ⟨hne, hsome, hptr, hcursor⟩
  · obtain rfl := hzero.mp heq
    rw [hnext]
    exact ⟨by simp, ⟨hlt, place, hcur, hhw⟩, rfl⟩
  · have hpos : free ≠ 0 := fun hz => hne (hzero.mpr hz)
    have hsame := h.next.same
    refine ⟨by simp [hsome, Nat.pos_iff_ne_zero, hpos], ⟨?_, place + 1, ?_, ?_⟩, hptr⟩
    · rw [hsame.memory]
      omega
    · rw [hcursor, hcur, h.following_entry, hsame.entry]
    · rw [hptr, hhw, hsame.entry]
      congr 1
      omega

theorem Sound.nexts (hf : r.Free free) (count : Nat) :
    Same r (r.nexts count) ∧ (r.nexts count).Sound ∧ (r.nexts count).Free (free - count) ∧
      (r.nexts count).cachedHardwarePointer = r.cachedHardwarePointer := by
  induction count with
  | zero => exact ⟨refl_of Same r, h, hf, rfl⟩
  | succ count ih =>
    obtain ⟨hsame, hsound, hfree, hptr⟩ := ih
    obtain ⟨-, hfree', hptr'⟩ := hsound.next_free hfree
    exact ⟨trans_of Same hsame hsound.next.same, hsound.next.sound, hfree', hptr'.trans hptr⟩

end

/-- If the device's pointer is the start of an entry, `numberFree` is the
number of calls that succeed before one fails. A source ring never has more
than all entries but one between the device's pointer and the head. -/
theorem number_free_exact (r : Srng) (h : r.Sound) (hhw : r.At r.cachedHardwarePointer) :
    (∀ count, (r.nexts count).next.1.isSome ↔ count < r.numberFree) ∧
    (r.peek.isSome ↔ 0 < r.numberFree) ∧
    (r.direction = .source → ∀ count, ∃ place held, r.cachedHardwarePointer = r.entry place ∧
      (r.nexts count).head = r.entry (place + held) ∧
      held + (r.numberFree - count) + 1 = r.memory.entries.toNat) := by
  have hf := h.free_numberFree hhw
  refine ⟨fun count => ?_, ?_, fun hd count => ?_⟩
  · obtain ⟨-, hsound, hfree, -⟩ := h.nexts hf count
    rw [(hsound.next_free hfree).1]
    omega
  · have hpeek : r.peek.isSome ↔ r.cursor ≠ r.cachedHardwarePointer := by
      unfold peek cursor
      cases r.direction <;> simp
    rw [← (h.next_free hf).1, hpeek]
    rcases h.next_cases with ⟨heq, hnext⟩ | ⟨hne, hsome, -⟩
    · simp [heq, hnext]
    · simp [hne, hsome]
  · obtain ⟨hsame, hsound, ⟨hlt, place, hcur, hptr⟩, hhw'⟩ := h.nexts hf count
    rw [hsame.memory] at hlt
    refine ⟨place + (r.numberFree - count), r.memory.entries.toNat - 1 - (r.numberFree - count),
      ?_, ?_, by omega⟩
    · rw [← hhw', hptr, hsame.entry]
    · rw [← hsame.entry]
      refine At.following_inj hsound.head (hsound.entry_at _) ?_
      rw [cursor, hsame.direction, hd] at hcur
      dsimp only at hcur
      rw [hcur, hsound.following_entry, hsound.entry_eq_iff, hsame.memory,
        show place + (r.numberFree - count) + (r.memory.entries.toNat - 1 -
          (r.numberFree - count)) + 1 = place + r.memory.entries.toNat by omega, Nat.add_mod_right]

theorem number_free_four :
    ∃ r, setup .ceSource 0 0 (allocateCeRing 4 16) (.ok ()) = .ok r ∧ r.numberFree = 3 ∧
      ∀ count, (r.nexts count).next.1.isSome ↔ count < r.numberFree := by
  refine ⟨_, rfl, rfl, (number_free_exact _ ?_ ⟨dvd_zero _, by decide⟩).1⟩
  exact (setup_sound (rfl : setup .ceSource 0 0 _ (.ok ()) = .ok _) (by decide)).1

end Srng

/-! ## The rings of the data path -/

variable {α : Type}

namespace HalDpRings

open Srng

variable {ring : Srng}

/-- Sound, and otherwise the ring that was started from. -/
abbrev Tracks (ring r : Srng) : Prop := Same ring r ∧ r.Sound

/-- What a call accesses are entries of the ring. -/
abbrev Accesses (ring : Srng) (x : OnRing α) : Prop := Makes (Tracks ring) ring.Inside x

theorem Tracks.keeps {r r' : Srng} (h : Tracks ring r) (hk : r.Keeps offset r') : Tracks ring r' :=
  ⟨trans_of Same h.1 hk.same, hk.sound⟩

theorem cursorStep_issues {f : Srng → Option Nat × Srng}
    (h : ∀ r : Srng, r.Sound → r.Keeps (f r).1 (f r).2) :
    Accesses ring (cursorStep f) := by
  intro r hr
  exact ⟨hr.keeps (h r hr.2), by simp [cursorStep], by simp, by simp⟩

theorem accessBeginRemote_issues (answers : RingAnswers) :
    Accesses ring (accessBeginRemote answers) := by
  refine .bind (Q := fun _ => True) (.ofExcept (by simp) (by simp)) fun pointer _ => ?_
  exact .modify fun r hr => hr.keeps (hr.2.accessBegin pointer)

theorem restore_issues {cursor : SrngCursor} (hc : cursor.Of ring) :
    Accesses ring (Eff.modify (·.restore cursor) : OnRing Unit) :=
  .modify fun _ hr => hr.keeps (hr.2.restore (hr.1.of.mpr hc))

section
variable (answers : RingAnswers)

theorem advance_issues {next : Srng → Option Nat × Srng}
    (h : ∀ r : Srng, r.Sound → r.Keeps (next r).1 (next r).2) (offset : Nat) :
    Accesses ring (advance answers next offset) := by
  refine .bind (Q := fun c => c.Of ring) (.look fun r hr => hr.1.of.mp hr.2.checkpoint)
    fun cursor hc => .bind (cursorStep_issues h) fun moved _ => .ite (fun _ => ?_) fun _ => ?_
  · exact .bind (restore_issues hc) fun _ _ => .fail _ trivial
  · split
    · exact .pure trivial
    · exact .bind (restore_issues hc) fun _ _ => .fail _ trivial

theorem entry_issues {length : Nat} (hlen : length = ring.entrySize) {none : OnRing α}
    {some : Nat → OnRing α} (hn : Accesses ring none) (hsome : ∀ o, Accesses ring (some o)) :
    Accesses ring (do
      match ← Eff.look peek with
      | .none => none
      | .some offset => do
        Eff.call ⟨offset, length⟩ fun r => (answers.entry, r)
        some offset) := by
  refine .bind (Q := fun offset => ∀ o ∈ offset, ring.Inside ⟨o, ring.entrySize⟩)
    (.look fun r hr => ?_) fun offset ho => ?_
  · intro o ho
    have hinside := hr.2.peek.inside o ho
    rw [hr.1.inside] at hinside
    rwa [entrySize, hr.1.entryWords] at hinside
  · cases offset with
    | none => exact hn
    | some offset =>
      refine .bind (.call (Q := fun _ => True) ?_ (fun r hr => hr) (by simp) (by simp))
        fun _ _ => hsome offset
      rw [hlen]
      exact ho offset rfl

theorem publish_issues (descriptor : Bytes) : Accesses ring (publish answers descriptor) := by
  refine .bind (.look fun r hr => hr.1) fun r hr =>
    .ite (fun _ => .fail _ trivial) fun _ =>
      Issues.ite (fun _ => .fail _ trivial) fun hlen =>
        Issues.bind (accessBeginRemote_issues answers) fun _ _ =>
          entry_issues answers ?_ (.fail _ trivial)
            fun offset => advance_issues answers (fun r hr => hr.sourceNext) offset
  rw [not_not.mp hlen, entrySize, entrySize, hr.entryWords]

theorem consume_issues : Accesses ring (consume answers) := by
  refine .bind (.look fun r hr => hr.1) fun r hr =>
    .ite (fun _ => .fail _ trivial) fun _ =>
      Issues.bind (accessBeginRemote_issues answers) fun _ _ =>
        entry_issues answers ?_ (.pure trivial) fun offset =>
          Issues.bind (advance_issues answers (fun r hr => hr.destinationNext) offset)
            fun _ _ => .pure trivial
  rw [entrySize, entrySize, hr.entryWords]

end

end HalDpRings

/-! ## Runs -/

/-- The state of a run on a ring that was sound at first. -/
structure SrngRun.Contained (ring : Srng) (s : SrngRun) : Prop where
  same : Same ring s.ring
  sound : s.ring.Sound
  cursors : ∀ cursor ∈ s.cursors, cursor.Of ring

variable {ring : Srng} {s : SrngRun}
section
variable (h : s.Contained ring)
include h

theorem SrngRun.Contained.keeps {r : Srng} (hk : Srng.Keeps s.ring offset r) :
    (∀ a ∈ SrngOp.answered s.ring offset, ring.Inside a) ∧ { s with ring := r }.Contained ring := by
  refine ⟨fun a ha => ?_, trans_of Same h.same hk.same, hk.sound, h.cursors⟩
  simp only [SrngOp.answered, mem_map, Option.mem_toList] at ha
  obtain ⟨o, ho, rfl⟩ := ha
  exact h.same.inside.mp (hk.inside o ho)

theorem SrngRun.Contained.onRing {x : HalDpRings.OnRing α} (hx : HalDpRings.Accesses ring x) :
    (∀ a ∈ (x s.ring).calls, ring.Inside a) ∧
      { s with ring := (x s.ring).state }.Contained ring := by
  obtain ⟨⟨hsame, hsound⟩, hcs, -⟩ := hx s.ring ⟨h.same, h.sound⟩
  exact ⟨hcs, hsame, hsound, h.cursors⟩

theorem SrngOp.exec_contained (op : SrngOp) :
    (∀ a ∈ (op.exec s).1, ring.Inside a) ∧ (op.exec s).2.Contained ring := by
  cases op with
  | sourceNext => exact h.keeps h.sound.sourceNext
  | sourceReapNext => exact h.keeps h.sound.sourceReapNext
  | sourceNextReaped => exact h.keeps h.sound.sourceNextReaped
  | destinationNext => exact h.keeps h.sound.destinationNext
  | peek => exact h.keeps h.sound.peek
  | sourceNextPeek => exact h.keeps h.sound.sourceNextPeek
  | checkpoint =>
    have hchk := h.same.of.mp h.sound.checkpoint
    exact ⟨by simp [exec], h.same, h.sound, forall_mem_concat h.cursors hchk⟩
  | restore place =>
    cases hget : s.cursors[place]? with
    | none => simpa only [exec, hget] using ⟨by simp, h⟩
    | some cursor =>
      have hc := h.cursors cursor (mem_of_getElem? hget)
      simp only [exec, hget]
      exact h.keeps (h.sound.restore (h.same.of.mpr hc))
  | accessBegin pointer => exact h.keeps (h.sound.accessBegin pointer)
  | publish answers descriptor => exact h.onRing (HalDpRings.publish_issues answers descriptor)
  | consume answers => exact h.onRing (HalDpRings.consume_issues answers)

theorem srngRun_contained (ops : List SrngOp) :
    (∀ a ∈ (srngRun s ops).1, ring.Inside a) ∧ (srngRun s ops).2.Contained ring := by
  induction ops generalizing s with
  | nil => exact ⟨by simp [srngRun], h⟩
  | cons op rest ih =>
    obtain ⟨hacc, hnx⟩ := op.exec_contained h
    obtain ⟨hlater, hl⟩ := ih hnx
    exact ⟨forall_mem_append.mpr ⟨hacc, hlater⟩, hl⟩

end

/-! ## The memory -/

/-- Memory that an allocator gives to a ring of a type. -/
inductive RingMemory.AllocatedFor : RingType → RingMemory → Prop where
  | ceSource (entries : UInt16) : AllocatedFor .ceSource (allocateCeRing entries 16)
  | ceDestination (entries : UInt16) : AllocatedFor .ceDestination (allocateCeRing entries 8)
  | ceStatus (entries : UInt16) : AllocatedFor .ceDestinationStatus (allocateCeRing entries 16)
  | dataPath (ringType : RingType) (entries : UInt16) :
      AllocatedFor ringType (allocateDpRing ringType entries)

theorem RingMemory.AllocatedFor.le (h : AllocatedFor ringType memory) :
    memory.entries.toNat * ringType.entrySize ≤ memory.dmaLen := by
  cases h with
  | ceSource entries | ceDestination entries | ceStatus entries => exact Nat.le_add_right _ 8
  | dataPath ringType entries =>
    have hlt := entries.toNat_lt
    have hmod : min entries.toNat ringType.maxEntries % 2 ^ 16 =
        min entries.toNat ringType.maxEntries := Nat.mod_eq_of_lt (by omega)
    show (UInt16.ofNat (min entries.toNat ringType.maxEntries)).toNat * _ ≤ _
    rw [UInt16.toNat_ofNat', hmod]
    exact Nat.le_add_right _ 7

/-- Whatever the device writes as its pointer and whatever is asked, the
cursors are starts of entries, and every offset that is answered or
accessed is that of a whole entry in the memory of the ring. -/
theorem srng_contained (ringType : RingType) (ringNumber macId : UInt8) (memory : RingMemory)
    (programmed : Except HalError Unit) (ring : Srng)
    (hsetup : setup ringType ringNumber macId memory programmed = .ok ring)
    (hentries : 0 < memory.entries.toNat) (ops : List SrngOp) :
    (∀ pointer ∈ [(srngRun ⟨ring, []⟩ ops).2.ring.head, (srngRun ⟨ring, []⟩ ops).2.ring.tail,
        (srngRun ⟨ring, []⟩ ops).2.ring.reapHead],
      ring.entryWords ∣ pointer ∧ pointer < ring.ringWords) ∧
    ∀ access ∈ (srngRun ⟨ring, []⟩ ops).1,
      access.length = ring.entrySize ∧ ring.entrySize ∣ access.offset ∧
      access.offset + access.length ≤ memory.entries.toNat * ring.entrySize ∧
      (memory.AllocatedFor ringType → access.offset + access.length ≤ memory.dmaLen) := by
  obtain ⟨hsound, rfl, hsz⟩ := setup_sound hsetup hentries
  have hstart : SrngRun.Contained ring ⟨ring, []⟩ := ⟨refl_of Same ring, hsound, by simp⟩
  obtain ⟨hacc, hl⟩ := srngRun_contained hstart ops
  refine ⟨?_, fun access ha => ?_⟩
  · simp only [forall_mem_cons, not_mem_nil, false_implies, implies_true, and_true]
    exact ⟨hl.same.at.mp hl.sound.head, hl.same.at.mp hl.sound.tail,
      hl.same.at.mp hl.sound.reapHead⟩
  · obtain ⟨hdvd, hlen, hend⟩ := hacc access ha
    have hbs : ring.ringWords * 4 = ring.memory.entries.toNat * ring.entrySize := by
      rw [hsound.ringWords, entrySize]
      ring
    rw [hbs] at hend
    refine ⟨hlen, hdvd, hend, fun halloc => hend.trans ?_⟩
    rw [hsz]
    exact halloc.le

/-- A ring of four entries, and a device that answers nonsense. -/
theorem srng_contained_unaligned :
    ∃ ring, setup .ceSource 0 0 (allocateCeRing 4 16) (.ok ()) = .ok ring ∧
      ∀ access ∈ (srngRun ⟨ring, []⟩ [.accessBegin 0xffffffff, .sourceNext, .checkpoint,
          .accessBegin 7, .sourceReapNext, .restore 0, .sourceNextPeek]).1,
        access.offset + access.length ≤ 4 * ring.entrySize :=
  ⟨_, rfl, fun access ha => ((srng_contained .ceSource 0 0 (allocateCeRing 4 16) (.ok ()) _ rfl
    (by decide) _).2 access ha).2.2.1⟩

end Drv.Ath11k
