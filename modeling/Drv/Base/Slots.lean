import Mathlib.Data.List.Rotate
import Mathlib.Data.Nat.ModEq

/-!
# A queue in a ring of slots

A queue is kept in a list of slots used as a ring: the entries are in the
slots from the first one on, around the end of the list, and every other
slot is vacant. `Holds slots first queue` says so for a first place that
counts on without wrapping, so that a place is the number of an entry and
a slot its remainder.

The rules for an entry put behind the queue (`Holds.put`), one taken from
its front (`Holds.take`) and one exchanged where it stands
(`Holds.exchange`) are all read off the ring turned to its first slot.
-/

namespace Drv

open List

/-- Two places less than a turn apart that share a slot are one. -/
theorem eq_of_mod_eq {a b n : Nat} (h : a % n = b % n) (hle : a ≤ b) (hlt : b < a + n) : a = b := by
  obtain ⟨k, hk⟩ := Nat.exists_eq_add_of_le hle
  have hdvd : n ∣ k := (Nat.modEq_iff_dvd' hle).mp h |>.trans (by simp [hk])
  have hk0 : k = 0 := Nat.eq_zero_of_dvd_of_lt hdvd (by omega)
  omega

variable {α : Type}

theorem set_of_getElem? {l : List α} {i : Nat} {a : α} (h : l[i]? = some a) : l.set i a = l := by
  obtain ⟨hlt, rfl⟩ := List.getElem?_eq_some_iff.mp h
  exact set_getElem_self hlt

/-- The slots from `first` on hold the queue and the others nothing. -/
structure Holds (slots : List (Option α)) (first : Nat) (queue : List α) : Prop where
  length_le : queue.length ≤ slots.length
  turned : slots.rotate first =
    queue.map some ++ replicate (slots.length - queue.length) none

theorem rotate_set {slots : List (Option α)} (first : Nat) {k : Nat} (hk : k < slots.length)
    (v : Option α) :
    (slots.set ((first + k) % slots.length) v).rotate first = (slots.rotate first).set k v := by
  refine ext_getElem (by simp) fun j hj hj' => ?_
  have hjlt : j < slots.length := by simpa using hj'
  rw [getElem_rotate, getElem_set, getElem_set, getElem_rotate]
  simp only [length_set]
  refine ite_congr (propext ⟨fun h => ?_, fun h => ?_⟩) (fun _ => rfl) fun _ => rfl
  · rw [Nat.add_comm j first] at h
    have hmod := Nat.ModEq.add_left_cancel' first h
    rwa [Nat.ModEq, Nat.mod_eq_of_lt hk, Nat.mod_eq_of_lt hjlt] at hmod
  · rw [h, Nat.add_comm]

namespace Holds

variable {slots : List (Option α)} {first : Nat} {queue : List α} {x y : α}

theorem replicate (n first : Nat) : Holds (List.replicate n (none : Option α)) first [] :=
  ⟨Nat.zero_le _, by simp [rotate_replicate]⟩

section
variable (h : Holds slots first queue)
include h

theorem get {k : Nat} (hk : k < slots.length) :
    slots[(first + k) % slots.length]? = some queue[k]? := by
  have hturn : (slots.rotate first)[k]? = some queue[k]? := by
    rw [h.turned]
    by_cases hq : k < queue.length
    · rw [getElem?_append_left (by simpa using hq), getElem?_map, getElem?_eq_getElem hq]
      rfl
    · rw [getElem?_append_right (by simpa using Nat.le_of_not_lt hq),
        getElem?_replicate_of_lt (by rw [length_map]; omega),
        getElem?_eq_none (Nat.le_of_not_lt hq)]
  rwa [getElem?_rotate hk, Nat.add_comm] at hturn

section
variable (hroom : queue.length < slots.length)
include hroom

theorem vacant : slots[(first + queue.length) % slots.length]? = some none := by
  rw [h.get hroom, getElem?_eq_none (Nat.le_refl _)]

theorem put :
    Holds (slots.set ((first + queue.length) % slots.length) (some x)) first (queue ++ [x]) := by
  refine ⟨by rw [length_append, length_set]; exact hroom, ?_⟩
  have hsplit : slots.length - queue.length = (slots.length - (queue.length + 1)) + 1 := by omega
  rw [rotate_set _ hroom, h.turned, hsplit, replicate_succ]
  simp

end

end

theorem front (h : Holds slots first (x :: queue)) :
    slots[first % slots.length]? = some (some x) := by
  have hpos : 0 < slots.length := Nat.lt_of_lt_of_le (by simp) h.length_le
  simpa using h.get hpos

theorem take (h : Holds slots first (x :: queue)) :
    Holds (slots.set (first % slots.length) none) (first + 1) queue := by
  have hle : queue.length + 1 ≤ slots.length := by simpa using h.length_le
  have hpos : 0 < slots.length := by omega
  have hset := rotate_set first hpos none
  have hsplit : slots.length - queue.length = (slots.length - (queue.length + 1)) + 1 := by omega
  refine ⟨by rw [length_set]; omega, ?_⟩
  rw [← rotate_rotate, length_set, hsplit, replicate_succ',
    show first % slots.length = (first + 0) % slots.length from rfl, hset, h.turned]
  simp [rotate_cons_succ, append_assoc]

theorem exchange (h : Holds slots first queue) {k : Nat} (hk : k < queue.length) :
    Holds (slots.set ((first + k) % slots.length) (some y)) first (queue.set k y) := by
  refine ⟨by simpa using h.length_le, ?_⟩
  rw [rotate_set _ (Nat.lt_of_lt_of_le hk h.length_le), h.turned,
    set_append_left _ _ (by simpa using hk), map_set, length_set, length_set]

theorem countP (h : Holds slots first queue) : slots.countP Option.isSome = queue.length := by
  rw [← (rotate_perm slots first).countP_eq, h.turned, countP_append, countP_map]
  simp [countP_replicate, Function.comp_def]

end Holds

end Drv
