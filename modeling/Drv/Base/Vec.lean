import Mathlib.Data.List.Perm.Basic

/-!
# Unordered vectors

A growable array whose owner does not care for its order takes elements
out by moving the last one into the gap. `swapRemove` is that step,
`extract` takes the first element that satisfies a test, and `drain` is
the loop that takes all of them, looking again at an index it has just
filled.

What these keep is the collection up to its order (`extract_some`,
`drain_perm`), and that is all that proofs about an owner need.
-/

namespace Drv

open List

variable {α : Type} {p : α → Bool} {l l' : List α} {a : α}

/-- Without the element at `i`; the last element takes its place. -/
def swapRemove (l : List α) (i : Nat) : List α :=
  match l.getLast? with
  | none => []
  | some last => (l.set i last).dropLast

theorem swapRemove_perm {i : Nat} (h : i < l.length) : (l[i] :: swapRemove l i).Perm l := by
  rcases eq_nil_or_concat l with rfl | ⟨front, last, rfl⟩
  · simp at h
  · simp only [concat_eq_append] at h ⊢
    have hlast : swapRemove (front ++ [last]) i = ((front ++ [last]).set i last).dropLast := by
      simp [swapRemove]
    rw [hlast]
    by_cases hi : i < front.length
    · have hset : ((front ++ [last]).set i last).dropLast = front.set i last := by
        rw [set_append_left _ _ hi, dropLast_concat]
      rw [hset, getElem_append_left hi]
      calc front[i] :: front.set i last
          _ |>.Perm (front[i] :: last :: front.eraseIdx i) :=
            (set_perm_cons_eraseIdx hi last).cons _
          _ |>.Perm (last :: front[i] :: front.eraseIdx i) := .swap ..
          _ |>.Perm (last :: front) := (getElem_cons_eraseIdx_perm hi).cons _
          _ |>.Perm (front ++ [last]) := (perm_append_singleton last front).symm
    · have heq : i = front.length := by
        rw [length_append, length_singleton] at h
        omega
      subst heq
      have hset : (front ++ [last]).set front.length last = front ++ [last] := by
        simp
      rw [hset, dropLast_concat, getElem_concat_length rfl]
      exact (perm_append_singleton last front).symm

/-! ## The first element that satisfies a test -/

/-- Take the first element that satisfies a test out. -/
def extract (p : α → Bool) (l : List α) : Option (α × List α) :=
  match l.findIdx? p with
  | none => none
  | some i => l[i]?.map fun a => (a, swapRemove l i)

theorem extract_some (h : extract p l = some (a, l')) : p a ∧ (a :: l').Perm l := by
  unfold extract at h
  split at h
  next => cases h
  next i hi =>
    obtain ⟨hlt, hp, -⟩ := findIdx?_eq_some_iff_getElem.mp hi
    rw [getElem?_eq_getElem hlt] at h
    cases h
    exact ⟨hp, swapRemove_perm hlt⟩

theorem extract_none (h : extract p l = none) : ∀ a ∈ l, p a = false := by
  unfold extract at h
  split at h
  next hn => exact findIdx?_eq_none_iff.mp hn
  next i hi =>
    obtain ⟨hlt, -, -⟩ := findIdx?_eq_some_iff_getElem.mp hi
    rw [getElem?_eq_getElem hlt] at h
    cases h

/-- Change the first element that satisfies a test. -/
def modifyFirst (p : α → Bool) (f : α → α) (l : List α) : List α :=
  match l.findIdx? p with
  | none => l
  | some i => l.modify i f

theorem modifyFirst_cases (p : α → Bool) (f : α → α) (l : List α) :
    ((∀ a ∈ l, p a = false) ∧ modifyFirst p f l = l) ∨
    ∃ front a rest, (∀ b ∈ front, p b = false) ∧ p a ∧ l = front ++ a :: rest ∧
      modifyFirst p f l = front ++ f a :: rest := by
  unfold modifyFirst
  cases hf : l.findIdx? p with
  | none => exact .inl ⟨findIdx?_eq_none_iff.mp hf, rfl⟩
  | some i =>
    obtain ⟨hlt, hp, hpre⟩ := findIdx?_eq_some_iff_getElem.mp hf
    refine .inr ⟨l.take i, l[i], l.drop (i + 1), ?_, hp, ?_, ?_⟩
    · intro b hb
      obtain ⟨j, hj, rfl⟩ := mem_take_iff_getElem.mp hb
      exact Bool.eq_false_iff.mpr (hpre j (by omega))
    · rw [← drop_eq_getElem_cons hlt, take_append_drop]
    · exact modify_eq_take_cons_drop hlt

theorem map_modifyFirst {β : Type} {f : α → α} {g : α → β} (h : ∀ a, g (f a) = g a) :
    (modifyFirst p f l).map g = l.map g := by
  rcases modifyFirst_cases p f l with ⟨-, hsame⟩ | ⟨front, a, rest, -, -, hl, hmod⟩
  · rw [hsame]
  · rw [hmod, hl]
    simp [h]

theorem find?_modifyFirst {f : α → α} {q : α → Bool} (h : ∀ a, q (f a) = q a)
    (hf : l.find? q = some a) :
    (modifyFirst p f l).find? q = some a ∨ (modifyFirst p f l).find? q = some (f a) := by
  rcases modifyFirst_cases p f l with ⟨-, hsame⟩ | ⟨front, b, rest, -, -, hl, hmod⟩
  · rw [hsame]
    exact .inl hf
  · rw [hl, find?_append] at hf
    rw [hmod, find?_append]
    cases hfront : front.find? q with
    | some =>
      rw [hfront] at hf
      exact .inl hf
    | none =>
      rw [hfront, Option.none_or, find?_cons] at hf
      rw [Option.none_or, find?_cons, h]
      cases hq : q b with
      | true =>
        rw [hq] at hf
        cases hf
        exact .inr rfl
      | false =>
        rw [hq] at hf
        exact .inl hf

/-! ## All of them -/

/-- The loop that takes out what satisfies a test, from an index on. -/
def drainFrom (p : α → Bool) : Nat → Nat → List α → List α × List α
  | 0, _, l => ([], l)
  | fuel + 1, i, l =>
    match l[i]? with
    | none => ([], l)
    | some a =>
      if p a then
        let (out, rest) := drainFrom p fuel i (swapRemove l i)
        (a :: out, rest)
      else drainFrom p fuel (i + 1) l

/-- What satisfies a test and what does not. The loop ends, since each
turn leaves fewer elements from its index on. -/
def drain (p : α → Bool) (l : List α) : List α × List α := drainFrom p l.length 0 l

theorem drainFrom_perm (p : α → Bool) (fuel i : Nat) (l : List α) :
    ((drainFrom p fuel i l).1 ++ (drainFrom p fuel i l).2).Perm l := by
  induction fuel generalizing i l with
  | zero => exact .refl l
  | succ fuel ih =>
    unfold drainFrom
    split
    next => exact .refl l
    next a ha =>
      obtain ⟨hlt, rfl⟩ := List.getElem?_eq_some_iff.mp ha
      split
      · exact ((ih i (swapRemove l i)).cons _).trans (swapRemove_perm hlt)
      · exact ih (i + 1) l

theorem drainFrom_out (p : α → Bool) (fuel i : Nat) (l : List α) :
    ∀ a ∈ (drainFrom p fuel i l).1, p a := by
  induction fuel generalizing i l with
  | zero => simp [drainFrom]
  | succ fuel ih =>
    unfold drainFrom
    split
    next => simp
    next a ha =>
      split
      next hp =>
        exact forall_mem_cons.mpr ⟨hp, ih i (swapRemove l i)⟩
      next => exact ih (i + 1) l

theorem swapRemove_take {i : Nat} (h : i < l.length) : (swapRemove l i).take i = l.take i := by
  rcases eq_nil_or_concat l with rfl | ⟨front, last, rfl⟩
  · simp at h
  · simp only [concat_eq_append, length_append, length_singleton] at h ⊢
    have hle : i ≤ front.length := by omega
    simp only [swapRemove, getLast?_append, getLast?_singleton, Option.some_or]
    rw [dropLast_eq_take, take_take, length_set, length_append,
      length_singleton, Nat.add_sub_cancel, Nat.min_eq_left hle, take_set_of_le (Nat.le_refl i)]

theorem drainFrom_rest (p : α → Bool) (fuel i : Nat) (l : List α) (hfuel : l.length ≤ i + fuel)
    (hpre : ∀ a ∈ l.take i, p a = false) : ∀ a ∈ (drainFrom p fuel i l).2, p a = false := by
  induction fuel generalizing i l with
  | zero =>
    rw [take_of_length_le (i := i) hfuel] at hpre
    exact hpre
  | succ fuel ih =>
    unfold drainFrom
    split
    next hn =>
      rw [take_of_length_le (getElem?_eq_none_iff.mp hn)] at hpre
      exact hpre
    next a ha =>
      obtain ⟨hlt, rfl⟩ := List.getElem?_eq_some_iff.mp ha
      split
      next =>
        have hlen := (swapRemove_perm hlt).length_eq
        rw [length_cons] at hlen
        apply ih i (swapRemove l i) (by omega)
        rw [swapRemove_take hlt]
        exact hpre
      next hp =>
        apply ih (i + 1) l (by omega)
        rw [take_add_one, getElem?_eq_getElem hlt]
        exact forall_mem_append.mpr ⟨hpre, by simpa using hp⟩

theorem drain_perm (p : α → Bool) (l : List α) : ((drain p l).1 ++ (drain p l).2).Perm l :=
  drainFrom_perm p l.length 0 l

theorem drain_out {p : α → Bool} {l : List α} (h : a ∈ (drain p l).1) : p a :=
  drainFrom_out p l.length 0 l a h

theorem drain_rest {p : α → Bool} {l : List α} (h : a ∈ (drain p l).2) : p a = false :=
  drainFrom_rest p l.length 0 l (by omega) (by simp) a h

/-! ## Pieces -/

def chunksFrom (n : Nat) : Nat → List α → List (List α)
  | 0, _ | _, [] => []
  | fuel + 1, l => l.take n :: chunksFrom n fuel (l.drop n)

/-- Pieces of `n` elements; the last may be shorter. -/
def chunks (n : Nat) (l : List α) : List (List α) := chunksFrom n l.length l

end Drv
