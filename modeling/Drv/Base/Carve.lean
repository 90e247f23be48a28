import Mathlib.Order.CompletePartialOrder
import Mathlib.Order.Interval.Set.Disjoint
import Mathlib.Data.List.Pairwise

/-!
# Carving intervals

What it means to hand out parts of larger things: a collection of pieces,
each an interval of a numbered thing, that only ever changes by
forgetting a piece, cutting a piece in two, or adding a piece of the next
number. However long this goes on, two pieces of one thing never overlap
(`Carving.sound`).

The order of the collection does not matter, so a permutation is a step
of its own, and pieces that are not touched may stand beside the ones
that are (`Carving.beside`). A concrete owner can therefore keep its
pieces wherever it likes.
-/

namespace Drv

open List hiding Disjoint

/-- The interval `lo ≤ x < hi` of the thing `key`. -/
structure Piece where
  key : ℕ
  lo : ℕ
  hi : ℕ

namespace Piece

def window (p : Piece) : Set ℕ := Set.Ico p.lo p.hi

/-- Pieces of one thing do not overlap. -/
def Apart (p q : Piece) : Prop := p.key = q.key → Disjoint p.window q.window

theorem Apart.symm {p q : Piece} (h : p.Apart q) : q.Apart p :=
  fun hk => (h hk.symm).symm

theorem Apart.mono {p p' q : Piece} (h : p.Apart q) (hk : p'.key = p.key)
    (hw : p'.window ⊆ p.window) : p'.Apart q :=
  fun hq => (h (hk.symm.trans hq)).mono_left hw

end Piece

/-- A collection of pieces and the next unused number. -/
structure Carved where
  next : ℕ
  pieces : List Piece

/-- One step of a collection. -/
inductive Recarve : Carved → Carved → Prop where
  | perm (n : ℕ) {ps qs : List Piece} : ps.Perm qs → Recarve ⟨n, ps⟩ ⟨n, qs⟩
  | forget (n : ℕ) (p : Piece) (ps : List Piece) : Recarve ⟨n, p :: ps⟩ ⟨n, ps⟩
  | cut (n key : ℕ) {lo mid hi : ℕ} (ps : List Piece) : lo ≤ mid → mid ≤ hi →
      Recarve ⟨n, ⟨key, lo, hi⟩ :: ps⟩ ⟨n, ⟨key, lo, mid⟩ :: ⟨key, mid, hi⟩ :: ps⟩
  | fresh (n lo hi : ℕ) (ps : List Piece) : Recarve ⟨n, ps⟩ ⟨n + 1, ⟨n, lo, hi⟩ :: ps⟩

/-- Any number of steps. -/
abbrev Carving : Carved → Carved → Prop := Relation.ReflTransGen Recarve

/-- Every piece is of a used number, and pieces of one number are apart. -/
structure Carved.Sound (c : Carved) : Prop where
  used : ∀ p ∈ c.pieces, p.key < c.next
  apart : c.pieces.Pairwise Piece.Apart

variable {c d : Carved}

theorem Recarve.sound (h : Recarve c d) (hc : c.Sound) : d.Sound := by
  obtain ⟨used, apart⟩ := hc
  cases h with
  | perm n hperm =>
    exact ⟨fun p hp => used p (hperm.mem_iff.mpr hp),
      (hperm.pairwise_iff Piece.Apart.symm).mp apart⟩
  | forget => exact ⟨fun q hq => used q (mem_cons_of_mem _ hq), apart.of_cons⟩
  | cut n key ps hlo hhi =>
    rw [pairwise_cons] at apart
    rw [forall_mem_cons] at used
    refine ⟨forall_mem_cons.mpr ⟨used.1, forall_mem_cons.mpr used⟩, ?_⟩
    refine pairwise_cons.mpr ⟨fun q hq => ?_, pairwise_cons.mpr ⟨fun q hq => ?_, apart.2⟩⟩
    · rcases mem_cons.mp hq with rfl | hq
      · exact fun _ => Set.Ico_disjoint_Ico_same
      · exact (apart.1 q hq).mono rfl (Set.Ico_subset_Ico_right hhi)
    · exact (apart.1 q hq).mono rfl (Set.Ico_subset_Ico_left hlo)
  | fresh n =>
    refine ⟨forall_mem_cons.mpr ⟨Nat.lt_succ_self n, fun p hp => Nat.lt_succ_of_lt (used p hp)⟩,
      pairwise_cons.mpr ⟨fun q hq hk => ?_, apart⟩⟩
    · exact absurd hk (Nat.ne_of_gt (used q hq))

theorem Recarve.beside (h : Recarve c d) (rest : List Piece) :
    Recarve ⟨c.next, c.pieces ++ rest⟩ ⟨d.next, d.pieces ++ rest⟩ := by
  cases h with
  | perm n hperm => exact .perm n (hperm.append_right rest)
  | forget n p ps => exact .forget n p (ps ++ rest)
  | cut n key ps hlo hhi => exact .cut n key (ps ++ rest) hlo hhi
  | fresh n lo hi ps => exact .fresh n lo hi (ps ++ rest)

namespace Carving

theorem sound (h : Carving c d) (hc : c.Sound) : d.Sound := by
  induction h with
  | refl => exact hc
  | tail _ hstep ih => exact hstep.sound ih

theorem beside (h : Carving c d) (rest : List Piece) :
    Carving ⟨c.next, c.pieces ++ rest⟩ ⟨d.next, d.pieces ++ rest⟩ := by
  induction h with
  | refl => exact .refl
  | tail _ hstep ih => exact ih.tail (hstep.beside rest)

theorem perm {n : ℕ} {ps qs : List Piece} (h : ps.Perm qs) : Carving ⟨n, ps⟩ ⟨n, qs⟩ :=
  .single (.perm n h)

theorem forget {n : ℕ} (p : Piece) (ps : List Piece) : Carving ⟨n, p :: ps⟩ ⟨n, ps⟩ :=
  .single (.forget n p ps)

theorem forgetAll {n : ℕ} (ps qs : List Piece) : Carving ⟨n, ps ++ qs⟩ ⟨n, qs⟩ := by
  induction ps with
  | nil => exact .refl
  | cons p ps ih => exact .head (.forget n p (ps ++ qs)) ih

theorem skip (n : ℕ) (ps : List Piece) : Carving ⟨n, ps⟩ ⟨n + 1, ps⟩ :=
  .tail (.single (.fresh n 0 0 ps)) (.forget (n + 1) ⟨n, 0, 0⟩ ps)

/-- Steps are taken up to the order of the collections. -/
theorem of_perm {n m : ℕ} {ps ps' qs qs' : List Piece} (hp : ps.Perm ps')
    (h : Carving ⟨n, ps'⟩ ⟨m, qs'⟩) (hq : qs'.Perm qs) : Carving ⟨n, ps⟩ ⟨m, qs⟩ :=
  (perm hp).trans (h.trans (perm hq))

end Carving

end Drv
