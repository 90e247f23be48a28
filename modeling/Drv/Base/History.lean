import Mathlib.Data.List.Basic

/-!
# Histories in which every event is allowed

A rule says which events are allowed after a history. A history follows
the rule when each of its events is allowed after those before it; it can
be checked piece by piece as it grows (`justified_append`), and says at
every place what must have come before (`Justified.at`).
-/

namespace Drv

variable {E : Type} (allowed : List E → E → Prop) {t r : List E} {e : E}

/-- More events, each allowed after those before it. -/
def JustifiedAfter : List E → List E → Prop
  | _, [] => True
  | t, e :: r => allowed t e ∧ JustifiedAfter (t ++ [e]) r

def Justified (t : List E) : Prop := JustifiedAfter allowed [] t

instance JustifiedAfter.decidable [∀ t e, Decidable (allowed t e)] :
    (t r : List E) → Decidable (JustifiedAfter allowed t r)
  | _, [] => isTrue trivial
  | t, e :: r =>
    have := JustifiedAfter.decidable (t ++ [e]) r
    inferInstanceAs (Decidable (_ ∧ _))

instance [∀ t e, Decidable (allowed t e)] : Decidable (Justified allowed t) :=
  inferInstanceAs (Decidable (JustifiedAfter allowed [] t))

variable {allowed}

theorem justifiedAfter_append {a b : List E} :
    JustifiedAfter allowed t (a ++ b) ↔
      JustifiedAfter allowed t a ∧ JustifiedAfter allowed (t ++ a) b := by
  induction a generalizing t with
  | nil => simp [JustifiedAfter]
  | cons e rest ih => simp [JustifiedAfter, ih, and_assoc]

theorem justified_append : Justified allowed (t ++ r) ↔
    Justified allowed t ∧ JustifiedAfter allowed t r :=
  justifiedAfter_append

theorem justifiedAfter_singleton : JustifiedAfter allowed t [e] ↔ allowed t e :=
  iff_of_eq (and_true _)

theorem justifiedAfter_of_forall (h : ∀ e ∈ r, ∀ t, allowed t e) : JustifiedAfter allowed t r := by
  induction r generalizing t with
  | nil => exact trivial
  | cons e rest ih =>
    exact ⟨h e List.mem_cons_self t, ih fun e' he' => h e' (List.mem_cons_of_mem e he')⟩

theorem JustifiedAfter.at (h : JustifiedAfter allowed t r) {i : Nat} (hget : r[i]? = some e) :
    allowed (t ++ r.take i) e := by
  induction r generalizing t i with
  | nil => simp at hget
  | cons first rest ih =>
    cases i with
    | zero =>
      cases hget
      simpa using h.1
    | succ =>
      simpa using ih h.2 hget

theorem Justified.at (h : Justified allowed t) {i : Nat} (hget : t[i]? = some e) :
    allowed (t.take i) e := by
  simpa using JustifiedAfter.at h hget

theorem getElem?_of_isPrefix {t' : List E} (h : t <+: t') {j : Nat} (hget : t[j]? = some e) :
    t'[j]? = some e := by
  obtain ⟨rest, rfl⟩ := h
  rw [List.getElem?_append_left (List.getElem?_eq_some_iff.mp hget).1]
  exact hget

end Drv
