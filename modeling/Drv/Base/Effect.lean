import Mathlib.Logic.Basic
import Mathlib.Order.Defs.Unbundled

/-!
# Programs that make calls

A driver-side operation runs over a state it does not own, makes calls on
it and may fail; what it changed before failing stays changed. `Eff` is
such an operation, and running it also answers the calls it made, in
order.

`Issues I P Q x` is the judgement used downstream: run from a state in
`I`, `x` stays in `I` whether it answers or fails, every call it makes
satisfies `P` and every answer `Q`; a further predicate may bound the
errors. It is closed under sequencing
(`Issues.bind`), so an operation is checked call by call. Where only the
states matter, `Within r x` says that `x` takes every state to one that
the preorder `r` relates it to.
-/

namespace Drv

theorem forall_mem_concat {α : Type*} {p : α → Prop} {log : List α} {a : α} (h : ∀ b ∈ log, p b)
    (ha : p a) : ∀ b ∈ log ++ [a], p b :=
  List.forall_mem_append.mpr ⟨h, List.forall_mem_singleton.mpr ha⟩

theorem lt_of_getElem? {α : Type*} {l : List α} {a : α} {i : Nat} (h : l[i]? = some a) :
    i < l.length :=
  (List.getElem?_eq_some_iff.mp h).1

/-- What a run leaves: the answer, the state and the calls made. -/
structure Outcome (σ C ε α : Type) where
  result : Except ε α
  state : σ
  calls : List C

def Eff (σ C ε α : Type) := σ → Outcome σ C ε α

namespace Eff

variable {σ C ε α β : Type}

protected def pure (a : α) : Eff σ C ε α := fun s => ⟨.ok a, s, []⟩

variable (x : Eff σ C ε α)

protected def bind (f : α → Eff σ C ε β) : Eff σ C ε β := fun s =>
  match (x s).result with
  | .ok a =>
    let next := f a (x s).state
    ⟨next.result, next.state, (x s).calls ++ next.calls⟩
  | .error e => ⟨.error e, (x s).state, (x s).calls⟩

instance : Monad (Eff σ C ε) where
  pure := Eff.pure
  bind := Eff.bind

def fail (e : ε) : Eff σ C ε α := fun s => ⟨.error e, s, []⟩

/-- Go on with a value computed without the state, or fail with its error. -/
def ofExcept (x : Except ε α) : Eff σ C ε α := fun s => ⟨x, s, []⟩

/-- Look at the state without a call. -/
def look (f : σ → α) : Eff σ C ε α := fun s => ⟨.ok (f s), s, []⟩

/-- Change the state without a call. -/
def modify (f : σ → σ) : Eff σ C ε Unit := fun s => ⟨.ok (), f s, []⟩

/-- Make one call; `f` is what the callee does. -/
def call (c : C) (f : σ → Except ε α × σ) : Eff σ C ε α := fun s => ⟨(f s).1, (f s).2, [c]⟩

/-- Run to an answer or an error, and go on with either. -/
def attempt : Eff σ C ε (Except ε α) := fun s =>
  ⟨.ok (x s).result, (x s).state, (x s).calls⟩

/-- Fail with another error. -/
def mapError {ε' : Type} (f : ε → ε') (x : Eff σ C ε α) : Eff σ C ε' α := fun s =>
  ⟨(x s).result.mapError f, (x s).state, (x s).calls⟩

/-- Run on a part of a larger state. -/
def zoom {τ : Type} (get : τ → σ) (set : τ → σ → τ) (x : Eff σ C ε α) : Eff τ C ε α := fun t =>
  ⟨(x (get t)).result, set t (x (get t)).state, (x (get t)).calls⟩

@[simp] theorem pure_apply (a : α) (s : σ) : (pure a : Eff σ C ε α) s = ⟨.ok a, s, []⟩ := rfl

@[simp] theorem fail_apply (e : ε) (s : σ) : (fail e : Eff σ C ε α) s = ⟨.error e, s, []⟩ := rfl

@[simp] theorem ofExcept_apply (x : Except ε α) (s : σ) :
    (ofExcept x : Eff σ C ε α) s = ⟨x, s, []⟩ := rfl

@[simp] theorem look_apply (f : σ → α) (s : σ) :
    (look f : Eff σ C ε α) s = ⟨.ok (f s), s, []⟩ := rfl

@[simp] theorem modify_apply (f : σ → σ) (s : σ) :
    (modify f : Eff σ C ε Unit) s = ⟨.ok (), f s, []⟩ := rfl

@[simp] theorem call_apply (c : C) (f : σ → Except ε α × σ) (s : σ) :
    (call c f : Eff σ C ε α) s = ⟨(f s).1, (f s).2, [c]⟩ := rfl

@[simp] theorem attempt_apply (s : σ) :
    attempt x s = ⟨.ok (x s).result, (x s).state, (x s).calls⟩ := rfl

theorem bind_apply (f : α → Eff σ C ε β) (s : σ) :
    (x >>= f) s = match (x s).result with
      | .ok a => ⟨(f a (x s).state).result, (f a (x s).state).state,
          (x s).calls ++ (f a (x s).state).calls⟩
      | .error e => ⟨.error e, (x s).state, (x s).calls⟩ := rfl

variable {f : α → Eff σ C ε β} {x : Eff σ C ε α} {s t : σ}

theorem bind_of_ok {a : α} {cs : List C} (h : x s = ⟨.ok a, t, cs⟩) :
    (x >>= f) s = ⟨(f a t).result, (f a t).state, cs ++ (f a t).calls⟩ := by
  rw [bind_apply, h]

/-- A first part without a call leaves what the rest leaves. -/
theorem bind_of_silent {a : α} (h : x s = ⟨.ok a, t, []⟩) : (x >>= f) s = f a t := by
  rw [bind_of_ok h, List.nil_append]

theorem look_bind {g : σ → α} {s : σ} : (look g >>= f) s = f (g s) s :=
  bind_of_silent (look_apply g s)

theorem modify_bind {g : σ → σ} {f : Unit → Eff σ C ε β} {s : σ} :
    (modify g >>= f) s = f () (g s) := bind_of_silent (modify_apply g s)

/-- An attempt without a call goes on with the answer or the error. -/
theorem bind_attempt {f : Except ε α → Eff σ C ε β} {r : Except ε α} (h : x s = ⟨r, t, []⟩) :
    (x.attempt >>= f) s = f r t :=
  bind_of_silent (by rw [attempt_apply, h])

theorem bind_of_error {e : ε} {cs : List C} (h : x s = ⟨.error e, t, cs⟩) :
    (x >>= f) s = ⟨.error e, t, cs⟩ := by
  rw [bind_apply, h]

theorem bind_pure_apply (f : α → β) (s : σ) :
    (x >>= fun a => pure (f a)) s = ⟨(x s).result.map f, (x s).state, (x s).calls⟩ := by
  rw [bind_apply]
  cases (x s).result with
  | ok => simp [Except.map]
  | error => rfl

end Eff

/-- From a state in `I`: the run stays in `I`, every call satisfies `P`,
the answer, if there is one, satisfies `Q` and the error, if there is
one, `E`. -/
def Issues {σ C ε α : Type} (I : σ → Prop) (P : C → Prop) (Q : α → Prop) (x : Eff σ C ε α)
    (E : ε → Prop := fun _ => True) : Prop :=
  ∀ s, I s → I (x s).state ∧ (∀ c ∈ (x s).calls, P c) ∧ (∀ a, (x s).result = .ok a → Q a) ∧
    ∀ e, (x s).result = .error e → E e

/-- The same, of any answer. -/
abbrev Makes {σ C ε α : Type} (I : σ → Prop) (P : C → Prop) (x : Eff σ C ε α)
    (E : ε → Prop := fun _ => True) : Prop :=
  Issues I P (fun _ => True) x E

variable {c : Prop}

namespace Issues

variable {σ C ε α β : Type} {I : σ → Prop} {P : C → Prop} {Q : α → Prop} {R : β → Prop}
  {E : ε → Prop}

theorem pure {a : α} (h : Q a) : Issues I P Q (pure a : Eff σ C ε α) E := by
  intro s hs
  refine ⟨hs, by simp, fun b hb => ?_, by simp⟩
  cases hb
  exact h

theorem fail (e : ε) (h : E e) : Issues I P Q (Eff.fail e : Eff σ C ε α) E := by
  intro s hs
  refine ⟨hs, by simp, by simp, fun e' he' => ?_⟩
  cases he'
  exact h

theorem ofExcept {x : Except ε α} (h : ∀ a, x = .ok a → Q a) (he : ∀ e, x = .error e → E e) :
    Issues I P Q (Eff.ofExcept x : Eff σ C ε α) E :=
  fun s hs => ⟨hs, by simp, h, he⟩

theorem look {f : σ → α} (h : ∀ s, I s → Q (f s)) : Issues I P Q (Eff.look f : Eff σ C ε α) E := by
  intro s hs
  refine ⟨hs, by simp, fun a ha => ?_, by simp⟩
  cases ha
  exact h s hs

theorem modify {f : σ → σ} (h : ∀ s, I s → I (f s)) : Makes I P (Eff.modify f : Eff σ C ε Unit) E :=
  fun s hs => ⟨h s hs, by simp, fun _ _ => trivial, by simp⟩

theorem call {c : C} {f : σ → Except ε α × σ} (hc : P c) (hI : ∀ s, I s → I (f s).2)
    (h : ∀ s a, (f s).1 = .ok a → Q a) (he : ∀ s, I s → ∀ e, (f s).1 = .error e → E e) :
    Issues I P Q (Eff.call c f) E := by
  intro s hs
  exact ⟨hI s hs, List.forall_mem_singleton.mpr hc, h s, he s hs⟩

variable {x : Eff σ C ε α}

theorem bind {f : α → Eff σ C ε β} (hx : Issues I P Q x E) (hf : ∀ a, Q a → Issues I P R (f a) E) :
    Issues I P R (x >>= f) E := by
  intro s hs
  obtain ⟨hst, hcs, hans, herr⟩ := hx s hs
  rw [Eff.bind_apply]
  split
  next a ha =>
    obtain ⟨hst', hcs', hans', herr'⟩ := hf a (hans a ha) (x s).state hst
    exact ⟨hst', List.forall_mem_append.mpr ⟨hcs, hcs'⟩, hans', herr'⟩
  next e he =>
    refine ⟨hst, hcs, by simp, fun e' he' => ?_⟩
    cases he'
    exact herr e he

theorem attempt (hx : Issues I P Q x) :
    Issues I P (fun r => ∀ a, r = .ok a → Q a) (Eff.attempt x) E := by
  intro s hs
  obtain ⟨hst, hcs, hans, -⟩ := hx s hs
  refine ⟨hst, hcs, fun r hr => ?_, by simp⟩
  cases hr
  exact hans

theorem ite [Decidable c] {x y : Eff σ C ε α} (hx : c → Issues I P Q x E)
    (hy : ¬ c → Issues I P Q y E) : Issues I P Q (if c then x else y) E := by
  split
  next h => exact hx h
  next h => exact hy h

theorem weaken {P' : C → Prop} {E' : ε → Prop} (hx : Issues I P Q x E) (hP : ∀ c, P c → P' c)
    (hE : ∀ e, E e → E' e) : Issues I P' Q x E' := by
  intro s hs
  obtain ⟨hst, hcs, hans, herr⟩ := hx s hs
  exact ⟨hst, fun c hc => hP c (hcs c hc), hans, fun e he => hE e (herr e he)⟩

end Issues

/-- Whatever it answers, `x` takes each state to one that `r` relates it to. -/
def Within {σ C ε α : Type} (r : σ → σ → Prop) (x : Eff σ C ε α) : Prop := ∀ s, r s (x s).state

namespace Within

variable {σ C ε α β : Type} {r : σ → σ → Prop}

theorem modify {f : σ → σ} (h : ∀ s, r s (f s)) : Within r (Eff.modify f : Eff σ C ε Unit) := h

variable {x : Eff σ C ε α}

theorem attempt (h : Within r x) : Within r (Eff.attempt x) := h

theorem zoom {τ : Type} {q : τ → τ → Prop} {get : τ → σ} {set : τ → σ → τ} (h : Within r x)
    (hq : ∀ t s, r (get t) s → q t (set t s)) : Within q (Eff.zoom get set x) :=
  fun t => hq t _ (h (get t))

theorem ite [Decidable c] {y : Eff σ C ε α} (hx : Within r x) (hy : Within r y) :
    Within r (if c then x else y) := by
  split
  · exact hx
  · exact hy

variable [IsPreorder σ r]

theorem pure (a : α) : Within r (pure a : Eff σ C ε α) := fun s => refl_of r s

theorem fail (e : ε) : Within r (Eff.fail e : Eff σ C ε α) := fun s => refl_of r s

theorem ofExcept (x : Except ε α) : Within r (Eff.ofExcept x : Eff σ C ε α) :=
  fun s => refl_of r s

theorem look (f : σ → α) : Within r (Eff.look f : Eff σ C ε α) := fun s => refl_of r s

variable {f : α → Eff σ C ε β}

theorem bind (hx : Within r x) (hf : ∀ a, Within r (f a)) : Within r (x >>= f) := by
  intro s
  rw [Eff.bind_apply]
  split
  next a _ => exact trans_of r (hx s) (hf a (x s).state)
  next => exact hx s

theorem look_bind {g : σ → α} (hf : ∀ a, Within r (f a)) :
    Within r (Eff.look g >>= f) := bind (look g) hf

theorem ofExcept_bind {x : Except ε α} (hf : ∀ a, Within r (f a)) :
    Within r (Eff.ofExcept x >>= f) := bind (ofExcept x) hf

theorem guard [Decidable c] {e : ε} (h : Within r x) :
    Within r (if c then Eff.fail e else x) := ite (fail e) h

end Within

/-- When `x` answers, `r` relates the state before, the answer and the
state after. -/
def Answers {σ C ε α : Type} (r : σ → α → σ → Prop) (x : Eff σ C ε α) : Prop :=
  ∀ s a, (x s).result = .ok a → r s a (x s).state

namespace Answers

variable {σ C ε α β : Type} {r : σ → β → σ → Prop}

theorem fail (e : ε) : Answers r (Eff.fail e : Eff σ C ε β) := by
  intro s b hb
  cases hb

theorem ite [Decidable c] {x y : Eff σ C ε β} (hx : Answers r x) (hy : Answers r y) :
    Answers r (if c then x else y) := by
  split
  · exact hx
  · exact hy

/-- What comes first may be left out of the relation. -/
theorem after {q : σ → σ → Prop} {x : Eff σ C ε α} {f : α → Eff σ C ε β} (hx : Within q x)
    (hq : ∀ {s s₁ b s'}, q s s₁ → r s₁ b s' → r s b s') (hf : ∀ a, Answers r (f a)) :
    Answers r (x >>= f) := by
  intro s b hb
  rw [Eff.bind_apply] at hb ⊢
  split at hb
  next a _ => exact hq (hx s) (hf a _ b hb)
  next => cases hb

end Answers

end Drv
