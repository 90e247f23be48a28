import Drv.Base.Effect

/-!
# Pre- and postconditions

`Triple P x Q E` says of an operation that makes calls: run from a state
in `P`, it ends in `Q` of its answer, or in `E` of its error. What is
changed before a failure stays changed, so `E` is about a state like `Q`.

An operation is checked from its first statement to its last with
`Triple.bind`; `Triple.look_bind` names what was looked at for the rest.
-/

namespace Drv

/-- From `P`, an answer ends in `Q` and an error in `E`. -/
def Triple {σ C ε α : Type} (P : σ → Prop) (x : Eff σ C ε α) (Q : α → σ → Prop)
    (E : ε → σ → Prop) : Prop :=
  ∀ s, P s → (∀ a, (x s).result = .ok a → Q a (x s).state) ∧
    ∀ e, (x s).result = .error e → E e (x s).state

/-- From `P` it ends in `Q`, whatever it answers. -/
abbrev Leads {σ C ε α : Type} (P : σ → Prop) (x : Eff σ C ε α) (Q : σ → Prop) : Prop :=
  Triple P x (fun _ => Q) fun _ => Q

namespace Triple

variable {σ C ε α β : Type} {P P' : σ → Prop} {Q Q' : α → σ → Prop} {R : β → σ → Prop}
  {E E' : ε → σ → Prop}

/-- Where an operation ends may be known of each state it starts in. -/
theorem of_outcome {x : Eff σ C ε α} (h : ∀ s, P s →
    (∃ a, (x s).result = .ok a ∧ Q a (x s).state) ∨
      ∃ e, (x s).result = .error e ∧ E e (x s).state) : Triple P x Q E := by
  intro s hs
  rcases h s hs with ⟨a, ha, hq⟩ | ⟨e, he, hq⟩
  · rw [ha]
    exact ⟨fun b hb => by cases hb; exact hq, nofun⟩
  · rw [he]
    exact ⟨nofun, fun e' he' => by cases he'; exact hq⟩

theorem pure {a : α} (h : ∀ s, P s → Q a s) : Triple P (pure a : Eff σ C ε α) Q E :=
  of_outcome fun s hs => .inl ⟨a, rfl, h s hs⟩

theorem fail {e : ε} (h : ∀ s, P s → E e s) : Triple P (Eff.fail e : Eff σ C ε α) Q E :=
  of_outcome fun s hs => .inr ⟨e, rfl, h s hs⟩

theorem modify {f : σ → σ} {Q : Unit → σ → Prop} (h : ∀ s, P s → Q () (f s)) :
    Triple P (Eff.modify f : Eff σ C ε Unit) Q E :=
  fun s hs => ⟨fun _ _ => h s hs, fun e he => by cases he⟩

variable {f : β → Eff σ C ε α}

theorem bind {x : Eff σ C ε β} (hx : Triple P x R E) (hf : ∀ b, Triple (R b) (f b) Q E) :
    Triple P (x >>= f) Q E := by
  intro s hs
  obtain ⟨hok, herr⟩ := hx s hs
  rw [Eff.bind_apply]
  split
  next b hb => exact hf b _ (hok b hb)
  next e he =>
    refine ⟨fun a ha => (by cases ha), fun e' he' => ?_⟩
    cases he'
    exact herr e he

variable {g : σ → β}

/-- What was looked at stays true of the state for the rest. -/
theorem look_bind (h : ∀ b, Triple (fun s => P s ∧ g s = b) (f b) Q E) :
    Triple P (Eff.look g >>= f) Q E := by
  intro s hs
  exact h (g s) s ⟨hs, rfl⟩

theorem look_pre {p : β → Prop} (hg : ∀ s, P s → p (g s)) (h : ∀ b, p b → Triple P (f b) Q E) :
    Triple P (Eff.look g >>= f) Q E :=
  fun s hs => h (g s) (hg s hs) s hs

theorem look_eq {b : β} (hg : ∀ s, P s → g s = b) (h : Triple P (f b) Q E) :
    Triple P (Eff.look g >>= f) Q E :=
  look_pre (p := (· = b)) hg fun _ hb => hb ▸ h

/-- A value computed without the state is known for the rest. -/
theorem ofExcept_bind {x : Except ε β} (hok : ∀ b, x = .ok b → Triple P (f b) Q E)
    (herr : ∀ e s, P s → E e s) : Triple P (Eff.ofExcept x >>= f) Q E := by
  cases x with
  | ok b => exact hok b rfl
  | error e => exact .fail (herr e)

theorem look_any (h : ∀ b, Triple P (f b) Q E) : Triple P (Eff.look g >>= f) Q E :=
  fun s => h (g s) s

theorem attempt_bind {x : Eff σ C ε β} {f : Except ε β → Eff σ C ε α} (hx : Triple P x R E')
    (hok : ∀ b, Triple (R b) (f (.ok b)) Q E) (herr : ∀ e, Triple (E' e) (f (.error e)) Q E) :
    Triple P (x.attempt >>= f) Q E := by
  intro s hs
  obtain ⟨ho, he⟩ := hx s hs
  rw [Eff.bind_apply, Eff.attempt_apply]
  cases hr : (x s).result with
  | ok b => exact hok b _ (ho b hr)
  | error e => exact herr e _ (he e hr)

variable {x : Eff σ C ε α}

theorem ite {c : Prop} [Decidable c] {y : Eff σ C ε α} (hx : c → Triple P x Q E)
    (hy : ¬ c → Triple P y Q E) : Triple P (if c then x else y) Q E := by
  split
  next h => exact hx h
  next h => exact hy h

theorem guard {c : Prop} [Decidable c] {e : ε} (herr : ∀ s, P s → E e s) (h : Triple P x Q E) :
    Triple P (if c then Eff.fail e else x) Q E :=
  ite (fun _ => fail herr) fun _ => h

theorem bind_fail {y : Eff σ C ε β} {e : ε} :
    Triple P (y >>= fun _ => Eff.fail e : Eff σ C ε α) Q fun _ _ => True :=
  bind (R := fun _ _ => True) (fun _ _ => ⟨fun _ _ => trivial, fun _ _ => trivial⟩) fun _ =>
    fail fun _ _ => trivial

section
variable (h : Triple P x Q E)
include h

theorem conseq (hP : ∀ s, P' s → P s) (hQ : ∀ a s, Q a s → Q' a s) (hE : ∀ e s, E e s → E' e s) :
    Triple P' x Q' E' :=
  fun s hs => ⟨fun a ha => hQ a _ ((h s (hP s hs)).1 a ha),
    fun e he => hE e _ ((h s (hP s hs)).2 e he)⟩

theorem weaken_pre (hP : ∀ s, P' s → P s) : Triple P' x Q E :=
  fun s hs => h s (hP s hs)

theorem weaken_post (hQ : ∀ a s, Q a s → Q' a s) : Triple P x Q' E :=
  h.conseq (fun _ hs => hs) hQ fun _ _ hs => hs

theorem weaken_error (hE : ∀ e s, E e s → E' e s) : Triple P x Q E' :=
  h.conseq (fun _ hs => hs) (fun _ _ hs => hs) hE

theorem and_left {R : σ → Prop} : Triple (fun s => P s ∧ R s) x Q E := h.weaken_pre fun _ hs => hs.1

end

theorem of_pre {p : Prop} (hp : ∀ s, P s → p) (h : p → Triple P x Q E) : Triple P x Q E :=
  fun s hs => h (hp s hs) s hs

theorem and_pre {p : Prop} (h : p → Triple P x Q E) : Triple (fun s => p ∧ P s) x Q E :=
  fun s hs => h hs.1 s hs.2

theorem exists_pre {ι : Type} {P : ι → σ → Prop} (h : ∀ i, Triple (P i) x Q E) :
    Triple (fun s => ∃ i, P i s) x Q E :=
  fun s ⟨i, hs⟩ => h i s hs

theorem of_state (h : ∀ s, P s → Triple (· = s) x Q E) : Triple P x Q E :=
  fun s hs => h s hs s rfl

variable {r : σ → σ → Prop}

/-- A relation that holds of every step holds of the run. -/
theorem of_within {I : σ → Prop} (hx : Within r x) (hI : ∀ s s', r s s' → I s → I s') :
    Leads I x I :=
  fun s hs => ⟨fun _ _ => hI s _ (hx s) hs, fun _ _ => hI s _ (hx s) hs⟩

/-- An invariant of every step goes along with a triple. -/
theorem and_within {I : σ → Prop} (h : Triple P x Q E) (hx : Within r x)
    (hI : ∀ s s', r s s' → I s → I s') :
    Triple (fun s => P s ∧ I s) x (fun a s => Q a s ∧ I s) (fun e s => E e s ∧ I s) :=
  fun s hs => ⟨fun a ha => ⟨(h s hs.1).1 a ha, hI s _ (hx s) hs.2⟩,
    fun e he => ⟨(h s hs.1).2 e he, hI s _ (hx s) hs.2⟩⟩

end Triple

section
variable {σ C ε α : Type} {I : σ → Prop} {x : Eff σ C ε α}

/-- An invariant that holds before an operation holds after it, whatever it
answers. -/
abbrev Keeps (I : σ → Prop) (x : Eff σ C ε α) : Prop := Within (fun s s' => I s → I s') x

instance Keeps.isPreorder : IsPreorder σ fun s s' => I s → I s' where
  refl _ hs := hs
  trans _ _ _ hx hy hs := hy (hx hs)

theorem Keeps.triple (h : Keeps I x) : Leads I x I :=
  fun s hs => ⟨fun _ _ => h s hs, fun _ _ => h s hs⟩

theorem Triple.state {P : σ → Prop} {s : σ} (h : Leads P x I) (hs : P s) : I (x s).state := by
  cases hr : (x s).result with
  | ok a => exact (h s hs).1 a hr
  | error e => exact (h s hs).2 e hr

theorem Triple.keeps (h : Leads I x I) : Keeps I x :=
  fun _ => h.state

theorem Within.of_triple {r : σ → σ → Prop} (h : ∀ s, Leads (· = s) x (r s)) : Within r x :=
  fun s => (h s).state rfl

end
end Drv
