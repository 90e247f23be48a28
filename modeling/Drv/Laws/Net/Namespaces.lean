import Drv.Net.Namespaces

/-!
# What ends a generation that is ready

`Keeps` says once what an event does to the generations that are ready,
with the invariant that this rests on: a generation is ready only once its
provider was installed. So a CLAIM that fails ends none that is ready, but
a waiter that ran out of time does, where readiness came in between. That
a generation ever becomes ready is not shown.
-/

namespace Drv.Net.Namespaces

open World Function

variable {w w' : World} {l l' : Lifecycle} {K K' : Nat → Nat → Prop} {ns g : Nat}

/-! ## One namespace -/

def Phase.serves : Phase → Bool
  | .serving | .ready => true
  | _ => false

namespace Lifecycle

structure Valid (l : Lifecycle) : Prop where
  live : l.live = if l.phase.serves then l.generation else 0
  started : l.phase = .pending → l.generation ≠ 0
  held : l.phase = .ready → l.provider l.generation ≠ .claimed
  unborn : l.provider 0 = .absent

/-- What a change that ends nothing may do. -/
structure Moves (l l' : Lifecycle) : Prop where
  valid : l'.Valid
  ready : l.phase = .ready → l'.phase = .ready ∧ l'.generation = l.generation

theorem Valid.stop (h : l.Valid) (dead : Bool) : (l.stop dead).Valid := by
  constructor
  · cases dead <;> rfl
  · cases dead <;> nofun
  · cases dead <;> nofun
  · exact h.unborn

theorem Valid.provide (h : l.Valid) {holder : Holder} {monitor : Nat → Bool}
    (hholder : holder = .absent ∨ holder = .installed ∧ l.provider g ≠ .absent) :
    l.Moves { l with provider := update l.provider g holder, monitor } := by
  have hunborn := h.unborn
  refine ⟨⟨h.live, h.started, fun hready => ?_, ?_⟩, fun hready => ⟨hready, rfl⟩⟩
  · have hheld := h.held hready
    grind [update_apply]
  · grind [update_apply]

end Lifecycle

/-! ## The world -/

def World.Valid (w : World) : Prop := ∀ ns, (w.lifecycle ns).Valid

def World.Ready (w : World) (ns g : Nat) : Prop :=
  (w.lifecycle ns).phase = .ready ∧ (w.lifecycle ns).generation = g

instance World.decidableReady : Decidable (w.Ready ns g) := inferInstanceAs (Decidable (_ ∧ _))

/-- `K` are the generations that may have been ready and are not any more. -/
structure Keeps (K : Nat → Nat → Prop) (w w' : World) : Prop where
  valid : w'.Valid
  kept : ∀ ns g, w.Ready ns g → w'.Ready ns g ∨ K ns g

namespace Keeps

theorem beside (h : w.Valid) (hsame : w'.lifecycle = w.lifecycle) : Keeps K w w' := by
  unfold Valid at h
  rw [← hsame] at h
  refine ⟨h, fun ns g hready => .inl ?_⟩
  unfold Ready
  rw [hsame]
  exact hready

theorem trans {w'' : World} (h : Keeps K w w') (h' : Keeps K w' w'') : Keeps K w w'' :=
  ⟨h'.valid, fun ns g hready => (h.kept ns g hready).elim (h'.kept ns g) .inr⟩

theorem spare (h : Keeps K w w') (hK : ∀ ns g, w.Ready ns g → K ns g → K' ns g) : Keeps K' w w' :=
  ⟨h.valid, fun ns g hready => (h.kept ns g hready).imp_right (hK ns g hready)⟩

section
variable (h : w.Valid)
include h

theorem set (hmove : (w.lifecycle ns).Moves l') : Keeps K w (w.set ns l') := by
  constructor
  · apply (forall_update_iff w.lifecycle fun _ l => l.Valid).mpr
    exact ⟨hmove.valid, fun n _ => h n⟩
  · intro n g hready
    have hk := hmove.ready
    simp only [World.Ready, World.set, update_apply] at *
    grind

theorem stop (ns : Nat) (dead : Bool) :
    Keeps (fun n _ => n = ns) w (w.set ns ((w.lifecycle ns).stop dead)) := by
  constructor
  · apply (forall_update_iff w.lifecycle fun _ l => l.Valid).mpr
    exact ⟨(h ns).stop dead, fun n _ => h n⟩
  · intro n g hready
    by_cases hn : n = ns
    · exact .inr hn
    · left
      simpa [World.Ready, World.set, hn] using hready

theorem stopListed (ns : Nat) (dead : Bool) :
    Keeps (fun n _ => n = ns) w (w.stopListed ns dead) := by
  have hstop := stop h ns dead
  exact hstop.trans (beside hstop.valid rfl)

theorem fail (ns g : Nat) : Keeps (fun n g' => n = ns ∧ g' = g) w (w.fail ns g) := by
  unfold World.fail
  dsimp only
  split
  · exact beside h rfl
  · next hlive =>
    refine (stopListed h ns false).spare fun n g' hready hn => ?_
    subst hn
    simp only [ne_eq, Bool.or_eq_true, decide_eq_true_eq, not_or, not_not] at hlive
    exact ⟨rfl, hready.2.symm.trans hlive.1.1⟩

theorem setFail (g : Nat) (hmove : (w.lifecycle ns).Moves l') :
    Keeps (fun n g' => n = ns ∧ g' = g) w ((w.set ns l').fail ns g) := by
  have hset := set (K := fun n g' => n = ns ∧ g' = g) h hmove
  exact hset.trans (fail hset.valid ns g)

/-! ## Calls -/

theorem register (ns : Nat) : Keeps K w ((w.register ns).toOption.getD w) := by
  unfold World.register
  dsimp only
  split
  · exact beside h rfl
  split
  · exact beside h rfl
  split
  · exact beside h rfl
  · next hfree _ =>
    simp only [Bool.or_eq_true, decide_eq_true_eq, not_or, ne_eq, not_not] at hfree
    refine set h ⟨⟨rfl, nofun, nofun, ?_⟩, ?_⟩
    · simpa using (h ns).unborn
    · simp [hfree.2]

theorem ensure (i ns : Nat) (oom : Bool) : Keeps K w (w.ensure i ns oom) := by
  unfold World.ensure
  dsimp only
  split
  · exact beside h rfl
  · exact beside h rfl
  · exact beside h rfl
  · exact beside h rfl
  · next hidle =>
    split
    · exact beside h rfl
    split
    · exact beside h rfl
    split
    · exact beside h rfl
    split
    · exact beside h rfl
    · have hv := h ns
      have hlive : (w.lifecycle ns).live = 0 := by
        rw [hv.live, hidle]
        rfl
      have hset : Keeps K w (w.set ns { w.lifecycle ns with
          owner := .lazy, generation := (w.lifecycle ns).generation + 1, phase := .pending }) :=
        set h ⟨⟨hlive, fun _ => Nat.succ_ne_zero _, nofun, hv.unborn⟩, by simp [hidle]⟩
      exact hset.trans (beside hset.valid rfl)

theorem ensureTurn (i : Nat) (signal : Bool) :
    Keeps (fun ns g => w.callers i = .expired ns g) w (w.ensureTurn i signal) := by
  unfold World.ensureTurn
  dsimp only
  split
  · exact beside h rfl
  · split
    · exact beside h rfl
    split
    · exact beside h rfl
    split
    · exact beside h rfl
    split
    · exact beside h rfl
    split
    · exact beside h rfl
    · exact beside h rfl
  · next ns g hi =>
    have hfail : Keeps (fun n g' => w.callers i = .expired n g') w (w.fail ns g) := by
      refine (fail h ns g).spare ?_
      rintro n g' - ⟨rfl, rfl⟩
      exact hi
    exact hfail.trans (beside hfail.valid rfl)
  · exact beside h rfl

theorem releaseProvisioner : Keeps (fun _ _ => True) w w.releaseProvisioner := by
  have hstop : ∀ (nss : List Nat) (w : World), w.Valid → Valid
      (nss.foldl (fun w ns => w.set ns ((w.lifecycle ns).stop false)) w) := by
    intro nss
    induction nss with
    | nil => exact fun w h => h
    | cons ns nss ih => exact fun w h => ih _ (stop h ns false).valid
  exact ⟨hstop w.namespaces w h, fun _ _ _ => .inr trivial⟩

theorem claim : Keeps K w w.claim := by
  unfold World.claim
  split
  · exact beside h rfl
  · next ns hf =>
    have hphase : (w.lifecycle ns).phase = .pending := by simpa using List.find?_some hf
    have hstart := (h ns).started hphase
    refine set h ⟨⟨rfl, nofun, nofun, ?_⟩, by simp [hphase]⟩
    simpa [update_apply, hstart.symm] using (h ns).unborn

/-- No provider was there to make a generation ready that CLAIM fails. -/
theorem install (hclaimed : (w.lifecycle ns).provider g = .claimed) (ok : Bool) :
    Keeps K w (w.install ns g ok) := by
  cases ok with
  | true => exact set h ((h ns).provide (.inr ⟨rfl, by simp [hclaimed]⟩))
  | false =>
    refine (setFail h g ((h ns).provide (.inl rfl))).spare ?_
    rintro n g' ⟨hready, rfl⟩ ⟨rfl, hg⟩
    exact absurd (hg ▸ hclaimed) ((h n).held hready)

theorem ready (hprov : (w.lifecycle ns).provider g = .installed) :
    Keeps K w ((w.ready ns g).toOption.getD w) := by
  have hv := h ns
  unfold World.ready
  dsimp only
  split
  · exact beside h rfl
  · next hlive =>
    -- The provider of a generation that is live makes it ready.
    have hcur : (w.lifecycle ns).live = (w.lifecycle ns).generation := by
      have hlive' := hv.live
      split at hlive'
      · exact hlive'
      · rw [← not_not.mp hlive, hlive', hv.unborn] at hprov
        cases hprov
    refine set h ⟨⟨hcur, nofun, fun _ => ?_, hv.unborn⟩, by simp⟩
    simp [← hcur, not_not.mp hlive, hprov]

end

end Keeps

/-! ## Events -/

/-- The events that are there to end a generation. -/
def Event.Ends (ns g : Nat) : Event → Prop
  | .releaseProvisioner => True
  | .revokeNamespace n => n = ns
  | .releaseProvider n g' | .releaseMonitor n g' | .revoke n g' => n = ns ∧ g' = g
  | _ => False

/-- A waiter that ran out of time comes to fail its generation. -/
def World.Late (w : World) (ns g : Nat) : Event → Prop
  | .ensureTurn i _ => w.callers i = .expired ns g
  | _ => False

theorem Keeps.step (h : w.Valid) (e : Event) :
    Keeps (fun ns g => e.Ends ns g ∨ w.Late ns g e) w (w.step e) := by
  unfold World.step
  split
  case isFalse => exact beside h rfl
  case isTrue hable =>
    cases e with
    | advance => exact beside h rfl
    | openProvisioner => exact beside h rfl
    | releaseProvisioner => exact (releaseProvisioner h).spare fun _ _ _ _ => .inl trivial
    | register ns => exact register h ns
    | revokeNamespace ns => exact (stopListed h ns true).spare fun _ _ _ h => .inl h.symm
    | ensure i ns oom => exact ensure h i ns oom
    | ensureTurn i signal => exact (ensureTurn h i signal).spare fun _ _ _ h => .inr h
    | claim => exact claim h
    | install ns g ok => exact install h (by simpa [Able] using hable) ok
    | ready => exact ready h (by simpa [Able] using hable)
    | releaseProvider ns g =>
      refine (setFail h g ((h ns).provide (.inl rfl))).spare ?_
      exact fun _ _ _ h => .inl ⟨h.1.symm, h.2.symm⟩
    | releaseMonitor ns g =>
      have hmove : (w.lifecycle ns).Moves { w.lifecycle ns with
          monitor := update (w.lifecycle ns).monitor g false } :=
        ⟨{ h ns with }, fun hready => ⟨hready, rfl⟩⟩
      exact (setFail h g hmove).spare fun _ _ _ h => .inl ⟨h.1.symm, h.2.symm⟩
    | revoke ns g => exact (fail h ns g).spare fun _ _ _ h => .inl ⟨h.1.symm, h.2.symm⟩

theorem valid_run (hz : Nat) (es : List Event) : (run hz es).Valid := by
  have hrun : ∀ w : World, w.Valid → Valid (es.foldl step w) := by
    induction es with
    | nil => exact fun w h => h
    | cons e es ih => exact fun w h => ih _ (Keeps.step h e).valid
  exact hrun { hz } fun ns => ⟨rfl, nofun, nofun, rfl⟩

/-- A generation that is ready ends through the release of its provider, its
monitor or the provisioner, through REVOKE or with its namespace, unless a
waiter whose time was up before comes to fail it. -/
theorem ready_ends_iff (hz : Nat) (es : List Event) (e : Event) :
    (∀ ns g, (run hz es).Ready ns g → ¬ (run hz (es ++ [e])).Ready ns g → e.Ends ns g) ↔
      ∀ ns g, (run hz es).Late ns g e → ¬ (run hz es).Ready ns g := by
  have hrun : run hz (es ++ [e]) = (run hz es).step e := List.foldl_append ..
  rw [hrun]
  constructor
  · intro h ns g hlate hready
    cases e with
    | ensureTurn =>
      simp only [World.Late] at hlate
      apply h ns g hready
      obtain ⟨hphase, hg⟩ := hready
      simp [World.step, World.Able, World.act, World.ensureTurn, hlate, World.Ready,
        World.setCaller, World.fail, hg, hphase, World.stopListed, World.set, Lifecycle.stop]
    | _ => exact hlate
  · intro h ns g hready hlost
    obtain hk | hends | hlate := (Keeps.step (valid_run hz es) e).kept ns g hready
    · exact absurd hk hlost
    · exact hends
    · exact absurd hready (h ns g hlate)

/-- A provider becomes ready after a waiter found its time to be up and
before that waiter fails the generation. -/
theorem ready_ended_by_waiter :
    let es := [.openProvisioner, .ensure 0 0 false, .ensureTurn 0 false, .claim, .install 0 1 true,
      .advance 10000000, .ensureTurn 0 false, .ready 0 1]
    let e := .ensureTurn 0 false
    (run 100 es).Ready 0 1 ∧ ¬ (run 100 (es ++ [e])).Ready 0 1 ∧ ¬ e.Ends 0 1 :=
  ⟨by decide, by decide, id⟩

end Drv.Net.Namespaces
