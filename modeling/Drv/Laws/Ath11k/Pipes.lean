import Drv.Ath11k.CePipes

/-!
# One side of one pipe

A call runs on the source or the receive side of one pipe. `onSide` is
either, for a side that is read and put back; what holds of every such
side holds after the call if it holds of the one that it ran on.
-/

namespace Drv.Ath11k.CePipes

structure Side (S : Type) where
  get : InitializedPipe → Option S
  put : InitializedPipe → S → InitializedPipe
  get_put : ∀ p s, get (put p s) = some s

def source : Side SourceSide := ⟨(·.source), fun p s => { p with source := some s }, fun _ _ => rfl⟩

def receive : Side ReceiveSide :=
  ⟨(·.receive), fun p s => { p with receive := some s }, fun _ _ => rfl⟩

section
variable {S C α : Type} {l : Side S} {pipes : List InitializedPipe} {pipe : Nat}

def onSide (l : Side S) (pipe : Nat) (x : Eff S C CeError α) :
    Eff (List InitializedPipe) C CeError α := fun pipes =>
  match pipes[pipe]? with
  | none => ⟨.error .invalidFrame, pipes, []⟩
  | some p =>
    match l.get p with
    | none => ⟨.error .deviceFault, pipes, []⟩
    | some side => ⟨(x side).result, pipes.set pipe (l.put p (x side).state), (x side).calls⟩

theorem onSide_some (x : Eff S C CeError α) {side : S} (h : pipes[pipe]?.bind l.get = some side) :
    let o := onSide l pipe x pipes
    o.result = (x side).result ∧ o.calls = (x side).calls ∧
      o.state[pipe]?.bind l.get = some (x side).state := by
  obtain ⟨whole, hwhole, hside⟩ := Option.bind_eq_some_iff.mp h
  have hset : (pipes.set pipe (l.put whole (x side).state))[pipe]? =
      some (l.put whole (x side).state) := by
    rw [List.getElem?_set_self (lt_of_getElem? hwhole)]
  simp only [onSide, hwhole, hside, hset, Option.bind_some, l.get_put, and_self]

/-- What runs on one side leaves the other pipes, and every pipe that is
without that side. -/
theorem onSide_each {I I' : Nat → S → Prop}
    (h : ∀ i side, pipes[i]?.bind l.get = some side → I i side) {x : Eff S C CeError α}
    (hother : ∀ i, i ≠ pipe → ∀ side, I i side → I' i side)
    (hx : ∀ side, pipes[pipe]?.bind l.get = some side → I' pipe (x side).state) (i : Nat) (side : S)
    (hside : (onSide l pipe x pipes).state[i]?.bind l.get = some side) : I' i side := by
  cases hp : pipes[pipe]?.bind l.get with
  | none =>
    have hst : (onSide l pipe x pipes).state = pipes := by
      cases hwhole : pipes[pipe]? with
      | none => simp [onSide, hwhole]
      | some whole =>
        have hn : l.get whole = none := by simpa [hwhole] using hp
        simp [onSide, hwhole, hn]
    rw [hst] at hside
    refine hother i (fun hi => ?_) side (h i side hside)
    rw [hi, hp] at hside
    cases hside
  | some before =>
    by_cases hi : i = pipe
    · obtain ⟨-, -, hst⟩ := onSide_some x hp
      rw [hi, hst] at hside
      cases hside
      exact hi ▸ hx before hp
    · obtain ⟨whole, hwhole, hsome⟩ := Option.bind_eq_some_iff.mp hp
      have hst : (onSide l pipe x pipes).state[i]? = pipes[i]? := by
        simp only [onSide, hwhole, hsome]
        exact List.getElem?_set_ne (Ne.symm hi)
      rw [hst] at hside
      exact hother i hi side (h i side hside)

end

section
variable {C α : Type} {pipe : Nat}

theorem onSource_eq (x : Eff SourceSide C CeError α) : onSource pipe x = onSide source pipe x := by
  funext pipes
  unfold onSource onSide
  cases pipes[pipe]? with
  | none => rfl
  | some p => obtain ⟨_ | source, _⟩ := p <;> rfl

theorem onReceive_eq (x : Eff ReceiveSide C CeError α) :
    onReceive pipe x = onSide receive pipe x := by
  funext pipes
  unfold onReceive onSide
  cases pipes[pipe]? with
  | none => rfl
  | some p => obtain ⟨_, _ | receive⟩ := p <;> rfl

end

theorem initPipes_get {statusMemory : Nat → CeDestinationStatusDescriptor}
    {configs : List HostPipeConfig} {first : Nat} {pipes : List InitializedPipe}
    (h : initPipes statusMemory configs first = .ok pipes) {i : Nat} {pipe : InitializedPipe}
    (hpipe : pipes[i]? = some pipe) :
    ∃ config ∈ configs, ∃ n, InitializedPipe.initSource config n = .ok pipe.source ∧
      InitializedPipe.initReceive config n statusMemory = .ok pipe.receive := by
  induction configs generalizing first pipes i with
  | nil =>
    cases h
    simp at hpipe
  | cons config rest ih =>
    obtain ⟨whole, hwhole, h⟩ := bind_eq_ok.mp h
    obtain ⟨later, hlater, h⟩ := bind_eq_ok.mp h
    cases h
    cases i with
    | zero =>
      obtain ⟨source, hsrc, hwhole⟩ := bind_eq_ok.mp hwhole
      obtain ⟨receive, hrecv, hwhole⟩ := bind_eq_ok.mp hwhole
      cases hwhole
      cases hpipe
      exact ⟨config, List.mem_cons_self, _, hsrc, hrecv⟩
    | succ =>
      obtain ⟨config', hmem, hinit⟩ := ih hlater hpipe
      exact ⟨config', List.mem_cons_of_mem _ hmem, hinit⟩

end Drv.Ath11k.CePipes
