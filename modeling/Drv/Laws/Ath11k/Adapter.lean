import Drv.Ath11k.Adapter

/-!
# Transmit results and the association

A drive reports every completed frame once and with its own destination
exactly when each of them was sent to the peer of the moment
(`completions_reported_iff`). A frame that completes after its association
was cleared fails the drive (`cleared_before_completion`).

A frame that never completes is not reported, and nothing is said of it.
-/

namespace Drv.Ath11k.Adapter.ClientDevice

/-- The frames that a drive completes. -/
def completed (c : ClientDevice) (releases : Releases) : List (Pending × Bool) :=
  (serviceHostTxCompletions releases c.pending).1

/-- What is to be reported of a completed frame. -/
def txResult (done : Pending × Bool) : TxResult := ⟨done.1.destination, done.2⟩

/-- The drives of a run, each with the device that it finds. -/
def drives (c : ClientDevice) : List Op → List (ClientDevice × Releases)
  | [] => []
  | .drive releases :: rest => (c, releases) :: drives (drive releases c).state rest
  | op :: rest => drives (exec op c).state rest

theorem reportTxResults_of_peer {c : ClientDevice} {peer : Core.Address} (hp : c.peer = some peer)
    (frames : List (Pending × Bool)) :
    reportTxResults frames c = ⟨.ok (), c, frames.map fun done => ⟨peer, done.2⟩⟩ := by
  induction frames with
  | nil => rfl
  | cons done rest ih =>
    rw [reportTxResults, Eff.look_bind, hp]
    simp only [Eff.bind_apply, Eff.call, ih]
    rfl

/-- No drive of a run fails, and each reports what it completes, exactly when every frame
completes while its destination is the peer. -/
theorem completions_reported_iff (c : ClientDevice) (ops : List Op) :
    (∀ d ∈ drives c ops, (drive d.2 d.1).result = .ok () ∧
      (drive d.2 d.1).calls = (completed d.1 d.2).map txResult) ↔
      ∀ d ∈ drives c ops, ∀ done ∈ completed d.1 d.2, d.1.peer = some done.1.destination := by
  refine forall₂_congr fun d _ => ?_
  let c' : ClientDevice := { d.1 with pending := (serviceHostTxCompletions d.2 d.1.pending).2 }
  show (reportTxResults (completed d.1 d.2) c').result = _ ∧
    (reportTxResults (completed d.1 d.2) c').calls = _ ↔ ∀ done ∈ _, c'.peer = _
  generalize completed d.1 d.2 = frames
  cases hp : c'.peer with
  | none =>
    cases frames with
    | nil => exact ⟨fun _ _ h => (nomatch h), fun _ => ⟨rfl, rfl⟩⟩
    | cons done rest =>
      refine ⟨fun h => ?_, fun h => (nomatch h done List.mem_cons_self)⟩
      rw [reportTxResults, Eff.look_bind, hp] at h
      cases h.1
  | some peer =>
    rw [reportTxResults_of_peer hp, List.map_inj_left]
    simp [txResult]

/-- A client with an open port. -/
def connected : ClientDevice := ⟨Vector.replicate 6 4, some (Vector.replicate 6 2), true, true, []⟩

/-- A data frame of that client to its peer. -/
def dataFrame : List UInt8 := [8, 1, 0, 0] ++ .replicate 6 2 ++ .replicate 6 4 ++ .replicate 8 0

/-- A frame that completes after its association was cleared fails the drive, unreported. -/
theorem cleared_before_completion :
    ∃ d ∈ drives connected [.queueTx dataFrame 7, .clearAssociation connected.peer,
      .drive [(7, true)]], completed d.1 d.2 ≠ [] ∧
        (drive d.2 d.1).result = .error .badState ∧ (drive d.2 d.1).calls = [] :=
  ⟨_, List.mem_cons_self, by decide, rfl, rfl⟩

end Drv.Ath11k.Adapter.ClientDevice
