import Drv.Softmac.Runtime

/-!
# Freshness of Ethernet devices

A device that is taken is the peer of the open port if every cleanup and
every stop found none waiting (`taken_open`), and need not be otherwise
(`taken_closed`). The frames that pass between the two are not followed.
-/

namespace Drv.Softmac.ClientRuntime

open DriverEthernetPort

/-- A cleanup or a stop finds no device pending, and a cleanup none in a call that it does not
cancel. A link-up on an open port finds no device of an earlier one. -/
def Settled (r : ClientRuntime) : Op → Prop
  | .setEthernetStatus _ up _ => !up ∨ r.io.ethernet.isClosed ∨
    ∀ d ∈ r.io.unpublishedEthernetDevice, r.io.ethernet.id = d
  | .beginCleanup _ => r.cleanup ∨ r.io.pendingEthernetDevices = [] ∧
    ∀ epoch host, r.linking = some (epoch, some host) → epoch = r.epoch
  | .requestStop => r.io.pendingEthernetDevices = []
  | _ => True

def AllSettled : ClientRuntime → List Op → Prop
  | _, [] => True
  | r, op :: ops => r.Settled op ∧ AllSettled (r.step op) ops

structure Fresh (r : ClientRuntime) : Prop where
  pending : ∀ d ∈ r.io.pendingEthernetDevices, r.io.ethernet.Serves d
  linking : ∀ epoch host, r.linking = some (epoch, some host) → epoch ∈ r.live →
    r.io.ethernet.Serves host
  begun : ∀ epoch host, r.linking = some (epoch, host) → epoch ≤ r.epoch
  live : ∀ e ∈ r.live, e = 0 ∨ e = r.epoch

namespace Fresh

variable {r : ClientRuntime} (h : r.Fresh)
include h

theorem setEthernetStatus {epoch : Nat} {up made : Bool}
    (hs : r.Settled (.setEthernetStatus epoch up made)) (hidle : r.linking = none) :
    (r.setEthernetStatus epoch up made).Fresh := by
  have hepoch := h.live epoch
  unfold ClientRuntime.setEthernetStatus
  split
  · exact h
  split
  · exact ⟨by simp, by simp [hidle], by simp [hidle], h.live⟩
  next hup =>
  split
  · dsimp only
    split
    · refine ⟨by simp [setPort], ?_, ?_, h.live⟩
      · simp [setPort, Serves, isClosed]
      · grind [setPort]
    · exact ⟨by simp, by simp [hidle], by simp [hidle], h.live⟩
  next hopen =>
    refine ⟨h.pending, fun _ host hlink _ => ?_, by grind, h.live⟩
    exact ⟨(hs.resolve_left hup).resolve_left hopen host (by simp_all), by simpa using hopen⟩

theorem linked {epoch : Nat} {host : Option Nat} (hlink : r.linking = some (epoch, host))
    (answered : Bool) : ({ r with linking := none }.linked epoch host answered).Fresh := by
  unfold ClientRuntime.linked
  split
  · exact ⟨by simp, by simp, by simp, h.live⟩
  split
  · exact ⟨h.pending, by simp, by simp, h.live⟩
  have hp := h.pending
  have hl := h.linking
  refine ⟨?_, by simp, by simp, h.live⟩
  cases host <;>
    grind [setLink, Serves, isClosed]

theorem beginEpoch : r.beginEpoch.Fresh := by
  obtain ⟨hp, hl, hb, hv⟩ := h
  constructor <;> grind [beginEpoch, revoke]

theorem requestStop (hs : r.io.pendingEthernetDevices = []) : r.requestStop.Fresh := by
  obtain ⟨hp, hl, hb, hv⟩ := h
  constructor <;> grind [requestStop, revoke, setPort]

theorem beginCleanup {sent : Bool} (hs : r.Settled (.beginCleanup sent)) :
    (r.beginCleanup sent).Fresh := by
  unfold ClientRuntime.beginCleanup
  split
  · exact h
  next hc =>
  obtain ⟨hpending, hlink⟩ := hs.resolve_left hc
  have hclosed : (r.beginEpoch.setPort (r.io.ethernet.setLink false)).Fresh := by
    obtain ⟨hp, hl, hb, hv⟩ := h.beginEpoch
    constructor <;> grind [ClientRuntime.beginEpoch, ClientRuntime.revoke, ClientRuntime.setPort]
  split
  · exact { hclosed with }
  · exact hclosed.requestStop hpending

theorem step {op : Op} (hs : r.Settled op) : (r.step op).Fresh := by
  cases op with
  | setEthernetStatus =>
    rw [ClientRuntime.step]
    split
    · exact h
    next hidle => exact h.setEthernetStatus hs (by simpa using hidle)
  | linkAnswered answered =>
    rw [ClientRuntime.step]
    split
    · exact h
    next hlink => exact h.linked hlink answered
  | takeEthernetDevice =>
    exact { h with pending := fun d hd => h.pending d (List.mem_of_mem_tail hd) }
  | beginEpoch => exact h.beginEpoch
  | beginCleanup => exact h.beginCleanup hs
  | finishCleanup =>
    obtain ⟨hp, hl, hb, hv⟩ := h
    constructor <;> grind [step, finishCleanup, revoke]
  | requestStop => exact h.requestStop hs

theorem run {ops : List Op} (hs : r.AllSettled ops) : (ops.foldl ClientRuntime.step r).Fresh := by
  induction ops generalizing r with
  | nil => exact h
  | cons op rest ih => exact ih (h.step hs.1) hs.2

end Fresh

/-- A device that is taken is the peer of the open port. -/
theorem taken_open (ops : List Op) (hs : AllSettled {} ops) :
    ∀ d ∈ (ops.foldl step {}).takeEthernetDevice.1, (ops.foldl step {}).io.ethernet.Serves d := by
  have hinit : Fresh {} := by
    constructor <;> simp
  exact fun d hd => (hinit.run hs).pending d (List.mem_of_mem_head? hd)

theorem taken_after_link :
    let r := [.beginEpoch, .setEthernetStatus 2 true true, .linkAnswered true].foldl step {}
    r.takeEthernetDevice.1 = some 0 ∧ r.io.ethernet.Serves 0 := by
  have hs : AllSettled {} [.beginEpoch, .setEthernetStatus 2 true true, .linkAnswered true] :=
    ⟨trivial, .inr (.inr (by simp [step, beginEpoch])), trivial, trivial⟩
  exact ⟨by decide, taken_open _ hs 0 (by decide)⟩

/-- A cleanup closes the port of a device that is then taken. -/
theorem taken_closed :
    let r := [.beginEpoch, .setEthernetStatus 2 true true, .linkAnswered true,
      .beginCleanup true].foldl step {}
    r.takeEthernetDevice.1 = some 0 ∧ r.io.ethernet.id = 0 ∧ r.io.ethernet.isClosed := by
  decide

end Drv.Softmac.ClientRuntime
