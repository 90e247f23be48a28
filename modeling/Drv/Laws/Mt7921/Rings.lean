import Mathlib.Data.List.Induction
import Drv.Base.History
import Drv.Mt7921.Active

/-!
# What is done to a receive ring

The calls on the board that concern one MCU receive ring, in order
(`acts`): a descriptor read as done, its buffer copied, a descriptor
given to the device, the producer index written. An arrival is a
descriptor read as done together with the copy of its buffer. The reads of
descriptors themselves, done or not, are `looks`; a drain of a ring ends at
its budget or at a descriptor that was not done (`Left`).

While nothing fails the engine goes round in cycles of four such acts
(`Arrival.cycle`). `justified_cycles` says that in them every descriptor
is given back after its buffer was copied.
-/

namespace Drv.Mt7921

open Drv.Hardware (Error)
open List

/-! ## Acts -/

inductive Act where
  /-- A descriptor was read as done. -/
  | seen (slot : Nat) (ctrl : UInt32)
  /-- A buffer was copied. -/
  | copied (slot : Nat) (bytes : Bytes)
  /-- A descriptor was written, or the write failed. -/
  | armed (slot : Nat) (ok : Bool)
  /-- The producer index was written, or the write failed. -/
  | published (producer : Nat) (ok : Bool)

variable (ring : McuRxIrqRing)

def actOf : BoardCall → Option Act
  | ⟨.read (.rxRing r) offset _, .ok bytes⟩ =>
    if r = ring ∧ (DmaDescriptor.fromBytes bytes).isDmaDone then
      some (.seen (offset / dmaDescriptorLen) (DmaDescriptor.fromBytes bytes).ctrl)
    else none
  | ⟨.read (.rxBuffers r) offset _, .ok bytes⟩ =>
    if r = ring then some (.copied (offset / mcuRxBufferBytes) bytes) else none
  | ⟨.write (.rxRing r) offset _, answer⟩ =>
    if r = ring then some (.armed (offset / dmaDescriptorLen) answer.isOk) else none
  | ⟨.writeU32 offset value, answer⟩ =>
    if offset = rxCidx ring then some (.published value.toNat answer.isOk) else none
  | _ => none

def acts (calls : List BoardCall) : List Act := calls.filterMap (actOf ring)

theorem acts_append (calls more : List BoardCall) :
    acts ring (calls ++ more) = acts ring calls ++ acts ring more :=
  filterMap_append

/-- A descriptor that was read: its slot, and whether it was done. -/
def lookOf : BoardCall → Option (Nat × Bool)
  | ⟨.read (.rxRing r) offset _, .ok bytes⟩ =>
    if r = ring then
      some (offset / dmaDescriptorLen, (DmaDescriptor.fromBytes bytes).isDmaDone)
    else none
  | _ => none

def looks (calls : List BoardCall) : List (Nat × Bool) := calls.filterMap (lookOf ring)

theorem looks_append (calls more : List BoardCall) :
    looks ring (calls ++ more) = looks ring calls ++ looks ring more :=
  filterMap_append

/-! ## Arrivals -/

/-- A descriptor read as done and the copy of its buffer, in a poll that
waited for a response. -/
structure Arrival where
  slot : Nat
  ctrl : UInt32
  bytes : Bytes
  awaited : Option UInt8

namespace Arrival

def routed (a : Arrival) : Except McuRxRouteError McuRxRoute :=
  routeMcuRxDescriptor (LoaderMechanics.ringNumber ring) (UInt16.ofNat a.slot) a.ctrl a.bytes

/-- The response that the poll waited for. -/
def matched (a : Arrival) : Option FirmwareRx :=
  match a.routed ring with
  | .ok (.firmware response) =>
    if classifyFirmwareRx a.awaited response.response = .matched then some response else none
  | _ => none

/-- The route that is left for an event. -/
def offered (a : Arrival) : Option McuRxRoute :=
  match a.routed ring with
  | .ok route => if (a.matched ring).isSome then none else some route
  | .error _ => none

/-- All that is done for an arrival when nothing fails. -/
def cycle (a : Arrival) : List Act :=
  [.seen a.slot a.ctrl, .copied a.slot a.bytes, .armed ((a.slot + 7) % 8) true,
    .published a.slot true]

end Arrival

open Arrival

/-- The arrivals in order. -/
def completed (awaited : Option UInt8) : List Act → List Arrival
  | .seen slot ctrl :: .copied slot' bytes :: rest =>
    if slot' = slot then ⟨slot, ctrl, bytes, awaited⟩ :: completed awaited rest
    else completed awaited rest
  | _ :: rest => completed awaited rest
  | [] => []

/-- The arrivals whose replacement and producer index were then written. -/
def replaced (awaited : Option UInt8) : List Act → List Arrival
  | .seen slot ctrl :: .copied slot' bytes :: .armed posted true :: .published producer true ::
      rest =>
    if slot' = slot ∧ posted = (slot + 7) % 8 ∧ producer = slot then
      ⟨slot, ctrl, bytes, awaited⟩ :: replaced awaited rest
    else replaced awaited rest
  | _ :: rest => replaced awaited rest
  | [] => []

/-- After `count` arrivals a ring was drained of some more: its descriptors
were looked at in turn, up to the budget or to one that was not done. -/
def Left (budget count : Nat) (arrived : List Arrival) (looks : List (Nat × Bool)) : Prop :=
  let done := arrived.map fun a => (a.slot, true)
  (arrived.length = budget ∧ looks = done) ∨
    (arrived.length < budget ∧ looks = done ++ [((count + arrived.length) % 8, false)])

variable {as : List Arrival}

theorem Left.cons {budget count : Nat} {more : List (Nat × Bool)}
    (h : Left budget (count + 1) as more) (a : Arrival) :
    Left (budget + 1) count (a :: as) ((a.slot, true) :: more) := by
  rcases h with ⟨hlen, hmore⟩ | ⟨hlen, hmore⟩
  · left
    exact ⟨congrArg (· + 1) hlen, congrArg _ hmore⟩
  · right
    refine ⟨Nat.succ_lt_succ hlen, ?_⟩
    rw [hmore, length_cons, Nat.add_right_comm, Nat.add_assoc]
    rfl

theorem cycles_eq {F : List Act → List Arrival}
    (h : ∀ a ∈ as, ∀ tail, F (a.cycle ++ tail) = a :: F tail) (tail : List Act) :
    F (as.flatMap cycle ++ tail) = as ++ F tail := by
  induction as with
  | nil => rfl
  | cons a rest ih =>
    rw [flatMap_cons, append_assoc, h a mem_cons_self, ih fun b hb => h b (mem_cons_of_mem a hb)]
    rfl

section
variable {awaited : Option UInt8} (h : ∀ a ∈ as, a.awaited = awaited) (tail : List Act)
include h

theorem completed_cycles :
    completed awaited (as.flatMap cycle ++ tail) = as ++ completed awaited tail :=
  cycles_eq (fun a ha tail => by simp [cycle, completed, ← h a ha]) tail

theorem replaced_cycles :
    replaced awaited (as.flatMap cycle ++ tail) = as ++ replaced awaited tail :=
  cycles_eq (fun a ha tail => by simp [cycle, replaced, ← h a ha]) tail

end

/-! ## Giving descriptors back -/

/-- The device does not have a slot: it is the last one, never armed, or
its buffer was copied since it was last armed. -/
def Vacant (slot : Nat) (before : List Act) : Prop :=
  (slot = 7 ∧ ∀ ok, .armed slot ok ∉ before) ∨
    ∃ first bytes later, before = first ++ .copied slot bytes :: later ∧
      ∀ ok, Act.armed slot ok ∉ later

/-- A descriptor is written only for a vacant slot. -/
def Returned (before : List Act) : Act → Prop
  | .armed slot _ => Vacant slot before
  | _ => True

/-- Consecutive slots of the ring. -/
def InOrder (as : List Arrival) : Prop := as.map slot = (List.range as.length).map (· % 8)

/-- Part of the cycle of one arrival, in which a write may have failed. -/
def Part (slot : Nat) (tail : List Act) : Prop :=
  ∃ ctrl bytes armed published, tail <+:
    [.seen slot ctrl, .copied slot bytes, .armed ((slot + 7) % 8) armed, .published slot published]

theorem InOrder.push (h : InOrder as) {a : Arrival}
    (ha : a.slot = as.length % 8) : InOrder (as ++ [a]) := by
  rw [InOrder, map_append, h, length_append, length_singleton, range_succ,
    map_append, map_singleton, map_singleton, ha]

theorem InOrder.init {a : Arrival} (h : InOrder (as ++ [a])) :
    InOrder as ∧ a.slot = as.length % 8 := by
  rw [InOrder, map_append, length_append, length_singleton, range_succ, map_append] at h
  obtain ⟨hinit, hl⟩ := append_inj h (by simp)
  exact ⟨hinit, by simpa using hl⟩

theorem vacant_posted (h : InOrder as) (ctrl : UInt32) (bytes : Bytes) :
    Vacant ((as.length + 7) % 8) (as.flatMap cycle ++
      [.seen (as.length % 8) ctrl, .copied (as.length % 8) bytes]) := by
  rcases as.eq_nil_or_concat' with rfl | ⟨init, a, rfl⟩
  · left
    simp
  · obtain ⟨-, hslot⟩ := h.init
    right
    refine ⟨init.flatMap cycle ++ [.seen a.slot a.ctrl], a.bytes,
      [.armed ((a.slot + 7) % 8) true, .published a.slot true,
        .seen ((init ++ [a]).length % 8) ctrl, .copied ((init ++ [a]).length % 8) bytes], ?_, ?_⟩
    · have hpost : (init.length + 1 + 7) % 8 = a.slot := by omega
      simp [cycle, hpost]
    · intro ok hmem
      simp only [length_append, length_singleton, mem_cons, Act.armed.injEq,
        reduceCtorEq, not_mem_nil, or_false] at hmem
      omega

theorem justified_part (h : InOrder as) {tail : List Act}
    (hcycles : Justified Returned (as.flatMap cycle)) (htail : Part (as.length % 8) tail) :
    Justified Returned (as.flatMap cycle ++ tail) := by
  obtain ⟨ctrl, bytes, armed, published, rest, hr⟩ := htail
  have hall : Justified Returned (as.flatMap cycle ++ (tail ++ rest)) := by
    rw [hr]
    apply justified_append.mpr
    refine ⟨hcycles, trivial, trivial, ?_, trivial, trivial⟩
    have hpost : (as.length % 8 + 7) % 8 = (as.length + 7) % 8 := by omega
    simpa [Returned, hpost] using vacant_posted h ctrl bytes
  rw [← append_assoc] at hall
  exact (justified_append.mp hall).1

theorem justified_cycles (h : InOrder as) : Justified Returned (as.flatMap cycle) := by
  induction as using List.reverseRecOn with
  | nil => exact trivial
  | append_singleton as a ih =>
    obtain ⟨hinit, hslot⟩ := h.init
    have hpart : Part (as.length % 8) a.cycle := by
      refine ⟨a.ctrl, a.bytes, true, true, ?_⟩
      rw [← hslot]
      exact prefix_rfl
    have := justified_part hinit (ih hinit) hpart
    rwa [flatMap_append, flatMap_singleton]

/-! ## The states of the slots -/

/-- The state of a slot after a number of arrivals: all are armed but the
one before the next. -/
def slotAt (count : Nat) (index : Fin 8) : SlotState :=
  if index.val = (count + 7) % 8 then .available ((count + 7 - index) / 8)
  else .armed ((count + 7 - index) / 8 + 1)

variable (count : Nat)

theorem slotAt_next (index : Fin 8) (h : index.val = count % 8) :
    slotAt count index = .armed (count / 8 + 1) ∧
      slotAt (count + 1) index = .available (count / 8 + 1) := by
  refine ⟨?_, ?_⟩
  · rw [slotAt, if_neg (by omega)]
    congr 2
    omega
  · rw [slotAt, if_pos (by omega)]
    congr 1
    omega

theorem slotAt_posted (index : Fin 8) (h : index.val = (count + 7) % 8) :
    slotAt count index = .available ((count + 7) / 8) ∧
      slotAt (count + 1) index = .armed ((count + 7) / 8 + 1) := by
  refine ⟨?_, ?_⟩
  · rw [slotAt, if_pos h]
    congr 1
    omega
  · rw [slotAt, if_neg (by omega)]
    congr 2
    omega

/-! ## The hardware under the routing -/

namespace RxRouting
variable {η : Type} {P : η → Prop} {write : η → Except Error Unit × η} (r : RxRouting)
  (ring : McuRxIrqRing) (h : η)

theorem repost_keeps (hstay : P h) (hwrite : P (write h).2) (posted : UInt16) :
    P (r.repost ring posted write h).2.1 ∧
      (r.repost ring posted write h).2.2.owner = r.owner := by
  unfold repost
  repeat' split
  all_goals first
    | exact ⟨hstay, rfl⟩
    | (rename_i heq; rw [heq] at hwrite; exact ⟨hwrite, rfl⟩)

theorem publish_keeps (hstay : P h) (hwrite : P (write h).2) (producer : UInt16) :
    P (r.publish ring producer write h).2.1 ∧
      (r.publish ring producer write h).2.2.owner = r.owner := by
  unfold publish
  repeat' split
  all_goals first
    | exact ⟨hstay, rfl⟩
    | (rename_i heq; rw [heq] at hwrite; exact ⟨hwrite, rfl⟩)

theorem prepare_keeps (consumed posted : UInt16) (route : Except McuRxRouteError McuRxRoute)
    (disposition : Option FirmwareRxDisposition) :
    (r.prepare ring consumed posted route disposition h).2.1 = h ∧
      (r.prepare ring consumed posted route disposition h).2.2.owner = r.owner := by
  unfold prepare
  repeat' split
  all_goals exact ⟨rfl, rfl⟩

theorem complete_keeps (consumed : UInt16) :
    (r.complete ring consumed h).2.1 = h ∧ (r.complete ring consumed h).2.2.owner = r.owner := by
  unfold complete
  repeat' split
  all_goals exact ⟨rfl, rfl⟩

end RxRouting
end Drv.Mt7921
