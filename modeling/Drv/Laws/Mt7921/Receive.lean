import Drv.Base.Hoare
import Drv.Laws.Mt7921.Engine
import Drv.Laws.Mt7921.Rings

/-!
# One poll of the receive rings

What `pollResponse` does over the routing and a logged board. A state is
sound when all acts on each ring are whole cycles, one for each arrival so
far, the engine's heads and the states of the slots fit their number, and
every arrival is an event or was the awaited response (`Sound`).

From a sound state a poll ends in a sound one with more arrivals, having
left each ring at its budget or at a descriptor that was not done
(`Polled`), or it stops in the middle of a cycle and the routing gives up
(`pollResponse_sound`). It stops only for a reason that the log, a frame
or the number of events shows (`Excuse`).

Whether a descriptor reads as done is up to the board; nothing is said of
when a device sets that bit, or of a poll that is never made.
-/

namespace Drv.Mt7921

open Drv.Hardware (Error)
open LoaderMechanics List RxRouting Triple

variable {η : Type} {B : Board η}

/-! ## Calls on the board -/

/-- The hardware with its log, and the routing. -/
abbrev Wired (η : Type) := (η × List BoardCall) × RxRouting

abbrev RxSession (η : Type) := Session (Wired η)

def calls (t : Wired η) : List BoardCall := t.1.2

variable {P : Wired η → Prop} {E : Error → Wired η → Prop} {p : Port}

theorem port_triple {Q : p.Answer → Wired η → Prop}
    (hok : ∀ t t' a, P t → calls t' = calls t ++ [⟨p, .ok a⟩] → t'.2 = t.2 → Q a t')
    (herr : ∀ t t' e, P t → calls t' = calls t ++ [⟨p, .error e⟩] → t'.2 = t.2 → E e t') :
    Triple P (port B.logged p) Q E := by
  refine .of_outcome fun t ht => ?_
  have hport : port B.logged p t = ⟨(B.handle p t.1.1).1,
      (((B.handle p t.1.1).2, calls t ++ [⟨p, (B.handle p t.1.1).1⟩]), t.2), []⟩ := rfl
  rw [hport]
  generalize (B.handle p t.1.1).2 = h
  cases (B.handle p t.1.1).1 with
  | ok a => exact .inl ⟨a, rfl, hok t _ a ht rfl rfl⟩
  | error e => exact .inr ⟨e, rfl, herr t _ e ht rfl rfl⟩

theorem routing_triple
    {f : RxRouting → η × List BoardCall → Except Error Unit × (η × List BoardCall) × RxRouting}
    {Q : Unit → Wired η → Prop}
    (h : ∀ t, P t → (∃ t', f t.2 t.1 = (.ok (), t') ∧ Q () t') ∨ ∃ e t', f t.2 t.1 = (.error e, t') ∧ E e t')
    : Triple P (routing f) Q E := by
  refine .of_outcome fun t ht => ?_
  have hrout : routing f t = ⟨(f t.2 t.1).1, (f t.2 t.1).2, []⟩ := rfl
  rw [hrout]
  rcases h t ht with ⟨t', hf, ht'⟩ | ⟨e, t', hf, ht'⟩
  · rw [hf]
    exact .inl ⟨(), rfl, ht'⟩
  · rw [hf]
    exact .inr ⟨e, rfl, ht'⟩

variable {req : Request} {Q : req.Answer → Wired η → Prop} {m : LoaderMechanics}

theorem ask_views {E : Wired η → Prop} {F : LoaderMechanicsError Error → RxSession η → Prop}
    (h : Triple P (views B.logged req) Q fun _ => E) :
    Triple (fun s => P s.transport ∧ s.mechanics = m) (ask (activeMcu B.logged) req)
      (fun r s => (match r with
        | .ok a => Q a s.transport
        | .error _ => E s.transport) ∧ s.mechanics = m) F := by
  refine .of_outcome fun s ⟨hs, hm⟩ => .inl ⟨_, rfl, ?_, hm⟩
  obtain ⟨hok, herr⟩ := h s.transport hs
  split
  next a ha => exact hok a ha
  next e he => exact herr e he

variable {wrap : Error → LoaderMechanicsError Error}

theorem demand_views {E : Wired η → Prop} (h : Triple P (views B.logged req) Q fun _ => E) :
    Triple (fun s => P s.transport ∧ s.mechanics = m) (demand (activeMcu B.logged) wrap req)
      (fun a s => Q a s.transport ∧ s.mechanics = m) (fun _ s => E s.transport) := by
  refine .bind (ask_views h) fun answer => ?_
  cases answer with
  | ok => exact .pure fun _ hs => hs
  | error => exact .fail fun _ hs => hs.1

/-! ## Descriptors that are looked at -/

/-- The descriptors of each ring that were looked at. -/
abbrev Looks := McuRxIrqRing → List (Nat × Bool)

def Looks.push (seen : Looks) (ring : McuRxIrqRing) (more : List (Nat × Bool)) : Looks :=
  Function.update seen ring (seen ring ++ more)

theorem Looks.push_push (seen : Looks) (ring : McuRxIrqRing) (some more : List (Nat × Bool)) :
    (seen.push ring some).push ring more = seen.push ring (some ++ more) := by
  simp [push]

theorem Looks.push_nil (seen : Looks) (ring : McuRxIrqRing) : seen.push ring [] = seen := by
  simp [push]

/-! ## One round of the routing -/

/-- The arrivals of a run on each ring. -/
abbrev Arrivals := McuRxIrqRing → List Arrival

def Arrivals.push (as : Arrivals) (ring : McuRxIrqRing) (a : Arrival) : Arrivals :=
  fun r => if r = ring then as r ++ [a] else as r

@[simp] theorem Arrivals.push_self (as : Arrivals) (ring : McuRxIrqRing) (a : Arrival) :
    as.push ring a ring = as ring ++ [a] :=
  if_pos rfl

theorem Arrivals.push_of_ne (as : Arrivals) {ring other : McuRxIrqRing} (a : Arrival)
    (h : other ≠ ring) : as.push ring a other = as other :=
  if_neg h

/-- The routes of the events on a ring. -/
def routesOn (ring : McuRxIrqRing) (events : List ReceivedEvent) : List (Option McuRxRoute) :=
  (events.filter (·.occurrence.slot.ring = ring)).map ReceivedEvent.route

variable (ring : McuRxIrqRing)

theorem routesOn_append (events more : List ReceivedEvent) :
    routesOn ring (events ++ more) = routesOn ring events ++ routesOn ring more := by
  rw [routesOn, filter_append, map_append]
  rfl

theorem routesOn_length (events : List ReceivedEvent) :
    (routesOn .wm events).length + (routesOn .wm2 events).length = events.length := by
  induction events with
  | nil => rfl
  | cons e rest ih =>
    simp only [routesOn, length_map] at ih
    simp only [routesOn, length_map, filter_cons, length_cons]
    cases e.occurrence.slot.ring <;> simp <;> omega

/-- The routes that arrivals leave for events. -/
def offers (ring : McuRxIrqRing) (as : List Arrival) : List (Option McuRxRoute) :=
  (as.filterMap (Arrival.offered ring)).map some

theorem offers_append (as more : List Arrival) :
    offers ring (as ++ more) = offers ring as ++ offers ring more := by
  rw [offers, filterMap_append, map_append]
  rfl

/-- The routing between two rounds: every arrival is an event, taken or
waiting, or was the awaited response. -/
structure Settled (taken : List ReceivedEvent) (as : Arrivals) (r : RxRouting) : Prop where
  live : r.live = true
  pending : r.pending = none
  slots : ∀ ring index, r.slots ring index = slotAt (as ring).length index
  events : ∀ ring, routesOn ring (taken ++ r.events) = offers ring (as ring)
  owned : ∀ e ∈ taken ++ r.events, e.owner = r.owner

/-- The slot of an arrival. -/
def slotOf (ring : McuRxIrqRing) (count : Nat) : Slot := ⟨ring, count % 8, Nat.mod_lt _ (by decide)⟩

section
variable {ring : McuRxIrqRing} {count : Nat} {consumed : UInt16}
section
variable (h : consumed.toNat = count % 8)
include h

theorem slot_new : Slot.new ring consumed = .ok (slotOf ring count) := by
  have hlt : count % 8 < 8 := Nat.mod_lt _ (by decide)
  simp [Slot.new, slotOf, h, hlt]

theorem slotOf_is : (slotOf ring count).is ring consumed = true := by
  simp [Slot.is, slotOf, h]

theorem posted_toNat : (posted consumed).toNat = (count + 7) % 8 := by
  have heq : consumed + mcuRxRingCount - 1 = consumed + 7 := by
    rw [mcuRxRingCount, UInt16.sub_eq_add_neg, UInt16.add_assoc]
    rfl
  have hsum : (consumed + 7).toNat = consumed.toNat + 7 := by
    simp
    omega
  rw [posted, UInt16.toNat_mod, heq, hsum, h]
  simp [mcuRxRingCount]

theorem next_toNat : (next consumed mcuRxRingCount).toNat = (count + 1) % 8 := by
  have hsum : (consumed + 1).toNat = consumed.toNat + 1 := by
    simp
    omega
  rw [next, UInt16.toNat_mod, hsum, h]
  simp [mcuRxRingCount]

end

end

/-- The occurrence of an arrival. -/
def occurrenceOf (ring : McuRxIrqRing) (count : Nat) : Occurrence :=
  ⟨slotOf ring count, count / 8 + 1⟩

section
variable (r : RxRouting) (ring : McuRxIrqRing) (count : Nat) (route : Option McuRxRoute)

/-- The slots while a frame is prepared. -/
def RxRouting.givenUp : RxRouting := r.setSlot (slotOf ring count) (.available (count / 8 + 1))

/-- The slots once its replacement was armed. -/
def RxRouting.rearmed : RxRouting :=
  (r.givenUp ring count).setSlot (slotOf ring (count + 7)) (.armed ((count + 7) / 8 + 1))

/-- A frame is prepared. -/
def RxRouting.preparing : RxRouting :=
  { r.givenUp ring count with
    pending := some (.prepared ⟨occurrenceOf ring count, slotOf ring (count + 7), route⟩) }

/-- Its replacement was written. -/
def RxRouting.reposting : RxRouting :=
  { r.rearmed ring count with
    pending := some (.reposted ⟨occurrenceOf ring count, slotOf ring (count + 7), route⟩) }

/-- The producer index was written. -/
def RxRouting.committing : RxRouting :=
  { r.rearmed ring count with
    pending := some (.committed ⟨occurrenceOf ring count, r.owner, route⟩) }

/-- A frame is left for an event or not. -/
def eventOf (owner : Nat) : List ReceivedEvent :=
  if route.isSome then [⟨occurrenceOf ring count, owner, route⟩] else []

/-- The routing after a whole round. -/
def RxRouting.completing : RxRouting :=
  { r.rearmed ring count with
    pending := none
    events := r.events ++ eventOf ring count route r.owner }

end

section
variable {taken : List ReceivedEvent} {as : Arrivals} {r : RxRouting} {ring : McuRxIrqRing}
  {consumed : UInt16} {a : Arrival} {H : Type} {count : Nat} {route : Option McuRxRoute}

section
variable (hr : Settled taken as r) (hcount : (as ring).length = count)
include hr hcount

theorem Settled.next :
    r.slots (slotOf ring count).ring (slotOf ring count).index = .armed (count / 8 + 1) := by
  rw [hr.slots, slotOf, hcount]
  exact (slotAt_next _ _ rfl).1

theorem Settled.vacant :
    (r.givenUp ring count).slots (slotOf ring (count + 7)).ring (slotOf ring (count + 7)).index =
      .available ((count + 7) / 8) := by
  subst hcount
  have hne : (slotOf ring ((as ring).length + 7)).index ≠ (slotOf ring (as ring).length).index := by
    simp only [slotOf, ne_eq, Fin.mk.injEq]
    omega
  rw [givenUp, setSlot]
  simp only [hne, and_false, if_false, hr.slots]
  exact (slotAt_posted _ _ rfl).1

variable (hconsumed : consumed.toNat = count % 8)
include hconsumed

theorem Settled.prepare
    (routed : Except McuRxRouteError McuRxRoute) (disposition : Option FirmwareRxDisposition)
    (h : H) : r.prepare ring consumed (posted consumed) routed disposition h =
      match routed with
      | .ok route => (.ok (), h, r.preparing ring count (offered route disposition))
      | .error _ => r.fault .deviceFault h := by
  simp only [RxRouting.prepare, hr.live, hr.pending, slot_new hconsumed,
    slot_new (posted_toNat hconsumed), hr.next hcount]
  cases routed <;> rfl

end

theorem RxRouting.complete_ready (hconsumed : consumed.toNat = count % 8) (h : H) :
    (r.committing ring count route).complete ring consumed h =
      if route.isSome ∧ r.events.length = eventCapacity then
        (.error .limit, h, (r.committing ring count route).abort)
      else (.ok (), h, r.completing ring count route) := by
  have hevs : (r.rearmed ring count).events = r.events := rfl
  simp only [complete, committing]
  change (if (slotOf ring count).is ring consumed = true then _ else _) = _
  rw [slotOf_is hconsumed]
  cases route with
  | none => simp [eventOf, completing, hevs]
  | some =>
    by_cases hfull : r.events.length = eventCapacity
    · simp [hfull, hevs, fault]
    · simp [hfull, hevs, eventOf, completing]

theorem rearmed_slots (hr : Settled taken as r) (ring' : McuRxIrqRing) (index : Fin 8) :
    (r.rearmed ring (as ring).length).slots ring' index =
      slotAt ((as.push ring a ring').length) index := by
  by_cases hring : ring' = ring
  · subst hring
    have hlen : (as.push ring' a ring').length = (as ring').length + 1 := by simp
    rw [hlen]
    by_cases hpost : index = (slotOf ring' ((as ring').length + 7)).index
    · rw [(slotAt_posted _ _ (congrArg Fin.val hpost)).2]
      simp [rearmed, setSlot, hpost, slotOf]
    · by_cases hnx : index = (slotOf ring' (as ring').length).index
      · rw [(slotAt_next _ _ (congrArg Fin.val hnx)).2]
        have hpost' : ¬ index = (slotOf ring' ((as ring').length + 7)).index := hpost
        simp only [rearmed, givenUp, setSlot, hpost', and_false, if_false]
        rw [if_pos ⟨rfl, hnx⟩]
      · simp only [rearmed, givenUp, setSlot, hpost, hnx, and_false, if_false, hr.slots]
        have hpost' : ¬ index.val = ((as ring').length + 7) % 8 := fun h => hpost (Fin.ext h)
        have hnx' : ¬ index.val = (as ring').length % 8 := fun h => hnx (Fin.ext h)
        rw [slotAt, slotAt, if_neg hpost', if_neg (by omega)]
        congr 2
        omega
  · rw [as.push_of_ne a hring]
    simp only [rearmed, givenUp, setSlot, slotOf, hring, false_and, if_false, hr.slots]

theorem routesOn_eventOf (other : McuRxIrqRing) (count owner : Nat) (route : Option McuRxRoute) :
    routesOn other (eventOf ring count route owner) =
      if other = ring then route.toList.map some else [] := by
  cases route with
  | none => simp [eventOf, routesOn]
  | some =>
    by_cases h : other = ring
    · simp [eventOf, routesOn, occurrenceOf, slotOf, h]
    · have h' : ¬ ring = other := fun heq => h heq.symm
      simp [eventOf, routesOn, occurrenceOf, slotOf, h, h']

theorem offers_singleton (a : Arrival) : offers ring [a] = (a.offered ring).toList.map some := by
  cases h : a.offered ring <;> simp [offers, h]

theorem offered_eq {route : McuRxRoute} (h : a.routed ring = .ok route) :
    offered route (disposition a.awaited (.ok route)) = a.offered ring := by
  simp only [Arrival.offered, Arrival.matched, h]
  cases route with
  | firmware response =>
    by_cases hmatch : classifyFirmwareRx a.awaited response.response = .matched
    · simp [offered, disposition, hmatch]
    · simp [offered, disposition, hmatch]
  | _ => rfl

theorem Settled.round (hr : Settled taken as r) :
    Settled taken (as.push ring a) (r.completing ring (as ring).length (a.offered ring)) where
  live := hr.live
  pending := rfl
  slots := rearmed_slots hr
  events other := by
    rw [completing, ← append_assoc, routesOn_append, hr.events, routesOn_eventOf]
    by_cases h : other = ring
    · subst h
      rw [if_pos rfl, Arrivals.push_self, offers_append, offers_singleton]
    · rw [if_neg h, as.push_of_ne a h, append_nil]
  owned e he := by
    rw [completing, ← append_assoc, mem_append] at he
    rcases he with he | he
    · exact hr.owned e he
    · unfold eventOf at he
      split at he
      · rw [mem_singleton.mp he]
        rfl
      · cases he

end

/-! ## Why a poll may fail -/

/-- More arrivals of one poll. -/
def Extends (awaited : Option UInt8) (as₀ as : Arrivals) : Prop :=
  ∀ ring, ∃ more, as ring = as₀ ring ++ more ∧ ∀ a ∈ more, a.awaited = awaited

/-- The awaited responses among arrivals. -/
def responses (ring : McuRxIrqRing) (as : List Arrival) : List FirmwareRx :=
  as.filterMap (Arrival.matched ring)

/-- The awaited responses of one poll. -/
def responsesSince (as₀ as : Arrivals) (ring : McuRxIrqRing) : List FirmwareRx :=
  responses ring ((as ring).drop (as₀ ring).length)

/-- A poll found more than one of them. -/
def Twice (as₀ as : Arrivals) : Prop :=
  2 ≤ (responsesSince as₀ as .wm).length + (responsesSince as₀ as .wm2).length

/-- What makes a poll fail: the hardware, a frame, the events that nobody
took, a counter at its end, or a second response. -/
inductive Excuse (taken : List ReceivedEvent) (log : List BoardCall) (arrived : Arrivals)
    (twice : Prop) : Prop
  | refused {p : Port} {e : Error} (_ : (⟨p, .error e⟩ : BoardCall) ∈ log)
  | register (_ : (⟨.readU32 hostIntEnable, .ok (0xffffffff : UInt32)⟩ : BoardCall) ∈ log)
  | address {memory : Memory} {offset : Nat} {address : UInt64} {e : DescriptorError}
    (_ : (⟨.deviceAddress memory offset, .ok address⟩ : BoardCall) ∈ log)
    (_ : mt7921DmaRx ⟨address, UInt16.ofNat mcuRxBufferBytes⟩ = .error e)
  | malformed (ring : McuRxIrqRing) {a : Arrival} {e : McuRxRouteError} (_ : a ∈ arrived ring)
    (_ : a.routed ring = .error e)
  | crowded (_ : taken.length + eventCapacity <
      (offers .wm (arrived .wm)).length + (offers .wm2 (arrived .wm2)).length)
  | exhausted (ring : McuRxIrqRing) (_ : 2 ^ 64 ≤ (arrived ring).length)
  | duplicate (_ : twice)

theorem offers_grow {as more : List Arrival} (h : as <+: more) :
    offers ring as <+: offers ring more := by
  obtain ⟨rest, rfl⟩ := h
  rw [offers_append]
  exact prefix_append _ _

theorem Excuse.mono {taken : List ReceivedEvent} {log log' : List BoardCall}
    {arrived arrived' : Arrivals} {twice twice' : Prop} (h : Excuse taken log arrived twice)
    (hlog : log ⊆ log') (harr : ∀ ring, arrived ring <+: arrived' ring) (htwice : twice → twice') :
    Excuse taken log' arrived' twice' := by
  cases h with
  | refused h => exact .refused (hlog h)
  | register h => exact .register (hlog h)
  | address h he => exact .address (hlog h) he
  | malformed ring ha he => exact .malformed ring ((harr ring).subset ha) he
  | crowded =>
    have hwm := (offers_grow .wm (harr .wm)).length_le
    have hwm2 := (offers_grow .wm2 (harr .wm2)).length_le
    exact .crowded (by omega)
  | exhausted ring h => exact .exhausted ring (h.trans (harr ring).length_le)
  | duplicate h => exact .duplicate (htwice h)

/-- The arrivals with those of a cycle that was left. -/
def Arrivals.with (as : Arrivals) (awaited : Option UInt8) (ring : McuRxIrqRing)
    (tail : List Act) : Arrivals :=
  fun r => as r ++ completed awaited (if r = ring then tail else [])

/-- A poll was left in the middle of a cycle, for a reason. -/
def Halted (taken : List ReceivedEvent) (as₀ : Arrivals) (awaited : Option UInt8) (t : Wired η) :
    Prop :=
  ∃ (as : Arrivals) (ring : McuRxIrqRing) (tail : List Act), Extends awaited as₀ as ∧
    (∀ r, InOrder (as r)) ∧
    (∀ r, acts r (calls t) = (as r).flatMap Arrival.cycle ++ if r = ring then tail else []) ∧
    Part ((as ring).length % 8) tail ∧
      Excuse taken (calls t) (as.with awaited ring tail) (Twice as₀ as)

/-- The log and the routing in the middle of a cycle. -/
structure At (as : Arrivals) (seen : Looks) (ring : McuRxIrqRing) (tail : List Act)
    (r : RxRouting) (t : Wired η) : Prop where
  acts : ∀ other, acts other (calls t) =
    (as other).flatMap Arrival.cycle ++ if other = ring then tail else []
  looks : ∀ other, looks other (calls t) = seen other
  routing : t.2 = r

section
variable {taken : List ReceivedEvent} {as₀ as : Arrivals} {awaited : Option UInt8}
  {ring : McuRxIrqRing} {tail : List Act} {r r' : RxRouting} {t t' : Wired η} {c : BoardCall}
  {m : LoaderMechanics} {consumed : UInt16} {count : Nat} {seen : Looks}

theorem At.push (h : At as seen ring tail r t) {seen' : Looks} (more : List Act)
    (hcs : calls t' = calls t ++ [c]) (hrout : t'.2 = r') (hring : (actOf ring c).toList = more)
    (hothers : ∀ other, other ≠ ring → actOf other c = none)
    (hlooks : ∀ other, seen other ++ (lookOf other c).toList = seen' other) :
    At as seen' ring (tail ++ more) r' t' := by
  have hlast : ∀ {α : Type} (f : BoardCall → Option α), [c].filterMap f = (f c).toList := by
    intro α f
    cases hc : f c <;> simp [hc]
  refine ⟨fun other => ?_, fun other => ?_, hrout⟩
  · rw [hcs, acts_append, h.acts, Mt7921.acts, hlast]
    by_cases hother : other = ring
    · subst hother
      simp [hring]
    · simp [hother, hothers other hother]
  · rw [hcs, looks_append, h.looks, ← hlooks, Mt7921.looks, hlast]

theorem At.aborted (h : At as seen ring tail r t) : At as seen ring tail r' (t.1, r') :=
  ⟨h.acts, h.looks, rfl⟩

/-- A call that does not concern the rings. -/
def Foreign (c : BoardCall) : Prop := ∀ ring, actOf ring c = none ∧ lookOf ring c = none

theorem At.push_other (h : At as seen ring tail r t) (hcs : calls t' = calls t ++ [c])
    (hrout : t'.2 = t.2) (hn : Foreign c) : At as seen ring tail r t' := by
  have hpush : At as seen ring (tail ++ []) r t' :=
    h.push [] hcs (hrout.trans h.routing) (by rw [(hn ring).1]; rfl) (fun other _ => (hn other).1)
      fun other => by rw [(hn other).2]; exact append_nil _
  rwa [append_nil] at hpush

/-- The board refused a call. -/
def Denied (t : Wired η) : Prop := ∃ p e, (⟨p, .error e⟩ : BoardCall) ∈ calls t

theorem mem_calls (hcs : calls t' = calls t ++ [c]) : c ∈ calls t' := by
  rw [hcs]
  exact mem_append_right _ mem_cons_self

/-! ## One arrival -/

/-- The engine between two arrivals. -/
structure Sound (taken : List ReceivedEvent) (as : Arrivals) (seen : Looks) (s : RxSession η) :
    Prop where
  settled : Settled taken as s.transport.2
  acts : ∀ ring, acts ring (calls s.transport) = (as ring).flatMap Arrival.cycle
  looks : ∀ ring, looks ring (calls s.transport) = seen ring
  order : ∀ ring, InOrder (as ring)
  head : ∀ ring, (s.mechanics.rxHead.get ring).toNat = (as ring).length % 8

/-- A poll has come this far on a ring. -/
structure Reached (awaited : Option UInt8) (as₀ as : Arrivals) (ring : McuRxIrqRing)
    (count : Nat) : Prop where
  arrivals : Extends awaited as₀ as
  order : ∀ ring, InOrder (as ring)
  count : (as ring).length = count

theorem At.halted (h : At as seen ring tail r t) (hp : Reached awaited as₀ as ring count)
    (hpart : Part (count % 8) tail)
    (hexc : Excuse taken (calls t) (as.with awaited ring tail) (Twice as₀ as)) :
    Halted taken as₀ awaited t :=
  ⟨as, ring, tail, hp.arrivals, hp.order, h.acts, hp.count ▸ hpart, hexc⟩

/-- What calls that do not concern the rings leave true. -/
def Stable (P : Wired η → Prop) : Prop :=
  ∀ t t' c, P t → calls t' = calls t ++ [c] → t'.2 = t.2 → Foreign c → P t'

theorem At.stable : Stable (At as seen ring tail r : Wired η → Prop) :=
  fun _ _ _ h hcs hrout hn => h.push_other hcs hrout hn

section
variable (hp : Reached awaited as₀ as ring count) (hpart : Part (count % 8) tail)

include hp hpart

theorem freshDescriptor_at (hP : ∀ t, P t → At as seen ring tail r t)
    (hstable : Stable P) {α : Type}
    {f : DmaDescriptor → Mcu (Wired η) Error α} {Q : α → RxSession η → Prop}
    (hf : ∀ fresh, Triple (fun s => P s.transport ∧ s.mechanics = m) (f fresh) Q
      (fun _ s => Halted taken as₀ awaited s.transport)) :
    Triple (fun s => P s.transport ∧ s.mechanics = m)
      (do
        let address ← demand (activeMcu B.logged) .containmentRequired
          (.rxBufferAddress ring (posted consumed))
        let fresh ← Eff.ofExcept ((mt7921DmaRx ⟨address, UInt16.ofNat mcuRxBufferBytes⟩).mapError
          LoaderMechanicsError.descriptor)
        f fresh) Q (fun _ s => Halted taken as₀ awaited s.transport) := by
  have haddr : Triple P (views B.logged (.rxBufferAddress ring (posted consumed)))
      (fun address t => P t ∧ (⟨.deviceAddress (.rxBuffers ring)
        ((posted consumed).toNat * mcuRxBufferBytes), .ok address⟩ : BoardCall) ∈ calls t)
      (fun _ => Halted taken as₀ awaited) := by
    apply port_triple
    · intro t t' address ht hcs hrout
      exact ⟨hstable t t' _ ht hcs hrout fun _ => ⟨rfl, rfl⟩, mem_calls hcs⟩
    · intro t t' e ht hcs hrout
      have hat := (hP t ht).push_other hcs hrout fun _ => ⟨rfl, rfl⟩
      exact hat.halted hp hpart (.refused (mem_calls hcs))
  refine .bind (demand_views haddr) fun address => ?_
  cases hfresh : mt7921DmaRx ⟨address, UInt16.ofNat mcuRxBufferBytes⟩ with
  | error =>
    refine .fail fun s hs => ?_
    exact (hP _ hs.1.1).halted hp hpart (.address hs.1.2 hfresh)
  | ok fresh =>
    intro s hs
    exact hf fresh s ⟨hs.1.1, hs.2⟩

theorem repostRx_refused (hpend : r.pending = none) :
    Triple (fun s => (At as seen ring tail r s.transport ∧ Denied s.transport) ∧ s.mechanics = m)
      (repostRx (activeMcu B.logged) ring consumed) (fun _ _ => False)
      (fun _ s => Halted taken as₀ awaited s.transport) := by
  refine freshDescriptor_at (P := fun t => At as seen ring tail r t ∧ Denied t) hp hpart
    (fun t ht => ht.1) ?_ fun fresh => ?_
  · rintro t t' c ⟨hat, p, e, hmem⟩ hcs hrout hn
    refine ⟨hat.push_other hcs hrout hn, p, e, ?_⟩
    rw [hcs]
    exact mem_append_left _ hmem
  · have hrepost : Triple (fun t => At as seen ring tail r t ∧ Denied t)
        (views B.logged (.repostRxDescriptor ring (posted consumed) fresh)) (fun _ _ => False)
        (fun _ => Halted taken as₀ awaited) := by
      rw [views]
      apply routing_triple
      rintro t ⟨hat, p, e, hmem⟩
      right
      refine ⟨.deviceFault, (t.1, r.abort), ?_, hat.aborted.halted hp hpart (.refused hmem)⟩
      rw [hat.routing]
      rw [repost, hpend]
      rfl
    exact .bind (demand_views hrepost) fun _ s hs => hs.1.elim

end

variable {s : RxSession η}

section
variable (hr : Settled taken as r) (hp : Reached awaited as₀ as ring count)
  (hconsumed : consumed.toNat = count % 8) {ctrl : UInt32} {bytes : Bytes}
  {route : Option McuRxRoute}

section
variable (count) (ctrl) (bytes)

/-- A descriptor was read as done and its buffer was copied. -/
def copying : List Act := [.seen (count % 8) ctrl, .copied (count % 8) bytes]

/-- The write of a fresh descriptor was answered. -/
def arming (armed : Bool) : List Act := copying count ctrl bytes ++ [.armed ((count + 7) % 8) armed]

/-- The write of the producer index was answered. -/
def publishing (published : Bool) : List Act :=
  arming count ctrl bytes true ++ [.published (count % 8) published]

/-- The arrival of which a descriptor and a buffer were read. -/
def arrivalAt (awaited : Option UInt8) : Arrival := ⟨count % 8, ctrl, bytes, awaited⟩

theorem arrivalAt_completed (rest : List Act) :
    completed awaited (copying count ctrl bytes ++ rest) =
      arrivalAt count ctrl bytes awaited :: completed awaited rest := by
  simp [copying, completed, arrivalAt]

theorem Part.of_append {slot : Nat} {more : List Act} (h : Part slot (tail ++ more)) :
    Part slot tail := by
  obtain ⟨ctrl, bytes, armed, published, hpart⟩ := h
  exact ⟨ctrl, bytes, armed, published, (prefix_append _ _).trans hpart⟩

theorem part_publishing (armed published : Bool) :
    Part (count % 8) (arming count ctrl bytes armed ++ [.published (count % 8) published]) := by
  have hmod : (count % 8 + 7) % 8 = (count + 7) % 8 := by omega
  refine ⟨ctrl, bytes, armed, published, ?_⟩
  rw [hmod]
  exact prefix_rfl

theorem part_arming (armed : Bool) : Part (count % 8) (arming count ctrl bytes armed) :=
  (part_publishing count ctrl bytes armed true).of_append

theorem part_copying : Part (count % 8) (copying count ctrl bytes) :=
  (part_arming count ctrl bytes true).of_append

end

/-- A write that the routing passes on is one more act of the cycle; the poll stops where the
board refuses it. -/
theorem At.write (h : At as seen ring tail r t) (hp : Reached awaited as₀ as ring count)
    (act : Bool → Act)
    (hact : ∀ other answer, actOf other ⟨p, answer⟩ = if ring = other then some (act answer.isOk) else none)
    (hlook : ∀ other answer, lookOf other ⟨p, answer⟩ = none)
    (hpart : ∀ ok, Part (count % 8) (tail ++ [act ok])) :
    ∃ answer wired, B.logged.handle p t.1 = (answer, wired) ∧
      (∀ r', At as seen ring (tail ++ [act answer.isOk]) r' (wired, r')) ∧
      ∀ e r', answer = .error e → Halted taken as₀ awaited (wired, r') := by
  obtain ⟨answer, hardware, hwr⟩ : ∃ answer h,
    B.logged.handle p t.1 = (answer, h, calls t ++ [⟨p, answer⟩]) := ⟨_, _, rfl⟩
  have hpush : ∀ r', At as seen ring (tail ++ [act answer.isOk]) r'
      ((hardware, calls t ++ [⟨p, answer⟩]), r') := by
    intro r'
    refine h.push _ rfl rfl ?_ (fun other hother => ?_) fun other => ?_
    · rw [hact, if_pos rfl]
      rfl
    · rw [hact, if_neg fun h => hother h.symm]
    · rw [hlook]
      exact append_nil _
  refine ⟨answer, _, hwr, hpush, ?_⟩
  rintro e r' rfl
  exact (hpush r').halted hp (hpart _) (.refused (mem_calls rfl))

theorem rxCidx_inj {ring other : McuRxIrqRing} : rxCidx ring = rxCidx other ↔ ring = other := by
  cases ring <;> cases other <;> decide

include hr hp hconsumed

theorem At.sound (h : At as seen ring (publishing count ctrl bytes true)
      (r.completing ring count ((arrivalAt count ctrl bytes awaited).offered ring)) s.transport)
    (hm : s.mechanics.rxHead = m.rxHead.set ring (next consumed mcuRxRingCount))
    (hheads : ∀ ring, (m.rxHead.get ring).toNat = (as ring).length % 8) :
    Sound taken (as.push ring (arrivalAt count ctrl bytes awaited)) seen s where
  looks := h.looks
  settled := by
    rw [h.routing, ← hp.count]
    exact hr.round
  acts other := by
    have hmod : (count % 8 + 7) % 8 = (count + 7) % 8 := by omega
    rw [h.acts]
    by_cases hother : other = ring
    · subst hother
      simp [Arrival.cycle, arrivalAt, publishing, arming, copying, hmod]
    · rw [if_neg hother, append_nil, as.push_of_ne _ hother]
  order other := by
    by_cases hother : other = ring
    · subst hother
      rw [Arrivals.push_self]
      exact (hp.order other).push (by rw [hp.count]; rfl)
    · rw [as.push_of_ne _ hother]
      exact hp.order other
  head other := by
    rw [hm]
    by_cases hother : other = ring
    · subst hother
      rw [PerRing.get_set_self, next_toNat hconsumed, Arrivals.push_self, length_append,
        length_singleton, hp.count]
    · rw [PerRing.get_set_of_ne _ _ hother, as.push_of_ne _ hother]
      exact hheads other

theorem repostRx_prepared :
    Triple (fun s => At as seen ring (copying count ctrl bytes)
        (r.preparing ring count route) s.transport ∧ s.mechanics = m)
      (repostRx (activeMcu B.logged) ring consumed)
      (fun _ s => At as seen ring (publishing count ctrl bytes true)
          (r.committing ring count route) s.transport ∧
        s.mechanics = { m with rxHead := m.rxHead.set ring (next consumed mcuRxRingCount) })
      (fun _ s => Halted taken as₀ awaited s.transport) := by
  refine freshDescriptor_at hp (part_copying _ ctrl bytes) (fun t ht => ht)
    At.stable fun fresh => ?_
  have hrepost : Triple
      (At as seen ring (copying count ctrl bytes) (r.preparing ring count route))
      (views B.logged (.repostRxDescriptor ring (posted consumed) fresh))
      (fun _ => At as seen ring (arming count ctrl bytes true) (r.reposting ring count route))
      (fun _ => Halted taken as₀ awaited) := by
    apply routing_triple
    intro t hat
    obtain ⟨answer, wired, hwr, hok, herr⟩ := hat.write (B := B)
      (p := writeDescriptor (.rxRing ring) (posted consumed) fresh) hp
      (.armed ((count + 7) % 8)) (fun other answer => by
        simp only [actOf, posted_toNat hconsumed]
        rw [Nat.mul_div_cancel _ (by decide)])
      (fun _ _ => rfl) (part_arming _ _ _)
    rw [hat.routing]
    simp only [repost, preparing, slotOf_is (posted_toNat hconsumed), if_true,
      hr.vacant hp.count, hwr]
    by_cases hroom : (count + 7) / 8 + 1 < 2 ^ 64
    · rw [if_pos hroom]
      cases answer with
      | ok => exact .inl ⟨_, rfl, hok _⟩
      | error e => exact .inr ⟨e, _, rfl, herr e _ rfl⟩
    · rw [if_neg hroom]
      right
      refine ⟨.limit, _, rfl, ?_⟩
      refine hat.aborted.halted hp (part_copying _ _ _) (.exhausted ring ?_)
      rw [Arrivals.with, length_append, hp.count]
      omega
  refine bind (demand_views hrepost) fun _ => ?_
  refine bind (R := fun _ s => At as seen ring (arming count ctrl bytes true)
      (r.reposting ring count route) s.transport ∧
    s.mechanics = { m with rxHead := m.rxHead.set ring (next consumed mcuRxRingCount) }) ?_
    fun _ => ?_
  · apply Triple.modify
    rintro s ⟨hat, rfl⟩
    exact ⟨hat, rfl⟩
  · apply demand_views
    apply routing_triple
    intro t hat
    obtain ⟨answer, wired, hwr, hok, herr⟩ := hat.write (B := B)
      (p := .writeU32 (rxCidx ring) consumed.toUInt32) hp
      (.published (count % 8)) (fun other answer => by
        simp only [actOf, rxCidx_inj, UInt16.toNat_toUInt32, hconsumed])
      (fun _ _ => rfl) (part_publishing _ _ _ true)
    rw [hat.routing]
    simp only [publish, reposting, occurrenceOf, slotOf_is hconsumed, if_true, hwr]
    cases answer with
    | ok => exact .inl ⟨_, rfl, hok _⟩
    | error e => exact .inr ⟨e, _, rfl, herr e _ rfl⟩

omit hr hp in
theorem routed_arrivalAt : routeMcuRxDescriptor (ringNumber ring) consumed ctrl bytes =
    (arrivalAt count ctrl bytes awaited).routed ring := by
  rw [Arrival.routed, arrivalAt, ← hconsumed, UInt16.ofNat_toNat]

omit hr hp in
theorem readRxBuffer_at (length : Nat) :
    Triple (At as seen ring [.seen (count % 8) ctrl] r)
      (views B.logged (.readRxBuffer ring consumed length))
      (fun bytes => At as seen ring (copying count ctrl bytes) r)
      (fun _ t => At as seen ring [.seen (count % 8) ctrl] r t ∧ Denied t) := by
  apply port_triple
  · intro t t' bytes hat hcs hrout
    apply hat.push [.copied (count % 8) bytes] hcs (hrout.trans hat.routing)
    · simp [actOf, hconsumed, mcuRxBufferBytes]
    · intro other hother
      simp [actOf, Ne.symm hother]
    · exact fun _ => append_nil _
  · intro t t' e hat hcs hrout
    exact ⟨hat.push_other hcs hrout fun _ => ⟨rfl, rfl⟩, _, e, mem_calls hcs⟩

/-- A frame is prepared unless it does not parse. -/
theorem prepareRxResult_at :
    let a := arrivalAt count ctrl bytes awaited
    Triple (At as seen ring (copying count ctrl bytes) r)
      (views B.logged (.prepareRxResult ring consumed (posted consumed) bytes (a.routed ring)
        (disposition awaited (a.routed ring))))
      (fun _ t => (∃ route, a.routed ring = .ok route) ∧
        At as seen ring (copying count ctrl bytes) (r.preparing ring count (a.offered ring)) t)
      (fun _ => Halted taken as₀ awaited) := by
  intro a
  rw [views]
  apply routing_triple
  intro t hat
  rw [hat.routing]
  cases hroute : a.routed ring with
  | ok route =>
    left
    refine ⟨_, hr.prepare hp.count hconsumed (.ok route) _ _, ⟨route, rfl⟩, hat.acts, hat.looks, ?_⟩
    rw [← offered_eq hroute]
    rfl
  | error e =>
    right
    refine ⟨_, _, hr.prepare hp.count hconsumed (.error e) _ _, ?_⟩
    refine hat.aborted.halted hp (part_copying _ _ _) (.malformed ring ?_ hroute)
    have hcompl : completed awaited (copying count ctrl bytes ++ []) = _ :=
      arrivalAt_completed count ctrl bytes []
    rw [append_nil] at hcompl
    simp [Arrivals.with, hcompl, a]

/-- A round is completed unless too many events wait. -/
theorem completeRxResult_at :
    let a := arrivalAt count ctrl bytes awaited
    Triple (At as seen ring (publishing count ctrl bytes true)
        (r.committing ring count (a.offered ring)))
      (views B.logged (.completeRxResult ring consumed))
      (fun _ => At as seen ring (publishing count ctrl bytes true)
        (r.completing ring count (a.offered ring)))
      (fun _ => Halted taken as₀ awaited) := by
  intro a
  apply routing_triple
  intro t hat
  rw [hat.routing]
  simp only [complete_ready hconsumed]
  by_cases hfull : (a.offered ring).isSome ∧ r.events.length = eventCapacity
  · rw [if_pos hfull]
    right
    refine ⟨_, _, rfl, hat.aborted.halted hp (part_publishing _ _ _ _ _) (.crowded ?_)⟩
    have hfew := routesOn_length (taken ++ r.events)
    rw [hr.events, hr.events, length_append, hfull.2] at hfew
    have hcompl : ∀ other, completed awaited (if other = ring then publishing count ctrl bytes true
        else []) = if other = ring then [a] else [] := by
      intro other
      split
      · rw [publishing, arming, append_assoc]
        exact arrivalAt_completed _ _ _ _
      · rfl
    have hone : (offers ring [a]).length = 1 := by
      obtain ⟨route, hroute⟩ := Option.isSome_iff_exists.mp hfull.1
      simp [offers_singleton, hroute]
    simp only [Arrivals.with, hcompl, offers_append, length_append]
    cases ring
    · rw [if_pos rfl]
      omega
    · rw [if_pos (rfl : McuRxIrqRing.wm2 = .wm2)]
      omega
  · rw [if_neg hfull]
    exact .inl ⟨_, rfl, hat.acts, hat.looks, rfl⟩

/-- One arrival: all of its cycle, or the poll stops for a reason. -/
theorem receiveRx_sound (descriptor : DmaDescriptor)
    (hheads : ∀ ring, (m.rxHead.get ring).toNat = (as ring).length % 8) :
    Triple (fun s => At as seen ring [.seen (count % 8) descriptor.ctrl] r s.transport ∧
        s.mechanics = m)
      (receiveRx (activeMcu B.logged) ring awaited consumed descriptor)
      (fun found s => ∃ a : Arrival, a.slot = count % 8 ∧ a.awaited = awaited ∧
        found = a.matched ring ∧ Sound taken (as.push ring a) seen s)
      (fun _ s => Halted taken as₀ awaited s.transport) := by
  refine .bind (ask_views (readRxBuffer_at hconsumed _)) fun read => ?_
  cases read with
  | error =>
    have hpart : Part (count % 8) [.seen (count % 8) descriptor.ctrl] :=
      Part.of_append (part_copying _ descriptor.ctrl [])
    exact .bind (repostRx_refused hp hpart hr.pending) fun _ s hs => hs.elim
  | ok bytes =>
    dsimp only
    rw [routed_arrivalAt hconsumed]
    refine .bind (demand_views (prepareRxResult_at hr hp hconsumed)) fun _ => ?_
    refine .of_pre (fun s hs => hs.1.1) ?_
    rintro ⟨route, hroute⟩
    refine .bind ((repostRx_prepared hr hp hconsumed).weaken_pre
      fun s hs => ⟨hs.1.2, hs.2⟩) fun _ => ?_
    refine .bind (demand_views (completeRxResult_at hr hp hconsumed)) fun _ => ?_
    have hsound : ∀ (found : Option FirmwareRx) (s : RxSession η),
        found = (arrivalAt count descriptor.ctrl bytes awaited).matched ring →
        (At as seen ring (publishing count descriptor.ctrl bytes true) (r.completing ring count
            ((arrivalAt count descriptor.ctrl bytes awaited).offered ring)) s.transport ∧
          s.mechanics = { m with rxHead := m.rxHead.set ring (next consumed mcuRxRingCount) }) →
        ∃ a : Arrival, a.slot = count % 8 ∧ a.awaited = awaited ∧ found = a.matched ring ∧
          Sound taken (as.push ring a) seen s := by
      rintro found s hfound ⟨hat, hm⟩
      exact ⟨_, rfl, rfl, hfound, At.sound hr hp hconsumed hat (by rw [hm]) hheads⟩
    rw [hroute]
    cases route with
    | firmware =>
      refine .ite (fun h => .pure fun s hs => hsound _ s ?_ hs) fun h =>
        pure fun s hs => hsound _ s ?_ hs
      · rw [Arrival.matched, hroute]
        exact (if_pos h).symm
      · rw [Arrival.matched, hroute]
        exact (if_neg h).symm
    | _ => exact .pure fun s hs => hsound _ s (by simp [Arrival.matched, hroute]) hs

end

/-! ## A poll -/

theorem Extends.refl (awaited : Option UInt8) (as : Arrivals) : Extends awaited as as :=
  fun _ => ⟨[], (append_nil _).symm, by simp⟩

variable {a : Arrival}

theorem Extends.push (h : Extends awaited as₀ as) (ha : a.awaited = awaited) (ring : McuRxIrqRing) :
    Extends awaited as₀ (as.push ring a) := by
  intro other
  obtain ⟨more, hmore, hall⟩ := h other
  by_cases hother : other = ring
  · subst hother
    exact ⟨more ++ [a], by simp [hmore], forall_mem_concat hall ha⟩
  · exact ⟨more, by rw [as.push_of_ne a hother, hmore], hall⟩

theorem responsesSince_push (h : Extends awaited as₀ as) (ring : McuRxIrqRing) :
    responsesSince as₀ (as.push ring a) ring =
      responsesSince as₀ as ring ++ (a.matched ring).toList := by
  obtain ⟨more, hmore, -⟩ := h ring
  rw [responsesSince, responsesSince, Arrivals.push_self, hmore, append_assoc,
    drop_left, drop_left, responses, responses, filterMap_append]
  cases ha : a.matched ring <;> simp [ha]

theorem Sound.at (h : Sound taken as seen s) (ring : McuRxIrqRing) :
    At as seen ring [] s.transport.2 s.transport :=
  ⟨fun other => by rw [h.acts, ite_self, append_nil], h.looks, rfl⟩

theorem Sound.of_at {s' : RxSession η} {seen' : Looks} (h : Sound taken as seen s)
    (hat : At as seen' ring [] s.transport.2 s'.transport) (hm : s'.mechanics = s.mechanics) :
    Sound taken as seen' s' where
  looks := hat.looks
  settled := by
    rw [hat.routing]
    exact h.settled
  acts other := by rw [hat.acts, ite_self, append_nil]
  order := h.order
  head := by
    rw [hm]
    exact h.head

theorem part_nil (slot : Nat) : Part slot [] := ⟨0, [], true, true, nil_prefix⟩

theorem Sound.halted (h : Sound taken as seen s) (hextends : Extends awaited as₀ as)
    (hexc : Excuse taken (calls s.transport) (as.with awaited .wm []) (Twice as₀ as)) :
    Halted taken as₀ awaited s.transport :=
  (h.at .wm).halted ⟨hextends, h.order, rfl⟩ (part_nil _) hexc

/-- What draining a ring adds to the arrivals and the looks. -/
structure Drained (awaited : Option UInt8) (as₀ : Arrivals) (ring : McuRxIrqRing) (budget : Nat)
    (as as' : Arrivals) (more : List (Nat × Bool)) (found : Option FirmwareRx) : Prop where
  arrivals : Extends awaited as₀ as'
  left : ∃ arrived, as' ring = as ring ++ arrived ∧ Left budget (as ring).length arrived more
  others : ∀ other, other ≠ ring → as' other = as other
  found : found.toList = responsesSince as₀ as' ring

variable {found : Option FirmwareRx}

theorem Drained.cons {budget : Nat} {as' : Arrivals} {more : List (Nat × Bool)}
    (h : Drained awaited as₀ ring budget (as.push ring a) as' more found) :
    Drained awaited as₀ ring (budget + 1) as as' ((a.slot, true) :: more) found := by
  obtain ⟨arrived, hring, hleft⟩ := h.left
  rw [Arrivals.push_self, append_assoc] at hring
  rw [Arrivals.push_self, length_append, length_singleton] at hleft
  refine ⟨h.arrivals, ⟨a :: arrived, hring, hleft.cons a⟩, fun other hother => ?_, h.found⟩
  rw [h.others other hother, as.push_of_ne a hother]

/-- A descriptor is looked at, and seen if it is done. -/
theorem readRxDescriptor_at (hp : Reached awaited as₀ as ring count)
    (hconsumed : consumed.toNat = count % 8) :
    Triple (At as seen ring [] r) (views B.logged (.readRxDescriptor ring consumed))
      (fun descriptor => At as (seen.push ring [(count % 8, descriptor.isDmaDone)]) ring
        (if descriptor.isDmaDone then [.seen (count % 8) descriptor.ctrl] else []) r)
      (fun _ => Halted taken as₀ awaited) := by
  refine .bind ?_ fun bytes => .pure fun _ h => h
  apply port_triple
  · intro t t' bytes hat hcs hrout
    have hslot : consumed.toNat * dmaDescriptorLen / dmaDescriptorLen = count % 8 := by
      rw [Nat.mul_div_cancel _ (by decide), hconsumed]
    apply hat.push (if (DmaDescriptor.fromBytes bytes).isDmaDone then
      [.seen (count % 8) (DmaDescriptor.fromBytes bytes).ctrl] else []) hcs
      (hrout.trans hat.routing)
    · by_cases hd : (DmaDescriptor.fromBytes bytes).isDmaDone = true
      · simp [actOf, hd, hslot]
      · simp [actOf, hd]
    · intro other hother
      simp [actOf, Ne.symm hother]
    · intro other
      by_cases hother : other = ring
      · subst hother
        simp [lookOf, Looks.push, hslot]
      · simp [lookOf, Looks.push, hother, Ne.symm hother]
  · intro t t' e hat hcs hrout
    exact (hat.push_other hcs hrout fun _ => ⟨rfl, rfl⟩).halted hp (part_nil _)
      (.refused (mem_calls hcs))

theorem drainRx_sound (budget : Nat) (hextends : Extends awaited as₀ as)
    (hfound : found.toList = responsesSince as₀ as ring) :
    Triple (Sound taken as seen) (drainRx (activeMcu B.logged) ring awaited budget found)
      (fun found s => ∃ as' more, Drained awaited as₀ ring budget as as' more found ∧
        Sound taken as' (seen.push ring more) s)
      (fun _ s => Halted taken as₀ awaited s.transport) := by
  have hstay : ∀ {budget : Nat} {as : Arrivals} {found : Option FirmwareRx}
      {more : List (Nat × Bool)}, Extends awaited as₀ as →
      found.toList = responsesSince as₀ as ring → Left budget (as ring).length [] more →
      Drained awaited as₀ ring budget as as more found :=
    fun hextends hfound hleft =>
      ⟨hextends, ⟨[], (append_nil _).symm, hleft⟩, fun _ _ => rfl, hfound⟩
  -- each turn adds one arrival, so the arrivals vary along the induction
  induction budget generalizing as found seen with
  | zero =>
    refine .pure fun s hs => ⟨as, [], hstay hextends hfound (.inl ⟨rfl, rfl⟩), ?_⟩
    rw [seen.push_nil]
    exact hs
  | succ budget ih =>
    refine .of_state fun s₀ hs₀ => .look_bind fun m => ?_
    refine .of_pre (by rintro s ⟨rfl, hm⟩; exact hm) fun hm => ?_
    have hheads : ∀ other, (m.rxHead.get other).toNat = (as other).length % 8 :=
      fun other => hm ▸ hs₀.head other
    have hp : Reached awaited as₀ as ring (as ring).length := ⟨hextends, hs₀.order, rfl⟩
    have hstart : ∀ s : RxSession η, s = s₀ ∧ s.mechanics = m →
        At as seen ring [] s₀.transport.2 s.transport ∧ s.mechanics = m := by
      rintro s ⟨rfl, hm⟩
      exact ⟨hs₀.at ring, hm⟩
    refine .bind ((demand_views (readRxDescriptor_at hp (hheads ring))).weaken_pre hstart)
      fun descriptor => ?_
    refine .ite (fun hd => ?_) fun hd => ?_
    · rw [hd, if_pos rfl]
      refine .bind (receiveRx_sound hs₀.settled hp (hheads ring) descriptor hheads)
        fun received => .exists_pre fun a => and_pre fun hslot => and_pre fun ha =>
          and_pre fun hrecv => ?_
      have hpush := hextends.push ha ring
      have hresps := responsesSince_push (a := a) hextends ring
      have hcons : ∀ (found : Option FirmwareRx) (s : RxSession η), (∃ as' more,
          Drained awaited as₀ ring budget (as.push ring a) as' more found ∧
            Sound taken as' ((seen.push ring [((as ring).length % 8, true)]).push ring more) s) →
          ∃ as' more, Drained awaited as₀ ring (budget + 1) as as' more found ∧
            Sound taken as' (seen.push ring more) s := by
        rintro found s ⟨as', more, hdrained, hs⟩
        rw [Looks.push_push, ← hslot] at hs
        exact ⟨as', _, hdrained.cons, hs⟩
      cases received with
      | none =>
        rw [← hrecv, Option.toList_none, append_nil, ← hfound] at hresps
        exact (ih hpush hresps.symm).weaken_post hcons
      | some response =>
        rw [← hrecv, Option.toList_some, ← hfound] at hresps
        refine ite (fun hsome => fail fun s hs => ?_) fun hn => ?_
        · apply hs.halted hpush
          apply Excuse.duplicate
          have hlen : 2 ≤ (responsesSince as₀ (as.push ring a) ring).length := by
            obtain ⟨first, hfst⟩ := Option.isSome_iff_exists.mp hsome
            simp [hresps, hfst]
          unfold Twice
          cases ring <;> omega
        · have hnil : found.toList = [] := by
            rw [Option.not_isSome_iff_eq_none.mp hn]
            rfl
          have hone : (some response).toList = responsesSince as₀ (as.push ring a) ring := by
            rw [hresps, hnil]
            rfl
          exact (ih hpush hone).weaken_post hcons
    · apply Triple.pure
      rintro s ⟨hat, hm'⟩
      rw [if_neg hd, Bool.eq_false_iff.mpr hd] at hat
      exact ⟨as, _, hstay hextends hfound (.inr ⟨Nat.succ_pos _, rfl⟩),
        hs₀.of_at hat (hm'.trans hm.symm)⟩

theorem Halted.stable : Stable (Halted taken as₀ awaited : Wired η → Prop) := by
  rintro t t' c ⟨as, ring, tail, hextends, horder, hacts, hpart, hexc⟩ hcs - hn
  have hnil : ∀ other, acts other [c] = [] := fun other => by simp [acts, (hn other).1]
  refine ⟨as, ring, tail, hextends, horder, fun other => ?_, hpart, ?_⟩
  · rw [hcs, acts_append, hnil, append_nil]
    exact hacts other
  · exact hexc.mono (by rw [hcs]; exact subset_append_left _ _) (fun _ => prefix_rfl) id

/-- The hardware refused a call, or does not answer at all. -/
def Faulted (t : Wired η) : Prop :=
  Denied t ∨ (⟨.readU32 hostIntEnable, .ok (0xffffffff : UInt32)⟩ : BoardCall) ∈ calls t

theorem Faulted.excuse {twice : Prop} (h : Faulted t) : Excuse taken (calls t) as twice := by
  rcases h with ⟨p, e, h⟩ | h
  · exact .refused h
  · exact .register h

theorem port_stable (hP : Stable P) (hp : ∀ answer, Foreign ⟨p, answer⟩) :
    Triple P (port B.logged p) (fun a t => P t ∧ (⟨p, .ok a⟩ : BoardCall) ∈ calls t)
      (fun _ t => P t ∧ Faulted t) := by
  apply port_triple
  · intro t t' a ht hcs hrout
    exact ⟨hP t t' _ ht hcs hrout (hp _), mem_calls hcs⟩
  · intro t t' e ht hcs hrout
    exact ⟨hP t t' _ ht hcs hrout (hp _), .inl ⟨p, e, mem_calls hcs⟩⟩

theorem actOf_hostInt (other : McuRxIrqRing) (value : UInt32) (answer : Except Error Unit) :
    actOf other ⟨.writeU32 hostIntEnable value, answer⟩ = none ∧
      actOf other ⟨.writeU32 hostIntStatus value, answer⟩ = none := by
  have hne : hostIntEnable ≠ rxCidx other ∧ hostIntStatus ≠ rxCidx other := by
    cases other <;> decide
  exact ⟨if_neg hne.1, if_neg hne.2⟩

theorem maskInterrupts_stable (hP : Stable P) (f : UInt32 → UInt32) :
    Triple P (maskInterrupts B.logged f) (fun _ => P) (fun _ t => P t ∧ Faulted t) := by
  refine .bind (port_stable hP fun _ _ => ⟨rfl, rfl⟩) fun enabled => ?_
  refine .ite (fun hdead => .fail ?_) fun _ => ?_
  · rintro t ⟨ht, hmem⟩
    rw [hdead] at hmem
    exact ⟨ht, .inr hmem⟩
  · exact (port_stable hP fun _ other => ⟨(actOf_hostInt other _ _).1, rfl⟩).conseq (fun _ h => h.1)
      (fun _ _ h => h.1) fun _ _ h => h

/-- A request that does not concern the rings. -/
def Aside (B : Board η) (req : Request) : Prop :=
  ∀ {P : Wired η → Prop}, Stable P →
    Triple P (views B.logged req) (fun _ => P) fun _ t => P t ∧ Faulted t

variable {F : LoaderMechanicsError Error → RxSession η → Prop}

theorem ask_sound (hextends : Extends awaited as₀ as) (hreq : Aside B req) :
    Triple (Sound taken as seen) (ask (activeMcu B.logged) req)
      (fun answer s => match answer with
        | .ok _ => Sound taken as seen s
        | .error _ => Halted taken as₀ awaited s.transport) F := by
  refine .of_state fun s hs => ?_
  refine (ask_views (m := s.mechanics)
    (hreq (P := At as seen .wm [] s.transport.2) At.stable)).conseq ?_ ?_ fun _ _ h => h
  · rintro s' rfl
    exact ⟨hs.at .wm, rfl⟩
  · rintro answer s' ⟨hans, hm⟩
    cases answer with
    | ok => exact hs.of_at hans hm
    | error => exact hans.1.halted ⟨hextends, hs.order, rfl⟩ (part_nil _) hans.2.excuse

theorem ask_halted (hreq : Aside B req) :
    Triple (fun s => Halted taken as₀ awaited s.transport) (ask (activeMcu B.logged) req)
      (fun _ s => Halted taken as₀ awaited s.transport) F := by
  refine .of_state fun s hs => ?_
  refine (ask_views (m := s.mechanics)
    (hreq (P := Halted taken as₀ awaited) Halted.stable)).conseq ?_ ?_ fun _ _ h => h
  · rintro s' rfl
    exact ⟨hs, rfl⟩
  · rintro (e | a) s' ⟨hans, -⟩
    · exact hans.1
    · exact hans

theorem demand_sound (hextends : Extends awaited as₀ as) (hreq : Aside B req) :
    Triple (Sound taken as seen) (demand (activeMcu B.logged) wrap req)
      (fun _ => Sound taken as seen)
      (fun _ s => Halted taken as₀ awaited s.transport) := by
  refine .bind (ask_sound hextends hreq) fun answer => ?_
  cases answer with
  | ok => exact .pure fun _ hs => hs
  | error => exact .fail fun _ hs => hs

/-- What a poll adds to the arrivals and the looks of each ring. -/
def Polled (budget : Nat) (as₀ as : Arrivals) (seen seen' : Looks) : Prop :=
  ∀ ring, ∃ arrived more, as ring = as₀ ring ++ arrived ∧ seen' ring = seen ring ++ more ∧
    Left budget (as₀ ring).length arrived more

theorem Drained.polled {budget : Nat} {as₁ as₂ : Arrivals} {first second : Option FirmwareRx}
    {looks₁ looks₂ : List (Nat × Bool)}
    (h₁ : Drained awaited as₀ .wm budget as₀ as₁ looks₁ first)
    (h₂ : Drained awaited as₀ .wm2 budget as₁ as₂ looks₂ second) (seen : Looks) :
    Polled budget as₀ as₂ seen ((seen.push .wm looks₁).push .wm2 looks₂) := by
  obtain ⟨arrived₁, hring₁, hleft₁⟩ := h₁.left
  obtain ⟨arrived₂, hring₂, hleft₂⟩ := h₂.left
  rw [h₁.others .wm2 (by decide)] at hring₂ hleft₂
  rintro (_ | _)
  · exact ⟨arrived₁, looks₁, (h₂.others .wm (by decide)).trans hring₁, rfl, hleft₁⟩
  · exact ⟨arrived₂, looks₂, hring₂, rfl, hleft₂⟩

/-- The arrivals of a poll and what it found among them. -/
structure PollAnswer (awaited : Option UInt8) (budget : Nat) (as₀ as : Arrivals)
    (seen seen' : Looks) (found : Option FirmwareRx) : Prop where
  arrivals : Extends awaited as₀ as
  polled : Polled budget as₀ as seen seen'
  found : found.toList = responsesSince as₀ as .wm ++ responsesSince as₀ as .wm2

theorem drainRings_sound (budget : Nat) (seen : Looks) :
    Triple (Sound taken as₀ seen) (drainRings (activeMcu B.logged) awaited budget)
      (fun found s => ∃ as seen', PollAnswer awaited budget as₀ as seen seen' found ∧
        Sound taken as seen' s)
      (fun _ s => Halted taken as₀ awaited s.transport) := by
  have hstart : ∀ {as : Arrivals} {ring : McuRxIrqRing}, as ring = as₀ ring →
      (none : Option FirmwareRx).toList = responsesSince as₀ as ring := by
    intro as ring h
    rw [responsesSince, h, drop_length]
    rfl
  have hrefl := Extends.refl awaited as₀
  refine .bind (demand_sound hrefl fun hP => ?_) fun status => ?_
  · exact (port_stable hP fun _ _ => ⟨rfl, rfl⟩).weaken_post fun _ _ h => h.1
  refine .bind (demand_sound hrefl fun hP => ?_) fun _ => ?_
  · exact (port_stable hP fun _ other => ⟨(actOf_hostInt other _ _).2, rfl⟩).weaken_post
      fun _ _ h => h.1
  refine .bind (drainRx_sound budget hrefl (hstart rfl)) fun first => ?_
  refine .exists_pre fun as₁ => .exists_pre fun looks₁ => .and_pre fun h₁ => ?_
  refine .bind (drainRx_sound budget h₁.arrivals (hstart (h₁.others .wm2 (by decide))))
    fun second => ?_
  refine .exists_pre fun as₂ => .exists_pre fun looks₂ => .and_pre fun h₂ => ?_
  have hpolled := h₁.polled h₂ seen
  have hfst : first.toList = responsesSince as₀ as₂ .wm := by
    rw [h₁.found, responsesSince, responsesSince, h₂.others .wm (by decide)]
  have hsnd := h₂.found
  cases first with
  | none =>
    refine .pure fun s hs => ⟨as₂, _, ⟨h₂.arrivals, hpolled, ?_⟩, hs⟩
    rw [← hfst, hsnd]
    rfl
  | some =>
    cases second with
    | none =>
      refine .pure fun s hs => ⟨as₂, _, ⟨h₂.arrivals, hpolled, ?_⟩, hs⟩
      rw [← hfst, ← hsnd]
      rfl
    | some =>
      refine .fail fun s hs => hs.halted h₂.arrivals (.duplicate ?_)
      rw [Twice, ← hfst, ← hsnd]
      exact Nat.le_refl 2

/-- The routing gave up. -/
structure Dead (r : RxRouting) : Prop where
  live : r.live = false
  pending : r.pending = none
  events : r.events = []

/-- One poll: whole cycles on both rings, each left at its budget or at a
descriptor that was not done, or it fails for a reason and the routing gives
up. -/
theorem pollResponse_sound (budget : Nat) (seen : Looks) :
    Triple (Sound taken as₀ seen) (pollResponse (activeMcu B.logged) awaited budget)
      (fun found s => ∃ as seen', PollAnswer awaited budget as₀ as seen seen' found ∧
        Sound taken as seen' s)
      (fun _ s => Halted taken as₀ awaited s.transport ∧ Dead s.transport.2) := by
  have hmask : Aside B .maskResponseInterrupts := fun hP => maskInterrupts_stable hP _
  have hunmask : Aside B (.enableResponseInterrupts loaderResponseIrqMask) :=
    fun hP => maskInterrupts_stable hP _
  refine .bind (ask_sound (.refl awaited _) hmask) fun answer => ?_
  cases answer with
  | error => exact .of_outcome fun s hs => .inr ⟨_, rfl, hs, rfl, rfl, rfl⟩
  | ok =>
    refine .attempt_bind (drainRings_sound budget seen) (fun found => ?_) fun error => ?_
    · refine .exists_pre fun as => .exists_pre fun seen' => .and_pre fun hanswered => ?_
      refine .bind (ask_sound hanswered.arrivals hunmask) fun answer => ?_
      cases answer with
      | ok => exact .pure fun s hs => ⟨as, seen', hanswered, hs⟩
      | error => exact .of_outcome fun s hs => .inr ⟨_, rfl, hs, rfl, rfl, rfl⟩
    · refine .bind (ask_halted hunmask) fun answer => ?_
      cases answer <;> exact .of_outcome fun s hs => .inr ⟨_, rfl, hs, rfl, rfl, rfl⟩

end

end Drv.Mt7921
