import Drv.Laws.Mt7921.Receive

/-!
# Frames are delivered once and in order

A run polls the two MCU receive rings, takes events and resets the rings,
in any order. `receive_exactly_once` says of every run, whatever the
hardware answers and whatever a reset makes of it, for the time since the
last reset:

* while no poll failed, the events of a ring are its arrivals, in ring
  order and each once, without the awaited responses;
* a poll that did not fail left each ring at its budget, or at the next
  descriptor of the ring, which it read as not done;
* an event is only there after its replacement descriptor and the
  producer index were written;
* a descriptor is only given back after its buffer was copied;
* once a poll failed nothing is waiting, and no event that was taken can
  be turned into a route;
* a poll fails only when the hardware, a frame, a second response, too
  many waiting events or a counter at its end made it fail.

No event that was taken before a reset can be turned into a route after
it. Events that wait when the rings are reset are dropped with the old
owner, so of them nothing is promised; and whether the device completes a
descriptor at all is the board's to answer.
-/

namespace Drv.Mt7921

open Drv.Hardware (Error)
open LoaderMechanics List RxRouting

variable {η : Type} {B : Board η}

/-! ## Runs -/

inductive RxOp (η : Type) where
  | poll (awaited : Option UInt8) (budget : Nat)
  | take
  /-- A WPDMA reset, which may leave any hardware behind. -/
  | reset (hardware : η)

/-- A poll, with the calls it made on the board. -/
structure Poll where
  awaited : Option UInt8
  budget : Nat
  calls : List BoardCall
  result : Except (LoaderMechanicsError Error) (Option FirmwareRx)

def Poll.Failed (p : Poll) : Prop := ∃ e, p.result = .error e

/-- The polls and the events that were taken since the last reset, and those
taken before it. -/
structure RxRun (η : Type) where
  session : RxSession η
  polls : List Poll
  taken : List ReceivedEvent
  revoked : List ReceivedEvent

namespace RxRun

/-- The rings are at their start. -/
def fresh (m : LoaderMechanics) (h : η) (r : RxRouting) (revoked : List ReceivedEvent) :
    RxRun η where
  session := ⟨m, (h, []), r⟩
  polls := []
  taken := []
  revoked := revoked

def start (h : η) (sequence : UInt8) : RxRun η := fresh (.new sequence) h (.default 0) []

/-- What the next poll shows. -/
def polled (B : Board η) (run : RxRun η) (awaited : Option UInt8) (budget : Nat) : Poll :=
  let o := pollResponse (activeMcu B.logged) awaited budget run.session
  let made := (calls o.state.transport).drop (calls run.session.transport).length
  ⟨awaited, budget, made, o.result⟩

def step (B : Board η) (run : RxRun η) : RxOp η → RxRun η
  | .poll awaited budget =>
    { run with
      session := (pollResponse (activeMcu B.logged) awaited budget run.session).state
      polls := run.polls ++ [run.polled B awaited budget] }
  | .take =>
    let (event, routing) := run.session.transport.2.takeEvent
    { run with
      session := { run.session with transport := (run.session.transport.1, routing) }
      taken := run.taken ++ event.toList }
  | .reset hardware =>
    -- the routing is rebuilt only after the engine took the reset
    let o := (rebaseAfterWpdmaReset : Mcu (Wired η) Error Unit) run.session
    match o.result with
    | .error _ => run
    | .ok _ => fresh o.state.mechanics hardware run.session.transport.2.rebaseAfterWpdmaReset
        (run.revoked ++ run.taken)

/-- All calls on the board since the last reset. -/
def calls (run : RxRun η) : List BoardCall := Mt7921.calls run.session.transport

def routing (run : RxRun η) : RxRouting := run.session.transport.2

/-- The events that wait to be taken. -/
def waiting (run : RxRun η) : List ReceivedEvent := run.routing.events

end RxRun

open RxRun

/-! ## What a run shows -/

/-- The arrivals of the polls on a ring. -/
def arrivedOn (ring : McuRxIrqRing) (polls : List Poll) : List Arrival :=
  polls.flatMap fun p => completed p.awaited (acts ring p.calls)

/-- The arrivals of the polls on a ring that were replaced and published. -/
def replacedOn (ring : McuRxIrqRing) (polls : List Poll) : List Arrival :=
  polls.flatMap fun p => replaced p.awaited (acts ring p.calls)

/-- The awaited responses of a poll. -/
def Poll.responses (p : Poll) : List FirmwareRx :=
  Mt7921.responses .wm (completed p.awaited (acts .wm p.calls)) ++
    Mt7921.responses .wm2 (completed p.awaited (acts .wm2 p.calls))

/-- A poll that did not fail, nor any before it, drained both rings. -/
def Poll.Drained (before : List Poll) (p : Poll) : Prop :=
  (∀ q ∈ before ++ [p], ¬ q.Failed) → ∀ ring, Left p.budget (arrivedOn ring before).length
    (completed p.awaited (acts ring p.calls)) (looks ring p.calls)

/-- Why a run may have failed. -/
def Excused (run : RxRun η) : Prop :=
  Excuse run.taken run.calls (fun ring => arrivedOn ring run.polls)
    (∃ p ∈ run.polls, 2 ≤ p.responses.length)

structure ExactlyOnce (run : RxRun η) : Prop where
  /-- The events of a ring are its arrivals but the awaited responses. -/
  delivered : (∀ p ∈ run.polls, ¬ p.Failed) → ∀ ring,
    routesOn ring (run.taken ++ run.waiting) = offers ring (arrivedOn ring run.polls) ∧
      InOrder (arrivedOn ring run.polls)
  /-- A ring is left at the budget, or at a descriptor that was not done. -/
  drained : Justified Poll.Drained run.polls
  /-- The awaited responses are answered. -/
  answered : (∀ p ∈ run.polls, ¬ p.Failed) → ∀ p ∈ run.polls, ∀ found, p.result = .ok found →
    found.toList = p.responses
  /-- A failed run delivers no more than that. -/
  bounded : ∀ ring, routesOn ring (run.taken ++ run.waiting) <+:
    offers ring (arrivedOn ring run.polls)
  /-- No event is there before its replacement and index were written. -/
  published : ∀ ring, routesOn ring (run.taken ++ run.waiting) <+:
    offers ring (replacedOn ring run.polls)
  /-- A descriptor is given back after its buffer was copied. -/
  returned : ∀ ring, Justified Returned (acts ring run.calls)
  /-- Until a failure, an event gives its route. -/
  usable : (∀ p ∈ run.polls, ¬ p.Failed) → ∀ e ∈ run.taken,
    ∃ route, e.route = some route ∧ e.intoRoute run.routing = .ok route
  /-- After a failure, no event gives a route. -/
  stale : (∃ p ∈ run.polls, p.Failed) → run.waiting = [] ∧
    ∀ e ∈ run.taken, e.intoRoute run.routing = .error .staleHandle
  /-- After a reset, no event of before gives a route. -/
  revoked : ∀ e ∈ run.revoked, e.intoRoute run.routing = .error .staleHandle
  excused : (∃ p ∈ run.polls, p.Failed) → Excused run

/-! ## Requests on a routing that gave up -/

/-- The log only grows, nothing is given back by a routing that gave up, and
the owner stays. -/
structure Idle (t t' : Wired η) : Prop where
  calls : ∃ more, calls t' = calls t ++ more ∧
    (Dead t.2 → ∀ ring slot ok, .armed slot ok ∉ acts ring more)
  dead : Dead t.2 → Dead t'.2
  owner : t'.2.owner = t.2.owner

instance : IsPreorder (Wired η) Idle where
  refl t := ⟨⟨[], (append_nil _).symm, fun _ _ _ _ h => by cases h⟩, id, rfl⟩
  trans t t' t'' := by
    rintro ⟨⟨more, hcs, hn⟩, hdead, howner⟩ ⟨⟨more', hcs', hn'⟩, hdead', howner'⟩
    refine ⟨⟨more ++ more', by rw [hcs', hcs, append_assoc], ?_⟩, hdead' ∘ hdead,
      howner'.trans howner⟩
    intro ht ring slot ok hmem
    rw [acts_append] at hmem
    rcases mem_append.mp hmem with hmem | hmem
    · exact hn ht ring slot ok hmem
    · exact hn' (hdead ht) ring slot ok hmem

theorem port_idle {p : Port}
    (hp : ∀ ring answer slot ok, actOf ring ⟨p, answer⟩ ≠ some (.armed slot ok)) :
    Within Idle (port B.logged p) := by
  intro t
  refine ⟨⟨[⟨p, (B.handle p t.1.1).1⟩], rfl, ?_⟩, id, rfl⟩
  intro _ ring slot ok hmem
  obtain ⟨c, hc, hact⟩ := mem_filterMap.mp hmem
  rw [mem_singleton.mp hc] at hact
  exact hp ring _ slot ok hact

/-- More was done to the board. -/
def Grows (h t : η × List BoardCall) : Prop := ∃ more, t.2 = h.2 ++ more

theorem Grows.refl (h : η × List BoardCall) : Grows h h := ⟨[], (append_nil _).symm⟩

/-- A call on the routing writes at most once, and not at all when it gave
up. -/
theorem routing_idle {f : RxRouting → η × List BoardCall → Except Error Unit ×
      (η × List BoardCall) × RxRouting}
    (hkeeps : ∀ r h, Grows h (f r h).2.1 ∧ (f r h).2.2.owner = r.owner)
    (hdead : ∀ r h, Dead r → (f r h).2.1 = h ∧ Dead (f r h).2.2) : Within Idle (routing f) := by
  intro t
  by_cases ht : Dead t.2
  · refine ⟨⟨[], ?_, fun _ _ _ _ h => by cases h⟩, fun _ => (hdead t.2 t.1 ht).2,
      (hkeeps t.2 t.1).2⟩
    rw [append_nil]
    exact congrArg Prod.snd (hdead t.2 t.1 ht).1
  · obtain ⟨⟨more, hm⟩, howner⟩ := hkeeps t.2 t.1
    exact ⟨⟨more, hm, fun h => absurd h ht⟩, fun h => absurd h ht, howner⟩

theorem RxRouting.abort_dead (r : RxRouting) : Dead r.abort := ⟨rfl, rfl, rfl⟩

theorem maskInterrupts_idle (f : UInt32 → UInt32) : Within Idle (maskInterrupts B.logged f) := by
  refine .bind (port_idle fun _ _ _ _ h => by cases h) fun enabled => ?_
  refine .guard (port_idle fun ring answer slot ok h => ?_)
  rw [(actOf_hostInt ring _ _).1] at h
  cases h

theorem views_idle {req : Request} (hreq : req.Receives) : Within Idle (views B.logged req) := by
  cases req with
  | enableResponseInterrupts mask | maskResponseInterrupts => exact maskInterrupts_idle _
  | responseInterruptStatus | rxBufferAddress ring slot =>
    exact port_idle fun _ _ _ _ h => by cases h
  | acknowledgeResponseInterrupts =>
    refine port_idle fun ring answer slot ok h => ?_
    rw [(actOf_hostInt ring _ _).2] at h
    cases h
  | readRxDescriptor ring slot =>
    refine .bind (port_idle fun other answer slot ok h => ?_) fun _ => .pure _
    cases answer with
    | error => cases h
    | ok =>
      simp only [actOf] at h
      split at h <;> cases h
  | readRxBuffer ring slot =>
    refine port_idle fun other answer slot ok h => ?_
    cases answer with
    | error => cases h
    | ok =>
      simp only [actOf] at h
      split at h <;> cases h
  | repostRxDescriptor ring slot =>
    refine routing_idle (fun r h => r.repost_keeps ring h (.refl h) ⟨_, rfl⟩ slot) fun r h hr => ?_
    rw [repost, hr.pending]
    exact ⟨rfl, r.abort_dead⟩
  | publishRxProducer ring producer =>
    refine routing_idle (fun r h => r.publish_keeps ring h (.refl h) ⟨_, rfl⟩ producer)
      fun r h hr => ?_
    rw [publish, hr.pending]
    exact ⟨rfl, r.abort_dead⟩
  | prepareRxResult =>
    refine routing_idle (fun r h => ?_) fun r h hr => ?_
    · obtain ⟨hsame, howner⟩ := r.prepare_keeps ..
      exact ⟨⟨[], by rw [hsame, append_nil]⟩, howner⟩
    · rw [prepare, if_pos hr.live]
      exact ⟨rfl, hr⟩
  | completeRxResult =>
    refine routing_idle (fun r h => ?_) fun r h hr => ?_
    · obtain ⟨hsame, howner⟩ := r.complete_keeps ..
      exact ⟨⟨[], by rw [hsame, append_nil]⟩, howner⟩
    · rw [complete, hr.pending]
      exact ⟨rfl, r.abort_dead⟩
  | abortRx =>
    intro t
    exact ⟨⟨[], (append_nil _).symm, fun _ _ _ _ h => by cases h⟩, fun _ => t.2.abort_dead, rfl⟩
  | _ => exact hreq.elim

/-- The transport moves on idly. -/
def IdleStep (s s' : RxSession η) : Prop := Idle s.transport s'.transport

instance : IsPreorder (RxSession η) IdleStep where
  refl s := refl_of Idle s.transport
  trans _ _ _ h h' := trans_of Idle h h'

theorem pollResponse_idle (awaited : Option UInt8) (budget : Nat) :
    Within IdleStep (pollResponse (activeMcu B.logged) awaited budget) := by
  have hsteps : Steps (activeMcu B.logged) IdleStep Request.Receives fun _ _ => True :=
    ⟨fun req hreq s => views_idle hreq s.transport, fun s m _ => refl_of Idle s.transport⟩
  exact hsteps.pollResponse (fun _ => id) (fun _ _ => trivial) awaited budget

/-! ## Runs that did not fail -/

section
variable {run : RxRun η}

/-- Nothing failed so far. -/
structure Going (run : RxRun η) : Prop where
  sound : Sound run.taken (fun ring => arrivedOn ring run.polls) (fun ring => looks ring run.calls)
    run.session
  succeeded : ∀ p ∈ run.polls, ¬ p.Failed
  answered : ∀ p ∈ run.polls, ∀ found, p.result = .ok found → found.toList = p.responses
  published : ∀ ring, replacedOn ring run.polls = arrivedOn ring run.polls
  drained : Justified Poll.Drained run.polls
  revoked : ∀ e ∈ run.revoked, e.owner < run.routing.owner

theorem intoRoute_of_lt {e : ReceivedEvent} {r : RxRouting} (h : e.owner < r.owner) :
    e.intoRoute r = .error .staleHandle := by
  simp [ReceivedEvent.intoRoute, holds, h.ne]

theorem arrivedOn_push (ring : McuRxIrqRing) (polls : List Poll) (p : Poll) :
    arrivedOn ring (polls ++ [p]) =
      arrivedOn ring polls ++ completed p.awaited (acts ring p.calls) := by
  simp [arrivedOn]

theorem replacedOn_push (ring : McuRxIrqRing) (polls : List Poll) (p : Poll) :
    replacedOn ring (polls ++ [p]) =
      replacedOn ring polls ++ replaced p.awaited (acts ring p.calls) := by
  simp [replacedOn]

variable {ring : McuRxIrqRing}

theorem Going.exactlyOnce (h : Going run) : ExactlyOnce run where
  delivered _ ring := ⟨h.sound.settled.events ring, h.sound.order ring⟩
  drained := h.drained
  answered _ := h.answered
  bounded ring := by
    rw [← h.sound.settled.events ring]
    exact prefix_rfl
  published ring := by
    rw [h.published, ← h.sound.settled.events ring]
    exact prefix_rfl
  returned ring := by
    rw [RxRun.calls, h.sound.acts]
    exact justified_cycles (h.sound.order ring)
  usable _ e he := by
    have hmem : e.route ∈ routesOn e.occurrence.slot.ring (run.taken ++ run.waiting) := by
      apply mem_map_of_mem
      simp [he]
    rw [RxRun.waiting, RxRun.routing, h.sound.settled.events] at hmem
    obtain ⟨route, -, hroute⟩ := mem_map.mp hmem
    have howner := h.sound.settled.owned e (mem_append_left _ he)
    refine ⟨route, hroute.symm, ?_⟩
    simp [ReceivedEvent.intoRoute, holds, RxRun.routing, h.sound.settled.live, howner, ← hroute]
  stale := fun ⟨p, hp, hfail⟩ => absurd hfail (h.succeeded p hp)
  revoked e he := intoRoute_of_lt (h.revoked e he)
  excused := fun ⟨p, hp, hfail⟩ => absurd hfail (h.succeeded p hp)

theorem step_polls (run : RxRun η) (awaited : Option UInt8) (budget : Nat) :
    (run.step B (.poll awaited budget)).polls = run.polls ++ [run.polled B awaited budget] := rfl

theorem polled_calls (run : RxRun η) (awaited : Option UInt8) (budget : Nat) :
    (run.step B (.poll awaited budget)).calls =
      run.calls ++ (run.polled B awaited budget).calls := by
  obtain ⟨more, hm, -⟩ := (pollResponse_idle awaited budget run.session).calls
  change calls (pollResponse (activeMcu B.logged) awaited budget run.session).state.transport =
    calls run.session.transport ++ List.drop _ _
  rw [hm, drop_left]

theorem acts_since {log more : List BoardCall} {as as' : List Arrival}
    {tail : List Act} (hlog : acts ring log = as.flatMap Arrival.cycle)
    (hm : acts ring (log ++ more) = (as ++ as').flatMap Arrival.cycle ++ tail) :
    acts ring more = as'.flatMap Arrival.cycle ++ tail := by
  rw [acts_append, hlog, flatMap_append, append_assoc] at hm
  exact append_cancel_left hm

variable {awaited : Option UInt8} {budget : Nat}

/-- What a poll adds to the acts is whole cycles and a tail, so that its
arrivals can be read off. -/
theorem Going.poll_acts (h : Going run) {as : Arrivals} (tails : McuRxIrqRing → List Act)
    (hext : Extends awaited (fun ring => arrivedOn ring run.polls) as)
    (hacts : ∀ ring, acts ring (run.step B (.poll awaited budget)).calls = (as ring).flatMap Arrival.cycle ++ tails ring)
    (ring : McuRxIrqRing) :
    ∃ more, as ring = arrivedOn ring run.polls ++ more ∧
      completed awaited (acts ring (run.polled B awaited budget).calls) =
        more ++ completed awaited (tails ring) ∧
      replaced awaited (acts ring (run.polled B awaited budget).calls) =
        more ++ replaced awaited (tails ring) := by
  obtain ⟨more, hm, hawait⟩ := hext ring
  have hring := hacts ring
  rw [polled_calls, hm] at hring
  rw [acts_since (h.sound.acts ring) hring]
  exact ⟨more, hm, completed_cycles hawait _, replaced_cycles hawait _⟩

theorem Going.poll_ok (h : Going run) {found : Option FirmwareRx}
    (hok : (pollResponse (activeMcu B.logged) awaited budget run.session).result = .ok found) :
    Going (run.step B (.poll awaited budget)) := by
  obtain ⟨as, seen', hanswered, hsound⟩ := (pollResponse_sound budget _ run.session h.sound).1
    found hok
  obtain rfl : (fun ring => looks ring (run.step B (.poll awaited budget)).calls) = seen' :=
    funext hsound.looks
  have hidle := pollResponse_idle (B := B) awaited budget run.session
  have hadds : ∀ ring, ∃ more, as ring = arrivedOn ring run.polls ++ more ∧
      completed awaited (acts ring (run.polled B awaited budget).calls) = more ∧
      replaced awaited (acts ring (run.polled B awaited budget).calls) = more := by
    intro ring
    obtain ⟨more, hm, hcompl, hrepl⟩ := h.poll_acts (B := B) (fun _ => [])
      hanswered.arrivals (fun ring => (hsound.acts ring).trans (append_nil _).symm) ring
    exact ⟨more, hm, hcompl.trans (append_nil _), hrepl.trans (append_nil _)⟩
  have harr : (fun ring => arrivedOn ring (run.step B (.poll awaited budget)).polls) = as := by
    funext ring
    obtain ⟨more, hm, hcompl, -⟩ := hadds ring
    rw [hm, step_polls, arrivedOn_push]
    exact congrArg _ hcompl
  refine ⟨?_, ?_, ?_, ?_, ?_, ?_⟩
  · rw [harr]
    exact hsound
  · refine forall_mem_concat h.succeeded ?_
    rintro ⟨e, he⟩
    exact absurd (hok.symm.trans he) nofun
  · intro p hp found' hfound'
    rcases mem_append.mp hp with hp | hp
    · exact h.answered p hp found' hfound'
    · rw [mem_singleton.mp hp] at hfound' ⊢
      cases hok.symm.trans hfound'
      rw [hanswered.found, Poll.responses]
      congr 1
      · obtain ⟨more, hm, hcompl, -⟩ := hadds .wm
        rw [responsesSince, hm, drop_left, ← hcompl]
        rfl
      · obtain ⟨more, hm, hcompl, -⟩ := hadds .wm2
        rw [responsesSince, hm, drop_left, ← hcompl]
        rfl
  · intro ring
    obtain ⟨more, hm, hcompl, hrepl⟩ := hadds ring
    rw [step_polls, replacedOn_push, arrivedOn_push, h.published]
    exact congrArg _ (hrepl.trans hcompl.symm)
  · rw [step_polls]
    refine justified_append.mpr ⟨h.drained, justifiedAfter_singleton.mpr fun _ ring => ?_⟩
    obtain ⟨arrived, seen, has, hlooks, hleft⟩ := hanswered.polled ring
    obtain ⟨more, hm, hcompl, -⟩ := hadds ring
    have hseen : looks ring (run.polled B awaited budget).calls = seen := by
      rw [polled_calls] at hlooks
      exact append_cancel_left ((looks_append ..).symm.trans hlooks)
    rw [hseen]
    refine hcompl.symm ▸ ?_
    rwa [← append_cancel_left (has.symm.trans hm)]
  · exact fun e he => (h.revoked e he).trans_eq hidle.owner.symm

theorem Going.take (h : Going run) : Going (run.step B .take) := by
  have htaken : (run.step B .take).taken ++ (run.step B .take).waiting =
      run.taken ++ run.waiting := by
    change (run.taken ++ run.routing.events.head?.toList) ++ run.routing.events.tail = _
    rw [waiting]
    cases run.routing.events <;> simp
  exact { h with sound := { h.sound with settled := { h.sound.settled with
    events := fun ring => (congrArg (routesOn ring) htaken).trans (h.sound.settled.events ring)
    owned := fun e he => h.sound.settled.owned e (htaken ▸ he) } } }

/-! ## Runs that failed -/

/-- Some poll failed. -/
structure Stopped (run : RxRun η) : Prop where
  failed : ∃ p ∈ run.polls, p.Failed
  dead : Dead run.routing
  bounded : ∀ ring, routesOn ring run.taken <+: offers ring (arrivedOn ring run.polls)
  published : ∀ ring, routesOn ring run.taken <+: offers ring (replacedOn ring run.polls)
  returned : ∀ ring, Justified Returned (acts ring run.calls)
  excused : Excused run
  drained : Justified Poll.Drained run.polls
  owned : ∀ e ∈ run.taken, e.owner = run.routing.owner
  revoked : ∀ e ∈ run.revoked, e.owner < run.routing.owner

theorem Stopped.exactlyOnce (h : Stopped run) : ExactlyOnce run := by
  obtain ⟨p, hp, hfail⟩ := h.failed
  have hwait : run.waiting = [] := h.dead.events
  have habs : ¬ ∀ p ∈ run.polls, ¬ p.Failed := fun hall => hall p hp hfail
  refine ⟨fun hall => absurd hall habs, h.drained, fun hall => absurd hall habs, ?_, ?_,
    h.returned, fun hall => absurd hall habs, fun _ => ⟨hwait, fun e _ => ?_⟩,
    fun e he => intoRoute_of_lt (h.revoked e he), fun _ => h.excused⟩
  · rw [hwait, append_nil]
    exact h.bounded
  · rw [hwait, append_nil]
    exact h.published
  · simp [ReceivedEvent.intoRoute, holds, h.dead.live]

theorem Going.poll_error (h : Going run) {e : LoaderMechanicsError Error}
    (herr : (pollResponse (activeMcu B.logged) awaited budget run.session).result = .error e) :
    Stopped (run.step B (.poll awaited budget)) := by
  obtain ⟨⟨as, ring, tail, hext, hord, hacts, hpart, hexc⟩, hdead⟩ :=
    (pollResponse_sound budget _ run.session h.sound).2 e herr
  have hidle := pollResponse_idle (B := B) awaited budget run.session
  have hfailed : (run.polled B awaited budget).Failed := ⟨e, herr⟩
  have hadds : ∀ other, ∃ more, as other = arrivedOn other run.polls ++ more ∧
      completed awaited (acts other (run.polled B awaited budget).calls) =
        more ++ completed awaited (if other = ring then tail else []) := by
    intro other
    obtain ⟨more, hm, hcompl, -⟩ := h.poll_acts (B := B) _ hext hacts other
    exact ⟨more, hm, hcompl⟩
  have htaken : ∀ other, routesOn other run.taken <+: offers other (arrivedOn other run.polls) := by
    intro other
    rw [← h.sound.settled.events, routesOn_append]
    exact prefix_append _ _
  have hexcused : Excused (run.step B (.poll awaited budget)) := by
    refine hexc.mono (fun _ => id) (fun other => ?_) fun htwice =>
      ⟨_, mem_append_right _ mem_cons_self, ?_⟩
    · obtain ⟨more, hm, hcompl⟩ := hadds other
      rw [step_polls, arrivedOn_push, Arrivals.with, hm, append_assoc]
      exact hcompl ▸ prefix_rfl
    · have hle : ∀ other, (responsesSince (fun ring => arrivedOn ring run.polls) as other).length ≤
          (responses other (completed awaited
            (acts other (run.polled B awaited budget).calls))).length := by
        intro other
        obtain ⟨more, hm, hcompl⟩ := hadds other
        rw [responsesSince, hm, drop_left, hcompl, responses, responses, filterMap_append,
          length_append]
        omega
      rw [Poll.responses, length_append]
      exact htwice.trans (Nat.add_le_add (hle .wm) (hle .wm2))
  refine ⟨⟨_, by rw [step_polls]; simp, hfailed⟩, hdead, ?_, ?_, ?_, hexcused, ?_, fun e he => ?_,
    fun e he => (h.revoked e he).trans_eq hidle.owner.symm⟩
  · intro other
    rw [step_polls, arrivedOn_push]
    exact (htaken other).trans (offers_grow _ (prefix_append _ _))
  · intro other
    rw [step_polls, replacedOn_push, h.published]
    exact (htaken other).trans (offers_grow _ (prefix_append _ _))
  · intro other
    refine (hacts other).symm ▸ ?_
    by_cases hother : other = ring
    · subst hother
      rw [if_pos rfl]
      exact justified_part (hord other) (justified_cycles (hord other)) hpart
    · rw [if_neg hother, append_nil]
      exact justified_cycles (hord other)
  · rw [step_polls]
    refine justified_append.mpr ⟨h.drained, justifiedAfter_singleton.mpr fun hall => ?_⟩
    exact absurd hfailed (hall _ (by simp))
  · exact (h.sound.settled.owned e (mem_append_left _ he)).trans hidle.owner.symm

theorem Stopped.poll (h : Stopped run) (awaited : Option UInt8) (budget : Nat) :
    Stopped (run.step B (.poll awaited budget)) := by
  have hcs := polled_calls (B := B) run awaited budget
  have hidle := pollResponse_idle (B := B) awaited budget run.session
  obtain ⟨more, hm, hn⟩ := hidle.calls
  have hsame : (run.polled B awaited budget).calls = more := by
    change drop _ _ = more
    rw [hm, drop_left]
  rw [hsame] at hcs
  obtain ⟨p, hp, hfail⟩ := h.failed
  have hgrow : ∀ ring, arrivedOn ring run.polls <+:
      arrivedOn ring (run.step B (.poll awaited budget)).polls := by
    intro ring
    rw [step_polls, arrivedOn_push]
    exact prefix_append _ _
  refine ⟨⟨p, mem_append_left _ hp, hfail⟩, hidle.dead h.dead,
    fun ring => (h.bounded ring).trans (offers_grow _ (hgrow ring)), ?_, ?_,
    h.excused.mono (hcs ▸ subset_append_left _ _) hgrow
      fun ⟨q, hq, htwice⟩ => ⟨q, mem_append_left _ hq, htwice⟩, ?_,
    fun e he => (h.owned e he).trans hidle.owner.symm,
    fun e he => (h.revoked e he).trans_eq hidle.owner.symm⟩
  · intro ring
    rw [step_polls, replacedOn_push]
    exact (h.published ring).trans (offers_grow _ (prefix_append _ _))
  · intro ring
    rw [hcs, acts_append]
    -- acts that give nothing back
    refine justified_append.mpr ⟨h.returned ring, justifiedAfter_of_forall fun act hact t => ?_⟩
    cases act with
    | armed slot ok => exact absurd hact (hn h.dead ring slot ok)
    | _ => trivial
  · rw [step_polls]
    refine justified_append.mpr ⟨h.drained, justifiedAfter_singleton.mpr fun hall => ?_⟩
    exact absurd hfail (hall p (mem_append_left _ hp))

theorem Stopped.take (h : Stopped run) : Stopped (run.step B .take) := by
  have hevs : run.session.transport.2.events = [] := h.dead.events
  have htaken : (run.step B .take).taken = run.taken := by
    change run.taken ++ run.session.transport.2.events.head?.toList = _
    rw [hevs]
    exact append_nil _
  have hdead : Dead (run.step B .take).routing := by
    refine ⟨h.dead.live, h.dead.pending, ?_⟩
    change run.session.transport.2.events.tail = []
    rw [hevs]
    rfl
  refine ⟨h.failed, hdead, ?_, ?_, h.returned, ?_, h.drained, ?_, h.revoked⟩
  · rw [htaken]
    exact h.bounded
  · rw [htaken]
    exact h.published
  · rw [Excused, htaken]
    exact h.excused
  · rw [htaken]
    exact h.owned

/-! ## Every run -/

theorem fresh_going {m : LoaderMechanics} (h : η) {owner : Nat} {revoked : List ReceivedEvent}
    (hheads : m.rxHead = ⟨0, 0⟩) (hrevoked : ∀ e ∈ revoked, e.owner < owner) :
    Going (fresh m h (.default owner) revoked) := by
  refine ⟨⟨⟨rfl, rfl, fun ring index => ?_, fun ring => rfl, nofun⟩, fun ring => rfl,
    fun ring => rfl, fun ring => rfl, fun ring => ?_⟩, nofun, nofun, fun ring => rfl, trivial,
    hrevoked⟩
  · show (if index = 7 then .available 0 else .armed 1) = slotAt 0 index
    decide +revert
  · rw [fresh, hheads]
    cases ring <;> rfl

theorem rebase_heads {s : RxSession η}
    (h : ((rebaseAfterWpdmaReset : Mcu (Wired η) Error Unit) s).result = .ok ()) :
    ((rebaseAfterWpdmaReset : Mcu (Wired η) Error Unit) s).state.mechanics.rxHead = ⟨0, 0⟩ := by
  have hrebase : Triple (fun _ => True) (rebaseAfterWpdmaReset : Mcu (Wired η) Error Unit)
      (fun _ s => s.mechanics.rxHead = ⟨0, 0⟩) fun _ _ => True := by
    refine .look_any fun m => ?_
    split
    · exact .fail fun _ _ => trivial
    · exact .guard (fun _ _ => trivial) (.modify fun _ _ => rfl)
  exact (hrebase s trivial).1 () h

theorem step_going_or_stopped (h : Going run ∨ Stopped run) (op : RxOp η) :
    Going (run.step B op) ∨ Stopped (run.step B op) := by
  cases op with
  | take => exact h.imp Going.take Stopped.take
  | poll awaited budget =>
    rcases h with h | h
    · cases hres : (pollResponse (activeMcu B.logged) awaited budget run.session).result with
      | ok => exact .inl (h.poll_ok hres)
      | error => exact .inr (h.poll_error hres)
    · exact .inr (h.poll awaited budget)
  | reset hardware =>
    cases hres : ((rebaseAfterWpdmaReset : Mcu (Wired η) Error Unit) run.session).result with
    | error =>
      simp only [step, hres]
      exact h
    | ok =>
      have howned : ∀ e ∈ run.taken, e.owner = run.routing.owner := by
        intro e he
        rcases h with h | h
        · exact h.sound.settled.owned e (mem_append_left _ he)
        · exact h.owned e he
      simp only [step, hres]
      left
      refine fresh_going hardware (rebase_heads hres) (forall_mem_append.mpr ⟨fun e he => ?_, ?_⟩)
      · exact Nat.lt_succ_of_lt (h.elim Going.revoked Stopped.revoked e he)
      · exact fun e he => Nat.lt_succ_of_le (howned e he).le

/-- Whatever the hardware answers, and however polls, takes and resets
alternate. -/
theorem receive_exactly_once (B : Board η) (h : η) (sequence : UInt8) (ops : List (RxOp η)) :
    ExactlyOnce (ops.foldl (step B) (start h sequence)) := by
  suffices hrun : ∀ run : RxRun η, Going run ∨ Stopped run →
      Going (ops.foldl (.step B) run) ∨ Stopped (ops.foldl (.step B) run) from
    (hrun _ (.inl (fresh_going h rfl (forall_mem_nil _)))).elim Going.exactlyOnce
      Stopped.exactlyOnce
  induction ops with
  | nil => exact fun run hrun => hrun
  | cons op rest ih => exact fun run hrun => ih _ (step_going_or_stopped hrun op)

end

end Drv.Mt7921
