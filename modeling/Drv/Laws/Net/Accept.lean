import Drv.Net.Accept

/-!
# No connection is stranded

A worker that waits for room, or is about to, has been told of room since it
looked, or there is none (`Signalled`). The connections on their way are one
line, of which the first are taken and to which others are added (`waiting`).

That a worker which was told is scheduled again is not shown.
-/

namespace Drv.Net.Accept

variable {C : Type} {result : Publication}

namespace State

/-- There is room and a connection for it, and nothing brings them together. -/
def Stranded (s : State C) : Prop :=
  s.retired = false ∧ s.accepted.length < s.backlog ∧
    (s.core ≠ [] ∨ s.pendingAccept.isSome = true) ∧
    s.wantsAccept = false ∧ s.accept.deadline = none ∧ s.acceptSpace = false

def Signalled (s : State C) : Prop :=
  s.accept = .waitingForListenerSpace ∨ s.turn = .answered .full →
    s.acceptSpace = true ∨ s.backlog ≤ s.accepted.length

variable {s : State C} (h : s.Signalled)
include h

theorem Signalled.turn {turn : Turn} (hturn : turn ≠ .answered .full) :
    Signalled { s with turn := turn } :=
  fun hwaits => h (.inl (hwaits.resolve_right hturn))

theorem acceptCore_signalled (hidle : s.turn = .idle) (error : Option RuntimeError) :
    (s.acceptCore error).Signalled := by
  unfold acceptCore
  split <;> first | exact h | (intro hwaits; simp [hidle] at hwaits)

theorem offer_signalled (named : Bool) : (s.offer named).Signalled := by
  unfold offer
  split
  · exact h
  split
  · exact h
  split
  next hfull => exact fun _ => .inr hfull
  next => exact h.turn nofun

theorem publish_signalled (fault : Option Fault) : (s.publish fault).Signalled := by
  unfold publish
  split
  · exact h.turn nofun
  split
  next hfull => exact fun _ => .inr hfull
  next hroom =>
    intro hwaits
    exact .inl ((h (.inl (hwaits.resolve_right nofun))).resolve_right hroom)

theorem conclude_signalled (hturn : s.turn = .answered result) (registered : Bool) :
    (s.conclude registered result).Signalled := by
  cases result with
  | done =>
    cases registered with
    | true => exact h.turn nofun
    | false => exact h
  | full => exact fun _ => h (.inr hturn)
  | failed fault =>
    cases fault with
    | exhausted => exact fun hwaits => hwaits.elim nofun nofun
    | other => exact h

theorem step_signalled (event : Event C) : (s.step event).Signalled := by
  unfold step
  split
  · exact h
  split
  · exact h
  · exact h
  · unfold appAccept
    split
    · exact h
    · exact fun _ => .inl rfl
  next hidle =>
    unfold readControl
    split
    · intro hwaits
      simp [hidle] at hwaits
    · exact h
  next hidle =>
    split
    · refine offer_signalled ?_ _
      split
      · exact acceptCore_signalled h hidle _
      · exact h
    · exact h
  · exact publish_signalled h _
  next hturn => exact conclude_signalled h hturn _
  · exact h

theorem run_signalled (events : List (Event C)) : (s.run events).Signalled := by
  induction events generalizing s with
  | nil => exact h
  | cons event rest ih => exact ih (step_signalled h event)

end State

/-- However connections, calls of the application and turns of the worker
mix, none is stranded. -/
theorem never_stranded (backlog : Nat) (core : List C) (now : Nat) (events : List (Event C)) :
    ¬ ((State.listening backlog core now).run events).Stranded := by
  rintro ⟨-, hroom, -, hwants, hdeadline, hspace⟩
  have hstart : (State.listening backlog core now).Signalled := fun _ => .inl rfl
  have hlast := State.run_signalled hstart events
  generalize (State.listening backlog core now).run events = s at *
  cases haccept : s.accept with
  | waitingForListenerSpace =>
    rcases hlast (.inl haccept) with hflag | hfull
    · simp [hspace] at hflag
    · omega
  | ready => simp [State.wantsAccept, haccept, AcceptState.due] at hwants
  | retryAt time => simp [haccept, AcceptState.deadline] at hdeadline

/-! ## Each connection once, in order -/

namespace State

/-- The connections on their way, the oldest first. One that was just
published is with the frontend, and still pending. -/
def waiting (s : State C) : List C :=
  s.accepted ++ (if s.turn matches .answered .done then [] else s.pendingAccept.toList) ++ s.core

/-- What the application takes in a step, and what comes from the network. -/
def exchange (s : State C) (event : Event C) : List C × List C :=
  match s.retired, event with
  | false, .appAccept => (s.accepted.take 1, [])
  | false, .incoming connection => ([], [connection])
  | _, _ => ([], [])

def exchanged (s : State C) : List (Event C) → List C × List C
  | [] => ([], [])
  | event :: rest =>
    let later := (s.step event).exchanged rest
    ((s.exchange event).1 ++ later.1, (s.exchange event).2 ++ later.2)

variable {s : State C}

theorem acceptInfo_waiting (hidle : s.turn = .idle) (error : Option RuntimeError) (named : Bool) :
    (s.acceptInfo error named).waiting = s.waiting := by
  -- a connection leaves the core only while none is pending
  unfold acceptInfo acceptCore offer
  grind [waiting, retire, Option.isNone_iff_eq_none]

theorem publish_waiting (hturn : s.turn = .publishing) (fault : Option Fault) :
    (s.publish fault).waiting = s.waiting := by
  unfold publish
  grind [waiting]

theorem conclude_waiting (hturn : s.turn = .answered result) (registered : Bool) :
    (s.conclude registered result).waiting = s.waiting := by
  unfold conclude
  grind [waiting, retire]

theorem step_waiting (s : State C) (event : Event C) :
    (s.exchange event).1 ++ (s.step event).waiting = s.waiting ++ (s.exchange event).2 := by
  unfold step exchange
  cases s.retired with
  | true => simp
  | false =>
    cases event with
    | incoming | elapse => simp [waiting]
    | appAccept => grind [appAccept, waiting]
    | readControl => grind [readControl, waiting]
    | acceptInfo => grind [acceptInfo_waiting]
    | publish => grind [publish_waiting]
    | conclude => grind [conclude_waiting]

theorem run_waiting (s : State C) (events : List (Event C)) :
    (s.exchanged events).1 ++ (s.run events).waiting = s.waiting ++ (s.exchanged events).2 := by
  induction events generalizing s with
  | nil => exact (List.append_nil _).symm
  | cons event rest ih =>
    show _ ++ _ ++ ((s.step event).run rest).waiting = _ ++ (_ ++ _)
    rw [List.append_assoc, ih, ← List.append_assoc, step_waiting, List.append_assoc]

end State

/-- The application is handed the connections in the order in which they
came, none of them doubled, nor lost before the worker retires. -/
theorem accepted_in_order (backlog : Nat) (core : List C) (now : Nat) (events : List (Event C)) :
    let s := State.listening backlog core now
    (s.exchanged events).1 ++ (s.run events).waiting = core ++ (s.exchanged events).2 :=
  State.run_waiting _ events

end Drv.Net.Accept
