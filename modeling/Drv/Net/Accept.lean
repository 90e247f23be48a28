import Drv.Net.SocketWorker

/-!
# Connections on their way to the application

The worker of a listener takes a connection from the core and publishes it
to the frontend (the PUBLISH ioctl), where the application takes it. One
flag tells the worker of room, as the ACCEPT message. PUBLISH looks for room
twice, and the application may accept before the second look and before the
worker goes by the answer.

The socket listens and is not closed. A connection stands for the child that
PUBLISH makes of it.
-/

namespace Drv.Net.Accept

inductive AcceptState where
  | waitingForListenerSpace
  | ready
  | retryAt (time : Nat)

def AcceptState.due (now : Nat) : AcceptState → Bool
  | .ready => true
  | .retryAt time => time ≤ now
  | .waitingForListenerSpace => false

def AcceptState.deadline : AcceptState → Option Nat
  | .retryAt time => some time
  | _ => none

/-- How a child cannot be made: EMFILE, ENFILE or ENOMEM, or another error. -/
inductive Fault where
  | exhausted
  | other

/-- What PUBLISH answers; `full` is EAGAIN. -/
inductive Publication where
  | done
  | full
  | failed (fault : Fault)

/-- Where the worker is: elsewhere, between the looks of PUBLISH, or with
its answer. -/
inductive Turn where
  | idle
  | publishing
  | answered (result : Publication)

/-- The frontend, the core's listener, and the worker, which may be retired. -/
structure State (C : Type) where
  accepted : List C
  backlog : Nat
  acceptSpace : Bool
  core : List C
  pendingAccept : Option C
  accept : AcceptState
  turn : Turn
  now : Nat
  retired : Bool

namespace State

variable {C : Type} (s : State C)

/-- The frontend took the reply to LISTEN. -/
def listening (backlog : Nat) (core : List C) (now : Nat) : State C :=
  ⟨[], max backlog 1, true, core, none, .waitingForListenerSpace, .idle, now, false⟩

def wantsAccept : Bool := s.accept.due s.now

def retire : State C := { s with retired := true }

/-- `accept` of the application. -/
def appAccept : State C :=
  match s.accepted with
  | [] => s
  | _ :: rest => { s with accepted := rest, acceptSpace := true }

/-- `read_control`, and what the worker does with ACCEPT. -/
def readControl : State C :=
  if s.acceptSpace then { s with acceptSpace := false, accept := .ready } else s

/-- `listener.accept`, with the error the core may have. The core's listener
is not in this repository: its queue is taken to be first in, first out. -/
def acceptCore (error : Option RuntimeError) : State C :=
  match error, s.core with
  | none, child :: rest => { s with core := rest, pendingAccept := some child, accept := .ready }
  | none, [] => { s with accept := .ready }
  | some .wouldBlock, _ => { s with accept := .ready }
  | some .socketLimit, _ => { s with accept := .retryAt (s.now + 100) }
  | some _, _ => s.retire

/-- The names of the child, which may not be had, and the first look. -/
def offer (named : Bool) : State C :=
  if s.pendingAccept.isNone then s
  else if named = false then s.retire
  else if s.accepted.length ≥ s.backlog then { s with turn := .answered .full }
  else { s with turn := .publishing }

def acceptInfo (error : Option RuntimeError) (named : Bool) : State C :=
  (if s.pendingAccept.isNone then s.acceptCore error else s).offer named

/-- The rest of PUBLISH. -/
def publish : Option Fault → State C
  | some fault => { s with turn := .answered (.failed fault) }
  | none =>
    if s.accepted.length ≥ s.backlog then { s with turn := .answered .full }
    else { s with accepted := s.accepted ++ s.pendingAccept.toList, turn := .answered .done }

/-- What the worker does with the answer; a child may not be registered. -/
def conclude (registered : Bool) : Publication → State C
  | .done => if registered then { s with pendingAccept := none, turn := .idle } else s.retire
  | .full => { s with accept := .waitingForListenerSpace, turn := .idle }
  | .failed .exhausted => { s with accept := .retryAt (s.now + 100), turn := .idle }
  | .failed .other => s.retire

end State

inductive Event (C : Type) where
  | incoming (connection : C)
  | elapse (time : Nat)
  | appAccept
  | readControl
  | acceptInfo (error : Option RuntimeError) (named : Bool)
  | publish (fault : Option Fault)
  | conclude (registered : Bool)

variable {C : Type}

def State.step (s : State C) (event : Event C) : State C :=
  if s.retired then s
  else match event, s.turn with
    | .incoming connection, _ => { s with core := s.core ++ [connection] }
    | .elapse time, _ => { s with now := s.now + time }
    | .appAccept, _ => s.appAccept
    | .readControl, .idle => s.readControl
    | .acceptInfo error named, .idle => if s.wantsAccept then s.acceptInfo error named else s
    | .publish fault, .publishing => s.publish fault
    | .conclude registered, .answered result => s.conclude registered result
    | _, _ => s

def State.run (s : State C) (events : List (Event C)) : State C := events.foldl step s

end Drv.Net.Accept
