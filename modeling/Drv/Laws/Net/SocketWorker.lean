import Drv.Base.History
import Drv.Base.Hoare
import Drv.Net.SocketWorker

/-!
# What a worker takes from the kernel and what it gives the core

Of a worker with a TCP socket, over any run: the bytes that the core has
taken are a prefix of the payloads of the frames dequeued, in order, as
long as the core has reported no error; and a request that seals the
sender is answered when exactly so many bytes were dequeued and the core
was given them all.

One equation carries both (`Loaded.stream`): what was offered to the
socket, followed by what is staged, is what was dequeued. It holds with
errors too, since a record is dropped only after the socket refused it.
What an error breaks is that the bytes offered are the bytes taken.

A socket that listens takes no bytes and counts frames, so a worker that
has become a listener counts in bytes only up to its first frame, which
the socket refuses.

That a worker makes progress is not shown.
-/

namespace Drv.Net

open List WorkerEvent Endpoint SendTask

/-! ## What the events say -/

/-- The position at which a request seals the sender. -/
def Message.sealedAt (m : Message) : Option Nat :=
  if m.op = opClose ∧ m.data.length = 8 then some (Bytes.toNatLE m.data)
  else if m.op = opShutdown ∧ m.data.length = 12 then
    match shutdownHow (Bytes.toNatLE (m.data.take 4)) with
    | .ok .send => some (Bytes.toNatLE (m.data.drop 4))
    | .ok .sendAndReceive => some (Bytes.toNatLE (m.data.drop 4))
    | _ => none
  else none

namespace WorkerEvent

def payload : WorkerEvent → Bytes
  | .dequeued m => m.data.drop 24
  | _ => []

/-- The bytes that the socket took. -/
def taken : WorkerEvent → Bytes
  | .sent bytes (.ok n) => bytes.take n
  | .finished bytes (.ok ()) => bytes
  | _ => []

/-- The bytes that the socket took or refused with an error. -/
def offer : WorkerEvent → Bytes
  | .sent bytes (.error e) => if e = .wouldBlock then [] else bytes
  | event => event.taken

/-- The socket reported an error. -/
def refused : WorkerEvent → Bool
  | .sent _ (.error e) => e ≠ .wouldBlock
  | .finished _ (.error _) => true
  | _ => false

def listens : WorkerEvent → Bool
  | .listened => true
  | _ => false

/-- A send that did not come as a data frame. -/
def controlSend : WorkerEvent → Bool
  | .control m => m.op = opSend
  | _ => false

end WorkerEvent

variable (t : List WorkerEvent)

/-- The payloads of the frames dequeued. -/
def payloads : Bytes := t.flatMap payload

/-- The bytes that the socket took, in writes or in the terminal hand-off. -/
def delivered : Bytes := t.flatMap taken

def offered : Bytes := t.flatMap offer

/-- The socket has reported no error. -/
def Faultless : Prop := ∀ event ∈ t, event.refused = false

/-- No send came over the control channel. -/
def Unmixed : Prop := ∀ event ∈ t, event.controlSend = false

instance : Decidable (Unmixed t) := inferInstanceAs (Decidable (∀ event ∈ t, _))

/-- The worker has not become a listener. -/
def NeverListened : Prop := ∀ event ∈ t, event.listens = false

def Streamed : Prop := Faultless t → delivered t <+: payloads t

/-- Exactly so many bytes were dequeued and the core was given them all:
it took them, if it reported no error, and otherwise it took or refused
each of them. -/
def HandedOver (position : Nat) : Prop :=
  (Faultless t → (payloads t).length = position ∧ delivered t = payloads t) ∧
  (NeverListened t → (payloads t).length = position ∧ offered t = payloads t)

/-- An answer to a request that seals the sender waits for the hand-over. -/
def Waits (event : WorkerEvent) : Prop :=
  ∀ request position, event = .answered request → request.sealedAt = some position →
    HandedOver t position

/-- What may happen next. -/
def Orderly (event : WorkerEvent) : Prop := Streamed (t ++ [event]) ∧ Waits t event

/-! ## Growing histories -/

section
variable {t : List WorkerEvent} {event : WorkerEvent}

@[simp] theorem payloads_push : payloads (t ++ [event]) = payloads t ++ event.payload := by
  simp [payloads]

@[simp] theorem offered_push : offered (t ++ [event]) = offered t ++ event.offer := by
  simp [offered]

theorem forall_push {p : WorkerEvent → Prop} :
    (∀ e ∈ t ++ [event], p e) ↔ (∀ e ∈ t, p e) ∧ p event := by
  simp [or_imp, forall_and]

@[simp] theorem faultless_push : Faultless (t ++ [event]) ↔ Faultless t ∧ event.refused = false :=
  forall_push

@[simp] theorem unmixed_push : Unmixed (t ++ [event]) ↔ Unmixed t ∧ event.controlSend = false :=
  forall_push

@[simp] theorem neverListened_push :
    NeverListened (t ++ [event]) ↔ NeverListened t ∧ event.listens = false :=
  forall_push

theorem WorkerEvent.offer_of_not_refused (h : event.refused = false) :
    event.offer = event.taken := by
  cases event with
  | sent bytes answer =>
    cases answer with
    | ok => rfl
    | error e =>
      have he : e = .wouldBlock := by simpa [refused] using h
      simp [offer, taken, he]
  | _ => rfl

theorem Faultless.offered_eq (h : Faultless t) : offered t = delivered t :=
  flatMap_congr fun event hev => offer_of_not_refused (h event hev)

/-- One more event: what it offers leaves the staging, what it dequeues enters it. -/
theorem justified_push {staged : Bytes} (rest : Bytes) (h : Justified Orderly t)
    (hstream : offered t ++ staged = payloads t)
    (hpush : event.offer ++ rest = staged ++ event.payload)
    (hans : Waits t event) :
    Justified Orderly (t ++ [event]) ∧
      offered (t ++ [event]) ++ rest = payloads (t ++ [event]) := by
  have hnext : offered (t ++ [event]) ++ rest = payloads (t ++ [event]) := by
    rw [offered_push, payloads_push, append_assoc, hpush, ← append_assoc, hstream]
  refine ⟨justified_append.mpr ⟨h, justifiedAfter_singleton.mpr ⟨fun hf => ?_, hans⟩⟩, hnext⟩
  exact hf.offered_eq ▸ ⟨rest, hnext⟩

end

/-! ## What an endpoint keeps -/

/-- The pending request is kept as it was decoded. -/
def TaskControl.Faithful : TaskControl → Prop
  | .running => True
  | .close m => m.op = opClose ∧ m.data.length = 8
  | .shutdown m how position => m.op = opShutdown ∧ m.data.length = 12 ∧
    shutdownHow (Bytes.toNatLE (m.data.take 4)) = .ok how ∧
    position = Bytes.toNatLE (m.data.drop 4)

/-- The pending request seals the sender where the endpoint reads it. -/
theorem TaskControl.Faithful.sealedAt {control : TaskControl} (h : control.Faithful)
    {request : Message} (hreq : control = .close request ∨
      ∃ how position, control = .shutdown request how position) :
    request.sealedAt = control.txSeal := by
  rcases hreq with rfl | ⟨how, position, rfl⟩
  · simp [Message.sealedAt, txSeal, h.1, h.2]
  · obtain ⟨hop, hlen, hhow, rfl⟩ := h
    cases how <;> simp [Message.sealedAt, txSeal, hop, hlen, hhow, opShutdown, opClose]

/-- What holds of an endpoint and its history at every place: what was
offered and what is staged is what was dequeued. -/
structure Loaded (e : Endpoint) (t : List WorkerEvent) : Prop where
  orderly : Justified Orderly t
  stream : offered t ++ e.send.staged = payloads t
  control : e.control.Faithful
  listened : NeverListened t → e.socket = .tcp
  notUdp : e.socket ≠ .udp
  position : e.socket = .tcp → e.dequeued = (payloads t).length

/-- What holds after frames were fetched. A listener counts frames, but
these are then staged. -/
structure Fetched (e : Endpoint) (t : List WorkerEvent) : Prop extends Loaded e t where
  counted : Faultless t → e.send.pending = [] → e.dequeued = (payloads t).length

/-- What holds between turns. -/
structure Carried (e : Endpoint) (t : List WorkerEvent) : Prop extends Loaded e t where
  counted : Faultless t → e.dequeued = (payloads t).length

variable {event : WorkerEvent}

section
variable {e e' : Endpoint} {t : List WorkerEvent} {m : Message}

theorem Carried.fetched (h : Carried e t) : Fetched e t :=
  ⟨h.toLoaded, fun hfaultless _ => h.counted hfaultless⟩

theorem Carried.congr (h : Carried e t) (hsock : e'.socket = e.socket) (hsend : e'.send = e.send)
    (hdeq : e'.dequeued = e.dequeued) (hctrl : e'.control.Faithful) : Carried e' t where
  orderly := h.orderly
  stream := hsend ▸ h.stream
  control := hctrl
  listened := hsock ▸ h.listened
  notUdp := hsock ▸ h.notUdp
  position := by rw [hsock, hdeq]; exact h.position
  counted := by rw [hdeq]; exact h.counted

theorem Loaded.push (h : Loaded e t)
    (hstream : event.offer ++ e'.send.staged = e.send.staged ++ event.payload)
    (hctrl : e'.control = e.control)
    (hsock : e'.socket = if event.listens then .listener else e.socket)
    (hpos : e.socket = .tcp → e'.dequeued = e.dequeued + event.payload.length)
    (hans : Waits t event) : Loaded e' (t ++ [event]) where
  orderly := (justified_push _ h.orderly h.stream hstream hans).1
  stream := (justified_push _ h.orderly h.stream hstream hans).2
  control := hctrl ▸ h.control
  listened hnever := by
    obtain ⟨hbefore, hev⟩ := neverListened_push.mp hnever
    simpa [hsock, hev] using h.listened hbefore
  notUdp := by
    rw [hsock]
    split
    · simp
    · exact h.notUdp
  position htcp := by
    rw [hsock] at htcp
    split at htcp
    · cases htcp
    · rw [hpos htcp, h.position htcp, payloads_push, length_append]

theorem Carried.push (h : Carried e t) (event : WorkerEvent) (hpay : event.payload = [])
    (hoff : event.offer = []) (hans : Waits t event) :
    Carried { e with socket := if event.listens then .listener else e.socket } (t ++ [event]) where
  toLoaded := h.toLoaded.push (by simp [hpay, hoff]) rfl rfl (by simp [hpay]) hans
  counted hfaultless := by
    simpa [hpay] using h.counted (faultless_push.mp hfaultless).1

/-- Bytes go from what is staged to what was offered. A listener refuses
what it is given, so its count is not looked at again. -/
theorem Fetched.send {send : SendTask} (h : Fetched e t)
    (hoff : event.offer ++ send.staged = e.send.staged) (hpay : event.payload = [])
    (hlisten : event.listens = false) (hans : ∀ request, event ≠ .answered request)
    (href : event.refused = false → e.socket = .tcp) : Carried { e with send } (t ++ [event]) where
  toLoaded := h.toLoaded.push (by rw [hoff, hpay, append_nil]) rfl (by simp [hlisten])
    (by simp [hpay]) fun request _ heq => absurd heq (hans request)
  counted hfaultless := by
    rw [payloads_push, hpay, append_nil]
    exact h.position (href (faultless_push.mp hfaultless).2)

theorem SendTask.admitMessage_ok {task task' : SendTask} (h : task.admitMessage m = .ok task') :
    ∃ peer, task' = ⟨task.pending ++ [⟨m, peer, 24⟩]⟩ := by
  unfold admitMessage at h
  split at h
  · cases h
  split at h
  · next peer _ =>
    cases h
    exact ⟨peer, rfl⟩
  · cases h

theorem Endpoint.stage_ok (h : e.stage m = .ok e') :
    ∃ peer, e' = { e with
      dequeued := e.dequeued + e.step m
      send := ⟨e.send.pending ++ [⟨m, peer, 24⟩]⟩ } := by
  simp only [stage] at h
  split at h
  · cases h
  split at h
  · cases h
  split at h
  · cases h
  split at h
  · next send hsend =>
    obtain ⟨peer, rfl⟩ := admitMessage_ok hsend
    cases h
    exact ⟨peer, rfl⟩
  · cases h

theorem Fetched.stage (h : Fetched e t) (hstage : e.stage m = .ok e') :
    Fetched e' (t ++ [.dequeued m]) := by
  obtain ⟨peer, rfl⟩ := stage_ok hstage
  refine ⟨h.toLoaded.push ?_ rfl rfl (fun htcp => ?_) (fun _ _ heq => by cases heq), ?_⟩
  · simp [staged, PendingSend.remaining, offer, taken, payload]
  · simp [step, htcp, payload]
  · intro _ hpend
    simp at hpend

end

/-! ## Operations that leave the record alone -/

section
variable {ω α β : Type}

/-- Neither the endpoint nor the history changes. -/
def SameRecord (s s' : WorkerState ω) : Prop := s'.data = s.data ∧ s'.seen = s.seen

instance : IsPreorder (WorkerState ω) SameRecord where
  refl _ := ⟨rfl, rfl⟩
  trans _ _ _ h h' := ⟨h'.1.trans h.1, h'.2.trans h.2⟩

theorem ask_same (f : ω → α × ω) : Within SameRecord (ask f) := fun _ => ⟨rfl, rfl⟩

theorem tryCore_same {f : ω → Answer α × ω} {next : α → WorkerM ω (Answer β)}
    (h : ∀ a, Within SameRecord (next a)) :
    Within SameRecord (tryCore f next) := by
  refine .bind (ask_same f) fun answer => ?_
  cases answer with
  | ok a => exact h a
  | error => exact .pure _

variable (H : Host ω)

theorem tryWrite_same (m : Message) : Within SameRecord (tryWrite H m) :=
  .bind (ask_same _) fun _ => .ofExcept _

theorem writeMessage_same (m : Message) : Within SameRecord (writeMessage H m) :=
  .bind (tryWrite_same H m) fun _ => .ite (.pure _) (.fail _)

theorem localName_same : Within SameRecord (localName H) := tryCore_same fun _ => .pure _

variable (socket : Socket)

theorem Socket.shutdown_same (how : TcpShutdown) : Within SameRecord (socket.shutdown H how) := by
  cases socket with
  | listener => exact .pure _
  | tcp => exact ask_same _
  | udp => exact ask_same _

theorem Socket.receive_same : Within SameRecord (socket.receive H) := by
  cases socket with
  | tcp =>
    refine tryCore_same fun ⟨readable, _, eof⟩ => .ite ?_ (.ite (.pure _) (.pure _))
    exact tryCore_same fun _ => .pure _
  | udp =>
    refine tryCore_same fun packet => ?_
    cases packet with
    | some => exact .ite (.pure _) (.pure _)
    | none => exact .pure _
  | listener => exact .pure _

theorem ReceiveTask.poll_same (task : ReceiveTask) : Within SameRecord (task.poll H socket) := by
  unfold ReceiveTask.poll
  split
  · exact .bind (tryWrite_same H _) fun _ => .ite (.pure _) (.pure _)
  · refine .ite (.pure _) (.bind (socket.receive_same H) fun received => ?_)
    match received with
    | .ok (.record record) => exact .bind (tryWrite_same H _) fun _ => .ite (.pure _) (.pure _)
    | .ok .eof => exact .bind (writeMessage_same H _) fun _ => .pure _
    | .ok .oversized => exact .bind (writeMessage_same H _) fun _ => .pure _
    | .error e => exact .ite (.pure _) (.bind (writeMessage_same H _) fun _ => .pure _)

theorem Endpoint.bind_same (e : Endpoint) (m : Message) : Within SameRecord (e.bind H m) := by
  unfold bind
  split
  · exact .pure _
  · exact .pure _
  · exact tryCore_same fun _ => localName_same H

theorem Endpoint.activate_same (e : Endpoint) : Within SameRecord (e.activate H) := by
  unfold activate
  split
  · exact tryCore_same fun _ => .ite (tryCore_same fun _ => localName_same H) (localName_same H)
  · exact .pure _

/-! ## Rules for the record -/

/-- What may be said when a worker is gone. -/
def Ended (s : WorkerState ω) : Prop := Unmixed s.seen → Justified Orderly s.seen

/-- Of the endpoint kept, `D`; of the history, unless a send came over the
control channel, `I`. -/
def Holding (D : Option Endpoint → Prop) (I : List WorkerEvent → Prop) (s : WorkerState ω) : Prop :=
  D s.data ∧ (Unmixed s.seen → I s.seen)

variable {D : Option Endpoint → Prop} {I J : List WorkerEvent → Prop} {x : WorkerM ω α}
  {s : WorkerState ω}

/-- From `P` the worker comes to `Q`, or fails and its history is justified. -/
abbrev Upholds (P : WorkerState ω → Prop) (x : WorkerM ω α) (Q : α → WorkerState ω → Prop) : Prop :=
  Triple P x Q fun _ => Ended

/-- It comes from `I` of the history to `J`. -/
abbrev Records (D : Option Endpoint → Prop) (I : List WorkerEvent → Prop) (x : WorkerM ω α)
    (J : α → List WorkerEvent → Prop) : Prop :=
  Upholds (Holding D I) x fun a => Holding D (J a)

theorem Holding.imp (h : Holding D I s) (hIJ : ∀ t, I t → J t) : Holding D J s :=
  ⟨h.1, fun hunmix => hIJ _ (h.2 hunmix)⟩

theorem pure_holding {a : α} {J : α → List WorkerEvent → Prop} (h : ∀ t, I t → J a t) :
    Records D I (pure a : WorkerM ω α) J :=
  .pure fun _ hs => hs.imp h

theorem Holding.pre {Q : α → WorkerState ω → Prop} (hx : Upholds (Holding D J) x Q)
    (h : ∀ t, I t → J t) : Upholds (Holding D I) x Q :=
  hx.weaken_pre fun _ hs => hs.imp h

theorem same_holding (hx : Within SameRecord x) (hI : ∀ t, I t → Justified Orderly t) :
    Records D I x fun _ => I := by
  have hkeeps : ∀ s s' : WorkerState ω, SameRecord s s' → Holding D I s → Holding D I s' := by
    rintro s s' ⟨hdata, hseen⟩ hs
    rw [Holding, hdata, hseen]
    exact hs
  exact (Triple.of_within hx hkeeps).weaken_error fun _ _ hs hunmix => hI _ (hs.2 hunmix)

theorem note_holding (h : ∀ t, I t → event.controlSend = false → J (t ++ [event])) :
    Records D I (note (ω := ω) event) fun _ => J := by
  refine .modify fun s hs => ⟨hs.1, fun hunmix => ?_⟩
  obtain ⟨hbefore, hev⟩ := unmixed_push.mp hunmix
  exact h s.seen (hs.2 hbefore) hev

variable {e : Endpoint}

theorem Holding.ended (h : Holding D (Carried e) s) : Ended s :=
  fun hunmix => (h.2 hunmix).orderly

theorem same_carried (hx : Within SameRecord x) : Records D (Carried e) x fun _ => Carried e :=
  same_holding hx fun _ h => h.orderly

theorem same_fetched (hx : Within SameRecord x) : Records D (Fetched e) x fun _ => Fetched e :=
  same_holding hx fun _ h => h.orderly

theorem reply_holding (m : Message) (result : Answer Bytes) :
    Records D (fun t => Carried e t ∧ ∀ position, m.sealedAt = some position →
      HandedOver t position) (reply H m result) fun _ => Carried e := by
  refine .ite (fun _ => pure_holding fun _ h => h.1) fun _ => ?_
  refine .bind (R := fun _ => Holding D (Carried e)) (note_holding fun t h _ => ?_) fun _ => ?_
  · refine h.1.push (.answered m) rfl rfl fun request position heq => ?_
    cases heq
    exact h.2 position
  · cases result with
    | ok => exact same_carried (writeMessage_same H _)
    | error => exact same_carried (writeMessage_same H _)

/-! ## The turn of the data -/

theorem readData_holding : Records D (Fetched e) (readData H) (fun
      | none => Fetched e
      | some m => fun t => Justified Orderly t ∧ ∀ e', e.stage m = .ok e' → Fetched e' t) := by
  refine .bind (same_fetched (ask_same _)) fun answer => ?_
  refine .ofExcept_bind (fun read _ => ?_) fun _ s hs hunmix => (hs.2 hunmix).orderly
  cases read with
  | none => exact .pure fun _ h => h
  | some m =>
    refine .bind (note_holding fun t h _ => ?_) fun _ => .pure fun _ h => h
    refine ⟨(justified_push (e.send.staged ++ m.data.drop 24) h.orderly h.stream rfl ?_).1,
      fun _ => h.stage⟩
    exact fun _ _ heq => by cases heq

theorem Endpoint.fetch_holding (limit : Nat) (e : Endpoint) (progress : Bool) :
    Records D (Fetched e) (e.fetch H limit progress) (fun
        | none => Justified Orderly
        | some (e', _) => Fetched e') := by
  induction limit generalizing e progress with
  | zero => exact .pure fun _ h => h
  | succ limit ih =>
    refine .ite (fun _ => .pure fun _ h => h) fun _ => .bind (readData_holding H) fun read => ?_
    cases read with
    | none => exact .pure fun _ h => h
    | some m =>
      refine .ite (fun _ => pure_holding fun _ h => h.1) fun _ =>
        .ite (fun _ => .fail fun s hs hunmix => (hs.2 hunmix).1) fun _ => ?_
      refine .ofExcept_bind (fun next hstage => ?_) fun _ s hs hunmix => (hs.2 hunmix).1
      exact Holding.pre (ih next true) fun t h => h.2 next hstage

theorem Socket.send_holding {peer : Option Address} {bytes : Bytes}
    {J : Answer Nat → List WorkerEvent → Prop}
    (hJ : ∀ answer t, Fetched e t → (socket = .listener → answer = .error .invalidState) →
      J answer (t ++ [.sent bytes answer])) :
    Records D (Fetched e) (socket.send H peer bytes) J := by
  have hnoted (answer : Answer Nat)
      (hans : socket = .listener → answer = .error .invalidState) :
      Records D (Fetched e) (do note (.sent bytes answer); pure answer : WorkerM ω _) J :=
    .bind (note_holding fun t h _ => hJ answer t h hans) fun _ => .pure fun _ h => h
  cases socket with
  | listener => exact hnoted (.error .invalidState) fun _ => rfl
  | tcp | udp =>
    refine .bind (same_fetched (tryCore_same fun _ => .pure _)) fun answer => hnoted answer ?_
    intro h
    cases h

/-- Whatever the socket answers, the bytes it took or refused leave the
staging. -/
theorem Endpoint.poll_holding (e : Endpoint) :
    Records D (Fetched e) (e.send.poll H e.socket) fun r => Carried { e with send := r.1 } := by
  unfold SendTask.poll
  split
  · next hpend =>
    exact pure_holding fun t h => ⟨h.toLoaded, fun hfaultless => h.counted hfaultless hpend⟩
  · next write rest hpend =>
    have hstaged : e.send.staged = write.remaining ++ (SendTask.mk rest).staged := by
      simp [SendTask.staged, hpend]
    -- The answer decides what stays staged; the equation of the stream is the same each time.
    refine .bind (R := fun answer => Holding D fun t => ∀ send : SendTask,
      (sent write.remaining answer).offer ++ send.staged = e.send.staged →
        Carried { e with send } t)
      (Socket.send_holding H e.socket fun answer t h hlist send hoff => ?_) fun answer => ?_
    · refine h.send hoff rfl rfl (fun _ heq => by cases heq) fun href => ?_
      cases hsock : e.socket with
      | tcp => rfl
      | udp => exact absurd hsock h.notUdp
      | listener =>
        rw [hlist hsock] at href
        cases href
    split
    · exact pure_holding fun t h => h _ (by simp [offer])
    · next error hne =>
      have hoff : (sent write.remaining (.error error)).offer = write.remaining := if_neg hne
      refine .bind (Holding.pre (same_carried (writeMessage_same H _)) fun t h =>
        h ⟨rest⟩ (by rw [hoff, hstaged])) fun _ => .pure fun _ h => h
    · next n =>
      refine .ite (fun hz => ?_) fun _ => .ite (fun hall => ?_) fun _ => ?_
      · exact pure_holding fun t h => h _ (by simp [offer, taken, hz.1])
      · have hlen : write.remaining.length ≤ n := by
          simp [PendingSend.remaining, ← hall]
        exact pure_holding fun t h => h _ (by simp [offer, taken, hstaged, take_of_length_le hlen])
      · refine pure_holding fun t h => h _ ?_
        have hnx : (SendTask.mk ({ write with offset := write.offset + n } :: rest)).staged =
            write.remaining.drop n ++ (SendTask.mk rest).staged := by
          simp [SendTask.staged, PendingSend.remaining]
        rw [hnx, hstaged, ← append_assoc]
        show write.remaining.take n ++ write.remaining.drop n ++ _ = _
        rw [take_append_drop]

theorem Endpoint.finish_holding (e : Endpoint) (htcp : e.socket = .tcp) :
    Records D (Fetched e) (e.send.finish H e.socket) fun send => Carried { e with send } := by
  refine .bind (same_fetched (ask_same _)) fun reserved => .ite (fun _ => ?_) fun _ =>
    .fail fun s hs hunmix => (hs.2 hunmix).orderly
  have hfinish : Records D (Fetched e) (e.socket.finish H e.send.staged) (fun
      | .ok _ => Carried { e with send := ⟨[]⟩ }
      | .error _ => Justified Orderly) := by
    rw [show e.socket.finish H = Socket.finish H .tcp by rw [htcp]]
    refine .bind (same_fetched (ask_same _)) fun answer =>
      .bind (note_holding fun t h _ => ?_) fun _ => .pure fun _ h => h
    cases answer with
    | ok =>
      refine h.send ?_ rfl rfl (fun _ heq => by cases heq) fun _ => htcp
      simp [offer, taken, staged]
    | error =>
      exact (justified_push e.send.staged h.orderly h.stream
        (by simp [offer, taken, payload]) fun _ _ heq => by cases heq).1
  refine .bind hfinish fun answer => ?_
  cases answer with
  | ok => exact .pure fun _ h => h
  | error => exact .fail fun s hs hunmix => hs.2 hunmix

theorem Endpoint.transmit_holding (e : Endpoint) :
    Records D (Fetched e) (e.transmit H) fun r => Carried r.1 := by
  refine .ite (fun hfinish => ?_) fun _ => .ite (fun _ => ?_) fun hwait => ?_
  · exact .bind (e.finish_holding H hfinish.2.1) fun _ => .pure fun _ h => h
  · exact .bind (e.poll_holding H) fun _ => .pure fun _ h => h
  · -- The seal is not reached yet: nothing is sent.
    have htcp : e.socket = .tcp := by
      by_contra hne
      exact hwait (.inr hne)
    exact pure_holding fun t h => ⟨h.toLoaded, fun _ => h.position htcp⟩

theorem Endpoint.handedOver_of_due {t : List WorkerEvent} {request : Message}
    (h : Carried e t) (hdue : e.due = true) (hreq : e.control = .close request ∨
      ∃ how position, e.control = .shutdown request how position) :
    ∀ position, request.sealedAt = some position → HandedOver t position := by
  intro position hseal
  rw [h.control.sealedAt hreq] at hseal
  simp only [due, Bool.or_eq_true, Bool.and_eq_true, List.isEmpty_iff] at hdue
  rcases hdue with ⟨hpend, hpos⟩ | hrecv
  · have heq : e.dequeued = position := by simpa [hseal] using hpos
    have hstream : offered t = payloads t := by
      simpa [staged, hpend] using h.stream
    constructor
    · intro hfaultless
      exact ⟨heq ▸ (h.counted hfaultless).symm, hfaultless.offered_eq ▸ hstream⟩
    · intro hnever
      exact ⟨heq ▸ (h.position (h.listened hnever)).symm, hstream⟩
  · split at hrecv
    · next hctrl => simp [hctrl, TaskControl.txSeal] at hseal
    · cases hrecv

theorem Endpoint.complete_holding (e : Endpoint) (hdue : e.due = true) :
    Records (fun _ => True) (Carried e) (e.complete H) (fun
        | none => Justified Orderly
        | some (e', _) => Carried e') := by
  unfold complete
  split
  · exact .pure fun _ h => h
  · next request how position hctrl =>
    refine .bind (same_carried (Socket.shutdown_same H e.socket how)) fun result => ?_
    refine .bind (Holding.pre (reply_holding H request _) fun t h =>
      ⟨h, handedOver_of_due h hdue (.inr ⟨how, position, hctrl⟩)⟩) fun _ => ?_
    exact pure_holding fun t h => h.congr rfl rfl rfl trivial
  · next request hctrl =>
    refine .bind (.modify (Q := fun _ => Holding (fun _ => True) (Carried e)) fun s hs => hs)
      fun _ => ?_
    refine .bind (Holding.pre (reply_holding H request _) fun t h =>
      ⟨h, handedOver_of_due h hdue (.inl hctrl)⟩) fun _ => ?_
    exact pure_holding fun t h => h.orderly

theorem Endpoint.reportConnection_holding (e : Endpoint) :
    Records D (Carried e) (e.reportConnection H) fun r => Carried r.1 := by
  refine .bind (same_carried (ask_same _)) fun answer =>
    .ofExcept_bind (fun connection _ => ?_) fun _ _ hs => hs.ended
  split
  · refine .ofExcept_bind (fun message _ => ?_) fun _ _ hs => hs.ended
    refine .bind (same_carried (writeMessage_same H message)) fun _ => ?_
    refine .bind (same_carried (ask_same _)) fun taken =>
      .ofExcept_bind (fun _ _ => ?_) fun _ _ hs => hs.ended
    exact pure_holding fun t h => h.congr rfl rfl rfl h.control
  · exact .pure fun _ h => h

theorem Endpoint.observe_holding (e : Endpoint) :
    Records D (Carried e) (e.observe H) fun r => Carried r.1 := by
  unfold observe
  split
  · refine .bind (e.reportConnection_holding H) fun reported => ?_
    refine .bind (same_carried (ask_same _)) fun taken =>
      .ofExcept_bind (fun _ _ => .pure fun _ h => h) fun _ _ hs => hs.ended
  · exact .pure fun _ h => h

theorem Endpoint.reportState_holding (e : Endpoint) :
    Records D (Carried e) (e.reportState H) fun r => Carried r.1 := by
  refine .bind (e.observe_holding H) fun observed => ?_
  refine .ite (fun _ => .pure fun _ h => h) fun _ => .ite (fun _ => ?_) fun _ => ?_
  · refine .bind (same_carried (writeMessage_same H _)) fun _ => ?_
    exact pure_holding fun t h => h.congr rfl rfl rfl h.control
  · exact pure_holding fun t h => h.congr rfl rfl rfl h.control

/-- Some endpoint is kept that carries the stream. -/
def Serving (s : WorkerState ω) : Prop := ∃ e, Holding (· = some e) (Carried e) s

/-- What holds after a turn: a worker that goes on carries its stream. -/
def Turned (work : Work) (s : WorkerState ω) : Prop := Ended s ∧ (work ≠ .closed → Serving s)

theorem keep_holding {D : Option Endpoint → Prop} (e : Endpoint) :
    Upholds (Holding D I) (keep e) (fun _ => Holding (ω := ω) (· = some e) I) :=
  .modify fun _ hs => ⟨rfl, hs.2⟩

theorem Endpoint.pollReceive_turned (e : Endpoint) (progress : Bool) :
    Upholds (Holding (fun _ => True) (Carried e)) (e.pollReceive H progress) Turned := by
  have hrecv : Within SameRecord (e.receiveTurn H) :=
    .ite (.pure _) (ReceiveTask.poll_same H e.socket e.receive)
  refine .bind (same_carried hrecv) fun received => ?_
  refine .bind (Holding.pre (reportState_holding H _) fun t h =>
    h.congr rfl rfl rfl h.control) fun reported => ?_
  refine .bind (keep_holding reported.1) fun _ => .pure fun s hs => ?_
  exact ⟨hs.ended, fun _ => ⟨reported.1, hs⟩⟩

theorem Endpoint.pollData_turned (e : Endpoint) :
    Upholds (Holding (fun _ => True) (Carried e)) (e.pollData H) Turned := by
  have hcl {s : WorkerState ω} (h : Holding (fun _ => True) (Justified Orderly) s) :
      Turned .closed s :=
    ⟨h.2, fun hne => (hne rfl).elim⟩
  refine .ite (fun _ => .fail fun s hs => hs.ended) fun _ => ?_
  refine .bind (Holding.pre (fetch_holding H _ e false) fun t h => h.fetched) fun fetched => ?_
  cases fetched with
  | none => exact .pure fun s hs => hcl hs
  | some fetched =>
    refine .bind (transmit_holding H fetched.1) fun sent => .ite (fun hdue => ?_) fun _ => ?_
    · refine .bind (complete_holding H sent.1 hdue) fun completed => ?_
      cases completed with
      | none => exact .pure fun s hs => hcl hs
      | some completed => exact pollReceive_turned H completed.1 _
    · exact pollReceive_turned H sent.1 _

/-! ## The turn of the requests -/

/-- What a request other than a shutdown or a close does to the endpoint. -/
theorem Endpoint.command_serving (e : Endpoint) (m : Message) :
    Upholds (Holding (· = some e) (Carried e)) (e.command H m) (fun _ => Serving) := by
  have hserv {x : WorkerM ω (Answer Bytes)} {e' : Endpoint} (hx : Within SameRecord x) :
      Upholds (Holding (· = some e') (Carried e')) x (fun _ => Serving) :=
    (same_carried hx).weaken_post fun _ _ hs => ⟨e', hs⟩
  refine .ite (fun _ => hserv (e.bind_same H m)) fun _ => .ite (fun _ => ?_) fun _ =>
    .ite (fun _ => ?_) fun _ => .ite (fun _ => hserv (e.activate_same H)) fun _ =>
      hserv (.pure _)
  · unfold listen
    split
    · exact hserv (.pure _)
    · refine .bind (same_carried (ask_same _)) fun answer => ?_
      cases answer with
      | error => exact hserv (.pure _)
      | ok =>
        exact .bind (keep_holding { e with socket := .listener }) fun _ =>
          .bind (note_holding fun t h _ => h.push .listened rfl rfl fun _ _ heq => by cases heq)
            fun _ => hserv (localName_same H)
    · exact hserv (.pure _)
  · unfold connect
    split
    · exact hserv (.pure _)
    · refine .bind (same_carried (ask_same _)) fun answer => ?_
      cases answer with
      | error => exact hserv (.pure _)
      | ok =>
        exact .bind (keep_holding _) fun _ => Holding.pre (hserv (tryCore_same fun _ => .pure _))
          fun t h => h.congr rfl rfl rfl h.control
    · exact hserv (tryCore_same fun _ => tryCore_same fun _ => .pure _)
    · exact hserv (.pure _)

theorem Message.sealedAt_eq_none {m : Message} (hclose : m.op ≠ opClose)
    (hshut : m.op ≠ opShutdown) : m.sealedAt = none := by
  simp [Message.sealedAt, hclose, hshut]

theorem reply_serving {m : Message} (hseal : m.sealedAt = none) (result : Answer Bytes) :
    Upholds Serving (reply H m result) (fun _ => Serving) := by
  refine .exists_pre fun e => (Holding.pre (reply_holding H m result) fun t h =>
    ⟨h, fun position heq => ?_⟩).weaken_post fun _ _ hs => ⟨e, hs⟩
  rw [hseal] at heq
  cases heq

/-- What holds after a request. -/
def Handled (flow : Flow) (s : WorkerState ω) : Prop := Ended s ∧ (flow ≠ .closed → Serving s)

theorem Serving.handled (h : Serving s) (flow : Flow) : Handled flow s :=
  ⟨h.elim fun _ hs => hs.ended, fun _ => h⟩

theorem Endpoint.handle_handled (e : Endpoint) (m : Message) :
    Upholds (Holding (· = some e) fun t => m.op ≠ opSend ∧ Carried e t) (e.handle H m) Handled := by
  have hended : ∀ s : WorkerState ω,
      Holding (· = some e) (fun t => m.op ≠ opSend ∧ Carried e t) s → Ended s :=
    fun s hs hunmix => (hs.2 hunmix).2.orderly
  -- Whatever is put in the place of the endpoint, if it carries the stream as this one does.
  have hkeep (e' : Endpoint) (flow : Flow) (h : m.op ≠ opSend → ∀ t, Carried e t → Carried e' t) :
      Upholds (Holding (· = some e) fun t => m.op ≠ opSend ∧ Carried e t)
        (do keep e'; pure flow : WorkerM ω Flow) Handled := by
    refine .bind (Holding.pre (keep_holding e') fun t ht => h ht.1 t ht.2)
      fun _ => .pure fun s hs => Serving.handled ⟨e', hs⟩ flow
  have hreply (hseal : m.sealedAt = none) (result : Answer Bytes) :
      Upholds Serving (do reply H m result; pure .next : WorkerM ω Flow) Handled :=
    .bind (reply_serving H hseal result) fun _ => .pure fun s hs => hs.handled .next
  refine .ite (fun hsend => ?_) fun _ => .ite (fun hclose => ?_) fun hclose =>
    .ite (fun hshut => ?_) fun hshut => ?_
  · refine .ofExcept_bind (fun send _ => hkeep _ _ fun hne => ?_) fun _ => hended
    exact absurd hsend hne
  · refine .ite (fun _ => .fail hended) fun hlen => hkeep _ _ fun _ t h => ?_
    exact h.congr rfl rfl rfl ⟨hclose, not_not.mp hlen⟩
  · refine .ite (fun _ => .fail hended) fun hlen => ?_
    have hlen := not_not.mp hlen
    split
    · next how hhow =>
      refine hkeep _ _ fun _ t h => ?_
      exact h.congr rfl rfl rfl ⟨hshut, hlen, hhow, rfl⟩
    · next error hhow =>
      have hseal : m.sealedAt = none := by
        simp [Message.sealedAt, hclose, hlen, hhow]
      exact (hreply hseal _).weaken_pre fun s hs => ⟨e, hs.imp fun t h => h.2⟩
  · refine .bind (Holding.pre (e.command_serving H m) fun t h => h.2) fun result => ?_
    exact hreply (Message.sealedAt_eq_none hclose hshut) result

theorem handleRequest_handled (e : Endpoint) (m : Message) :
    Upholds (Holding (· = some e) fun t => m.op ≠ opSend ∧ Carried e t) (handleRequest H m)
      Handled := by
  have hserv : ∀ s : WorkerState ω,
      Holding (· = some e) (fun t => m.op ≠ opSend ∧ Carried e t) s → Serving s :=
    fun s hs => ⟨e, hs.imp fun t h => h.2⟩
  refine .look_eq (fun s hs => hs.1) ?_
  refine .ite (fun _ => .pure fun s hs => (hserv s hs).handled _) fun _ =>
    .ite (fun hopen => ?_) fun _ => .ite (fun _ => .pure fun s hs => (hserv s hs).handled _)
      fun _ => e.handle_handled H m
  have hopen_same : Within SameRecord (openSocket H (some e) m) := .pure _
  have hseal : m.sealedAt = none :=
    Message.sealedAt_eq_none (by simp [hopen, opOpen, opClose])
      (by simp [hopen, opOpen, opShutdown])
  refine .bind (Holding.pre (same_carried hopen_same) fun t h => h.2) fun result => ?_
  exact .bind ((reply_serving H hseal result).weaken_pre fun s hs => ⟨e, hs⟩) fun _ =>
    .pure fun s hs => hs.handled .next

theorem requestLoop_turned (limit : Nat) (progress : Bool) :
    Upholds Serving (requestLoop H limit progress) Turned := by
  have hturn {work : Work} : ∀ s : WorkerState ω, Serving s → Turned work s :=
    fun s hs => ⟨hs.elim fun _ h => h.ended, fun _ => hs⟩
  induction limit generalizing progress with
  | zero => exact .pure hturn
  | succ limit ih =>
    refine .exists_pre fun e => ?_
    have hread : Records (· = some e) (Carried e) (readControl H) (fun
          | none => Carried e
          | some m => fun t => m.op ≠ opSend ∧ Carried e t) := by
      refine .bind (same_carried (ask_same _)) fun answer =>
        .ofExcept_bind (fun read _ => ?_) fun _ s hs => hs.ended
      cases read with
      | none => exact .pure fun _ h => h
      | some m =>
        refine .bind (note_holding fun t h hctrl => ?_) fun _ => .pure fun _ h => h
        refine ⟨by simpa [controlSend] using hctrl, ?_⟩
        exact h.push (.control m) rfl rfl fun _ _ heq => by cases heq
    refine .bind hread fun read => ?_
    cases read with
    | none => exact .pure fun s hs => hturn s ⟨e, hs⟩
    | some m =>
      refine .bind (handleRequest_handled H e m) fun flow => ?_
      cases flow with
      | closed => exact .pure fun s hs => ⟨hs.1, fun hne => (hne rfl).elim⟩
      | stop => exact .pure fun s hs => hturn s (hs.2 (by simp))
      | next => exact (ih true).weaken_pre fun s hs => hs.2 (by simp)

/-! ## Whole runs -/

theorem Turn.take_turned (turn : Turn) : Upholds Serving (turn.take H) Turned := by
  cases turn with
  | requests => exact requestLoop_turned H 32 false
  | data =>
    refine .exists_pre fun e => .look_eq (fun s hs => hs.1) ?_
    exact (e.pollData_turned H).weaken_pre fun s hs => ⟨trivial, hs.2⟩

theorem Turn.run_ended (turns : List Turn) (s : WorkerState ω) (hs : Serving s) :
    Ended (Turn.run H turns s) := by
  induction turns generalizing s with
  | nil => exact hs.elim fun _ h => h.ended
  | cons turn rest ih =>
    obtain ⟨hok, herr⟩ := Turn.take_turned H turn s hs
    unfold Turn.run
    split
    · next h => exact (hok _ h).1
    · next work hwork h => exact ih _ ((hok work h).2 hwork)
    · next error h => exact herr error h

/-- Over any run of a worker with a TCP socket, whatever the kernel and
the core answer: the core takes the bytes of the frames in order, and a
request that seals the sender is answered after their hand-over. -/
theorem tx_stream_intact (host : ω) (turns : List Turn)
    (h : Unmixed (Turn.run H turns (.tcp host)).seen) :
    Justified Orderly (Turn.run H turns (.tcp host)).seen := by
  refine Turn.run_ended H turns (.tcp host) ⟨{ socket := .tcp }, rfl, fun _ => ?_⟩ h
  refine ⟨⟨trivial, rfl, trivial, fun _ => rfl, by simp, fun _ => rfl⟩, fun _ => rfl⟩

end

/-- What the kernel has for a worker. -/
structure Script where
  control : List Bytes
  data : List Bytes

def Script.pop : List Bytes → Except Errno Bytes
  | [] => .error .again
  | frame :: _ => .ok frame

/-- A kernel that follows a script, and a core with so much room for each
write. -/
def scripted (room : Nat) : Host Script where
  readControl w := (Script.pop w.control, { w with control := w.control.tail })
  readData w := (Script.pop w.data, { w with data := w.data.tail })
  write bytes w := (.ok bytes.length, w)
  reserve _ w := (true, w)
  tcp _ w := (.error .socketLimit, w)
  udp _ w := (.error .socketLimit, w)
  info w := (.error .unknownSocket, w)
  bind _ w := (.error .invalidState, w)
  listen _ w := (.error .invalidState, w)
  connect _ w := (.error .invalidState, w)
  shutdown _ w := (.ok (), w)
  tcpWrite _ w := (.ok room, w)
  tcpFinishWrite _ w := (.ok (), w)
  tcpReadiness w := (.ok (false, true, false), w)
  tcpRead _ w := (.error .wouldBlock, w)
  connection w := (.ok .idle, w)
  takeError w := (.ok none, w)
  udpSend _ _ w := (.error .invalidState, w)
  udpReceive w := (.ok none, w)

/-- Two frames, and a close sealed after them. -/
def exampleScript : Script where
  control := [Message.encode ⟨opClose, 1, 0, Bytes.ofNatLE 8 4⟩]
  data := [Message.encode ⟨opSend, 0, 0, replicate 24 0 ++ [10, 11, 12]⟩,
    Message.encode ⟨opSend, 0, 0, replicate 24 0 ++ [13]⟩]

/-- The core takes one byte of the first frame, then the close arrives. -/
def exampleRun : WorkerState Script :=
  Turn.run (scripted 1) [.data, .requests, .data] (.tcp exampleScript)

theorem tx_stream_intact_scripted :
    Unmixed exampleRun.seen ∧ delivered exampleRun.seen = [10, 11, 12, 13] ∧
      Justified Orderly exampleRun.seen := by
  have hunmix : Unmixed exampleRun.seen := by decide +kernel
  exact ⟨hunmix, by decide +kernel, tx_stream_intact (scripted 1) exampleScript _ hunmix⟩

end Drv.Net
