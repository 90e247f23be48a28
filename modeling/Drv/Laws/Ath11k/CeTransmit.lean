import Drv.Laws.Ath11k.Pipes
import Drv.Laws.Ath11k.Srng

/-!
# Slots of the source rings

The buffers that were accepted and not returned stand in the slots of the
ring in the order they were sent, from the place after the last one that
was reaped. The head is the place behind them, and the reap pointer one
entry before the first, so that the ring is full with one slot vacant.

The hardware's tail is a place between: it moves over published entries
only. Everything else is up to the answers.

That a buffer is ever returned is not shown.
-/

namespace Drv.Ath11k

open Eff (bind_apply)
open Function List Srng

namespace SourceSide

/-! ## One call -/

/-- Only the cached pointer of the device may differ. -/
def Unmoved (r r' : Srng) : Prop := ∃ pointer, r' = { r with cachedHardwarePointer := pointer }

/-- The slot that the next descriptor goes to. -/
def headSlot (p : SourceSide) : Nat := p.ring.head * 4 / p.ring.entrySize

/-- Descriptors are written at the head, and only when it is free. -/
def WritesHead (p : SourceSide) (calls : List CeCall) : Prop :=
  ∀ offset descriptor, CeCall.write offset descriptor ∈ calls →
    offset = p.ring.head * 4 ∧ p.ring.head ≠ p.ring.reapHead

/-- The head moves on, and its slot has the buffer. -/
structure Accepted (p : SourceSide) (buffer : CeTxBuffer) (p' : SourceSide) : Prop where
  free : p.ring.head ≠ p.ring.reapHead
  slots : p'.slots = p.slots.set p.headSlot (some buffer)
  ring : Unmoved { p.ring with head := p.ring.following p.ring.head } p'.ring

/-- What a failed `send` leaves. -/
structure Refused (p p' : SourceSide) : Prop where
  slots : p'.slots = p.slots
  ring : Unmoved p.ring p'.ring

variable {p : SourceSide} {buffer : CeTxBuffer}

theorem place_spec (buffer : CeTxBuffer) (answers : SendAnswers) (descriptor : CeSourceDescriptor)
    (offset slot : Nat) (q : SourceSide) :
    let o := place answers buffer descriptor offset slot q
    (∀ spot d, CeCall.write spot d ∈ o.calls → spot = offset) ∧
      (o.result = .ok () ∧ o.state = { q with slots := q.slots.set slot (some buffer) } ∨
        (∃ e, o.result = .error e) ∧ o.state.ring = q.ring ∧
          o.state.slots.set slot none = q.slots.set slot none) := by
  obtain ⟨address, pointer, written, sync, publication⟩ := answers
  cases written <;> cases sync <;> cases publication <;>
    simp [place, setSlot, accessEnd, bind_apply, Answered]

/-- A buffer is accepted, or everything is as before: what was placed in
the slot is taken back. -/
def Settles (p : SourceSide) (buffer : CeTxBuffer) (o : Outcome SourceSide CeCall CeError Unit) :
    Prop :=
  p.WritesHead o.calls ∧
    (o.result = .ok () ∧ p.Accepted buffer o.state ∨ (∃ e, o.result = .error e) ∧ p.Refused o.state)

theorem settles_of_error (p : SourceSide) (e : CeError) : p.Settles buffer ⟨.error e, p, []⟩ :=
  ⟨by simp [WritesHead], .inr ⟨⟨e, rfl⟩, rfl, _, rfl⟩⟩

theorem settle_free (hfree : p.ring.head ≠ p.ring.reapHead)
    (hvac : p.slots[p.headSlot]? = some none) (answers : SendAnswers)
    (descriptor : CeSourceDescriptor) (pointer : UInt32) :
    p.Settles buffer (settle answers buffer descriptor (p.ring.accessBegin pointer).checkpoint
      p.ring.entrySize (some (p.ring.head * 4))
      { p with ring := { p.ring.accessBegin pointer with
          head := p.ring.following p.ring.head } }) := by
  obtain ⟨hcs, ⟨hok, hst⟩ | ⟨⟨e, he⟩, hring, hsl⟩⟩ :=
    place_spec buffer answers descriptor (p.ring.head * 4) (p.ring.head * 4 / p.ring.entrySize)
      { p with ring := { p.ring.accessBegin pointer with head := p.ring.following p.ring.head } }
  · simp only [settle, bind_apply, Eff.attempt_apply, hok, Eff.pure_apply, append_nil, hst]
    exact ⟨fun o d hc => ⟨hcs o d hc, hfree⟩, .inl ⟨rfl, hfree, rfl, pointer.toNat, rfl⟩⟩
  · simp only [settle, bind_apply, Eff.attempt_apply, he, modifyRing, setSlot,
      Eff.modify_apply, Eff.fail_apply, append_nil]
    refine ⟨fun o d hc => ⟨hcs o d hc, hfree⟩, .inr ⟨⟨e, rfl⟩, ?_, pointer.toNat, ?_⟩⟩
    · exact hsl.trans (set_of_getElem? hvac)
    · rw [hring]
      rfl

theorem send_settles (hsrc : p.ring.direction = .source)
    (hvac : p.ring.head ≠ p.ring.reapHead → p.slots[p.headSlot]? = some none)
    (answers : SendAnswers) (transferId : UInt16) :
    p.Settles buffer (send answers buffer transferId p) := by
  cases haddr : answers.address with
  | false =>
    have hsend : send answers buffer transferId p = ⟨.error .deviceFault, p, []⟩ := by
      simp [send, haddr, bind_apply, Answered]
    exact hsend ▸ settles_of_error p _
  | true =>
    cases hptr : answers.pointer with
    | none =>
      have hsend : send answers buffer transferId p = ⟨.error .deviceFault, p, []⟩ := by
        simp [send, haddr, hptr, bind_apply, Answered, accessBeginRemote]
      exact hsend ▸ settles_of_error p _
    | some pointer =>
      have hsend : send answers buffer transferId p =
          settle answers buffer (p.descriptorFor buffer transferId)
            (p.ring.accessBegin pointer).checkpoint p.ring.entrySize
            (p.ring.accessBegin pointer).sourceNextReaped.1
            { p with ring := (p.ring.accessBegin pointer).sourceNextReaped.2 } := by
        simp [send, haddr, hptr, bind_apply, Answered, accessBeginRemote, modifyRing, cursorStep]
        rfl
      rw [hsend]
      by_cases hf : p.ring.head = p.ring.reapHead
      · have hstep : (p.ring.accessBegin pointer).sourceNextReaped =
            (none, p.ring.accessBegin pointer) := by
          simp [sourceNextReaped, accessBegin, hf]
        rw [hstep]
        cases h : answers.publication <;> refine ⟨?_, .inr ⟨?_, ?_, pointer.toNat, ?_⟩⟩ <;>
          simp [settle, accessEnd, h, bind_apply, Answered, WritesHead] <;> rfl
      · have hstep : (p.ring.accessBegin pointer).sourceNextReaped =
            (some (p.ring.head * 4), { p.ring.accessBegin pointer with
              head := p.ring.following p.ring.head }) := by
          simp [sourceNextReaped, accessBegin, hsrc, hf, following]
        rw [hstep]
        exact settle_free hf (hvac hf) answers _ pointer

theorem completedSendNext_eq (hsrc : p.ring.direction = .source) (pointer : UInt32) :
    completedSendNext (some pointer) p =
      if p.ring.following p.ring.reapHead = pointer.toNat then
        ⟨.ok none, { p with ring := p.ring.accessBegin pointer }, []⟩
      else
        ⟨.ok (p.slots[p.ring.following p.ring.reapHead * 4 / p.ring.entrySize]?).join,
          { p with
            ring := { p.ring.accessBegin pointer with reapHead := p.ring.following p.ring.reapHead }
            slots := p.slots.set (p.ring.following p.ring.reapHead * 4 / p.ring.entrySize) none },
          []⟩ := by
  have hstep : (p.ring.accessBegin pointer).sourceReapNext =
      if p.ring.following p.ring.reapHead = pointer.toNat then (none, p.ring.accessBegin pointer)
      else (some (p.ring.following p.ring.reapHead * 4), { p.ring.accessBegin pointer with
        reapHead := p.ring.following p.ring.reapHead }) := by
    simp only [sourceReapNext, accessBegin, hsrc, ne_eq, not_true_eq_false, if_false]
    rfl
  have hsz : (p.ring.accessBegin pointer).entrySize = p.ring.entrySize := rfl
  split
  next hnx =>
    rw [if_pos hnx] at hstep
    simp [completedSendNext, accessBeginRemote, modifyRing, cursorStep, hstep, bind_apply]
  next hnx =>
    rw [if_neg hnx] at hstep
    simp [completedSendNext, accessBeginRemote, modifyRing, cursorStep, setSlot, hstep, hsz,
      bind_apply]

/-! ## The buffers in flight -/

/-- The buffers that were accepted and not returned, from the place after
those that were. `passed` is the place that the hardware's tail is at. -/
structure InFlight (p : SourceSide) (returned passed : Nat) (queue : List CeTxBuffer) : Prop where
  sound : p.ring.Sound
  source : p.ring.direction = .source
  length : p.slots.length = p.ring.memory.entries.toNat
  holds : Holds p.slots returned queue
  room : queue.length < p.ring.memory.entries.toNat
  head : p.ring.head = p.ring.entry (returned + queue.length)
  reapHead : p.ring.following p.ring.reapHead = p.ring.entry returned
  passed : returned ≤ passed ∧ passed ≤ returned + queue.length

variable {returned passed : Nat} {queue : List CeTxBuffer}
section
variable (h : p.InFlight returned passed queue)
include h

theorem InFlight.headSlot : p.headSlot = (returned + queue.length) % p.slots.length := by
  rw [SourceSide.headSlot, h.head, h.sound.slot_entry, h.length]

theorem InFlight.vacant : p.slots[p.headSlot]? = some none := by
  rw [h.headSlot]
  exact h.holds.vacant (h.length ▸ h.room)

/-- The head reaches the reap pointer only with one slot left. -/
theorem InFlight.lt_of_free (hfree : p.ring.head ≠ p.ring.reapHead) :
    queue.length + 1 < p.ring.memory.entries.toNat := by
  by_contra hf
  have hroom := h.room
  have hend : returned + queue.length + 1 = returned + p.ring.memory.entries.toNat := by omega
  refine hfree (h.sound.head.following_inj h.sound.reapHead ?_)
  rw [h.reapHead, h.head, h.sound.following_entry, hend]
  exact h.sound.entry_eq_iff.mpr (Nat.add_mod_right ..)

theorem InFlight.refused {p' : SourceSide} (hr : p.Refused p') :
    p'.InFlight returned passed queue := by
  obtain ⟨hsl, pointer, hring⟩ := hr
  obtain ⟨ring, slots⟩ := p'
  obtain rfl : slots = p.slots := hsl
  obtain rfl : ring = _ := hring
  exact { h with sound := h.sound.repointed pointer }

theorem InFlight.accepted {p' : SourceSide} (ha : p.Accepted buffer p') :
    p'.InFlight returned passed (queue ++ [buffer]) := by
  obtain ⟨hfree, hsl, pointer, hring⟩ := ha
  obtain ⟨ring, slots⟩ := p'
  obtain rfl : slots = _ := hsl
  obtain rfl : ring = _ := hring
  have hroom := h.lt_of_free hfree
  have hsame : Same p.ring { p.ring with
      head := p.ring.following p.ring.head
      cachedHardwarePointer := pointer } := ⟨rfl, rfl, rfl, rfl⟩
  have hlen : (queue ++ [buffer]).length = queue.length + 1 := by simp
  exact { h with
    sound := h.sound.moved hsame (h.sound.following h.sound.head) h.sound.tail h.sound.reapHead
    length := by simpa using h.length
    holds := by
      rw [h.headSlot]
      exact h.holds.put (h.length ▸ h.room)
    room := by
      rw [hlen]
      exact hroom
    head := by
      rw [hsame.entry, hlen, ← Nat.add_assoc, ← h.sound.following_entry, ← h.head]
    passed := ⟨h.passed.1, h.passed.2.trans (by omega)⟩ }

/-- The pointer that the device shows. -/
def tailPointer (p : SourceSide) (passed : Nat) : UInt32 := UInt32.ofNat (p.ring.entry passed)

/-- Nothing is reaped where the tail is, and the next buffer before it. -/
theorem InFlight.completed :
    let o := completedSendNext (some (p.tailPointer passed)) p
    (passed = returned ∧ o.result = .ok none ∧ o.state.InFlight returned passed queue) ∨
      ∃ buffer rest, queue = buffer :: rest ∧ returned < passed ∧ o.result = .ok (some buffer) ∧
        o.state.InFlight (returned + 1) passed rest := by
  obtain ⟨hle, hpassed⟩ := h.passed
  rw [completedSendNext_eq h.source, tailPointer, h.sound.toNat_entry, h.reapHead]
  by_cases hl : p.ring.entry returned = p.ring.entry passed
  · have hroom := h.room
    have heq := h.sound.entry_inj hl hle (by omega)
    rw [if_pos hl]
    exact .inl ⟨heq.symm, rfl, h.refused ⟨rfl, _, rfl⟩⟩
  · have hlt : returned < passed := lt_of_le_of_ne hle fun heq => hl (heq ▸ rfl)
    cases queue with
    | nil => simp at hpassed; omega
    | cons buffer rest =>
      have hslot : p.ring.entry returned * 4 / p.ring.entrySize = returned % p.slots.length := by
        rw [h.sound.slot_entry, h.length]
      have hsame : Same p.ring { p.ring.accessBegin (UInt32.ofNat (p.ring.entry passed)) with
          reapHead := p.ring.entry returned } := ⟨rfl, rfl, rfl, rfl⟩
      have hcnt : returned + (buffer :: rest).length = returned + 1 + rest.length := by
        simp only [length_cons]
        omega
      have hroom := h.room
      rw [if_neg hl, hslot]
      refine .inr ⟨buffer, rest, rfl, hlt, ?_, ?_⟩
      · rw [h.holds.front]
        rfl
      · refine ⟨h.sound.moved hsame h.sound.head h.sound.tail (h.sound.entry_at _), h.source, ?_,
          h.holds.take, ?_, ?_, ?_, hlt, ?_⟩
        · rw [length_set]
          exact h.length
        · exact Nat.lt_of_succ_lt hroom
        · rw [hsame.entry, ← hcnt]
          exact h.head
        · exact h.sound.following_entry returned
        · rw [← hcnt]
          exact hpassed

end

end SourceSide

/-! ## Runs -/

/-- The pipes, and for each what happened on its source ring: how many
entries the hardware's tail has passed, the buffers that were accepted and
those that were returned. -/
structure TxWorld where
  pipes : List InitializedPipe
  passed : Nat → Nat
  accepted : Nat → List CeTxBuffer
  returned : Nat → List CeTxBuffer

/-- `read` is whether the device's pointer could be read; the pointer of
the answers is not used. The tail moves by as many of the `count` entries
as are published. -/
inductive TxOp where
  | send (pipe : Nat) (read : Bool) (answers : SendAnswers) (buffer : CeTxBuffer)
      (transferId : UInt16)
  | completedSendNext (pipe : Nat) (read : Bool)
  | advance (pipe count : Nat)

variable (w : TxWorld)

namespace TxWorld

def new (pipes : List InitializedPipe) : TxWorld := ⟨pipes, fun _ => 0, fun _ => [], fun _ => []⟩

def source (pipe : Nat) : Option SourceSide := w.pipes[pipe]?.bind (·.source)

/-- What reading the device's pointer answers. -/
def pointer (pipe : Nat) (read : Bool) : Option UInt32 :=
  if read then (w.source pipe).map (·.tailPointer (w.passed pipe)) else none

def send (pipe : Nat) (read : Bool) (answers : SendAnswers) (buffer : CeTxBuffer)
    (transferId : UInt16) : Outcome (List InitializedPipe) CeCall CeError Unit :=
  CePipes.send pipe { answers with pointer := w.pointer pipe read } buffer transferId w.pipes

def completedSendNext (pipe : Nat) (read : Bool) :
    Outcome (List InitializedPipe) CeCall CeError (Option CeTxBuffer) :=
  CePipes.completedSendNext pipe (w.pointer pipe read) w.pipes

def exec : TxOp → TxWorld
  | .send pipe read answers buffer transferId =>
    let o := w.send pipe read answers buffer transferId
    match o.result with
    | .ok () => { w with
        pipes := o.state
        accepted := update w.accepted pipe (w.accepted pipe ++ [buffer]) }
    | .error _ => { w with pipes := o.state }
  | .completedSendNext pipe read =>
    let o := w.completedSendNext pipe read
    match o.result with
    | .ok (some buffer) => { w with
        pipes := o.state
        returned := update w.returned pipe (w.returned pipe ++ [buffer]) }
    | _ => { w with pipes := o.state }
  | .advance pipe count => { w with
      passed := update w.passed pipe
        (min (w.passed pipe + count) (w.accepted pipe).length) }

def run (ops : List TxOp) : TxWorld := ops.foldl exec w

end TxWorld

variable {p : SourceSide}

namespace TxWorld

open SourceSide

/-- On every source ring, what was accepted is what was returned and then
what is in flight. -/
def Sound : Prop :=
  ∀ i p, w.source i = some p → ∃ queue, w.accepted i = w.returned i ++ queue ∧
    p.InFlight (w.returned i).length (w.passed i) queue

variable {w : TxWorld} {pipe : Nat}

theorem Sound.send_settles (h : w.Sound) (hp : w.source pipe = some p) (read : Bool)
    (answers : SendAnswers) (buffer : CeTxBuffer) (transferId : UInt16) :
    let o := w.send pipe read answers buffer transferId
    ∃ p', o.state[pipe]?.bind (·.source) = some p' ∧
      p.Settles buffer ⟨o.result, p', o.calls⟩ := by
  obtain ⟨queue, -, hflight⟩ := h pipe p hp
  rw [send, CePipes.send, CePipes.onSource_eq]
  obtain ⟨hres, hcs, hst⟩ := CePipes.onSide_some (l := CePipes.source)
    (SourceSide.send { answers with pointer := w.pointer pipe read } buffer transferId) hp
  refine ⟨_, hst, ?_⟩
  rw [hres, hcs]
  exact SourceSide.send_settles hflight.source (fun _ => hflight.vacant) _ transferId

theorem Sound.send (h : w.Sound) (pipe : Nat) (read : Bool) (answers : SendAnswers)
    (buffer : CeTxBuffer) (transferId : UInt16) :
    (w.exec (.send pipe read answers buffer transferId)).Sound := by
  simp only [exec, TxWorld.send, CePipes.send, CePipes.onSource_eq]
  split
  next hok =>
    refine CePipes.onSide_each (l := CePipes.source) h (fun i hi p hI => ?_) fun p hp => ?_
    · simpa [update_of_ne hi] using hI
    · rw [(CePipes.onSide_some _ hp).1] at hok
      obtain ⟨queue, hacce, hflight⟩ := h pipe p hp
      obtain ⟨-, ⟨-, ha⟩ | ⟨⟨e, he⟩, -⟩⟩ :=
        SourceSide.send_settles hflight.source (fun _ => hflight.vacant) _ transferId
      · exact ⟨queue ++ [buffer], by simp [hacce], hflight.accepted ha⟩
      · cases hok.symm.trans he
  next e he =>
    refine CePipes.onSide_each (l := CePipes.source) h (fun _ _ _ hI => hI) fun p hp => ?_
    rw [(CePipes.onSide_some _ hp).1] at he
    obtain ⟨queue, hacce, hflight⟩ := h pipe p hp
    obtain ⟨-, ⟨hok, -⟩ | ⟨-, hr⟩⟩ :=
      SourceSide.send_settles hflight.source (fun _ => hflight.vacant) _ transferId
    · cases he.symm.trans hok
    · exact ⟨queue, hacce, hflight.refused hr⟩

theorem completedSendNext_result (hp : w.source pipe = some p) (read : Bool) :
    (w.completedSendNext pipe read).result =
      (SourceSide.completedSendNext (w.pointer pipe read) p).result := by
  rw [completedSendNext, CePipes.completedSendNext, CePipes.onSource_eq]
  exact (CePipes.onSide_some (l := CePipes.source) _ hp).1

/-- A completion is refused without the pointer; with it, it answers the
first buffer in flight if the tail is past it, and nothing if not. -/
theorem Sound.reaps (h : w.Sound) (hp : w.source pipe = some p) (read : Bool) :
    let o := SourceSide.completedSendNext (w.pointer pipe read) p
    (read = false ∧ o.result = .error .deviceFault ∧ o.state = p) ∨
      (read = true ∧ w.passed pipe = (w.returned pipe).length ∧ o.result = .ok none ∧
        ∃ queue, w.accepted pipe = w.returned pipe ++ queue ∧
          o.state.InFlight (w.returned pipe).length (w.passed pipe) queue) ∨
      (read = true ∧ (w.returned pipe).length < w.passed pipe ∧
        ∃ buffer rest, w.accepted pipe = w.returned pipe ++ buffer :: rest ∧
          o.result = .ok (some buffer) ∧
          o.state.InFlight ((w.returned pipe).length + 1) (w.passed pipe) rest) := by
  obtain ⟨queue, hacce, hflight⟩ := h pipe p hp
  cases read with
  | false => exact .inl ⟨rfl, rfl, rfl⟩
  | true =>
    have hptr : w.pointer pipe true = some (p.tailPointer (w.passed pipe)) := by
      simp [pointer, hp]
    rw [hptr]
    obtain ⟨heq, hn, hflight'⟩ | ⟨buffer, rest, rfl, hlt, hsome, hflight'⟩ := hflight.completed
    · exact .inr (.inl ⟨rfl, heq, hn, queue, hacce, hflight'⟩)
    · exact .inr (.inr ⟨rfl, hlt, buffer, rest, hacce, hsome, hflight'⟩)

theorem Sound.completedSendNext (h : w.Sound) (pipe : Nat) (read : Bool) :
    (w.exec (.completedSendNext pipe read)).Sound := by
  have hres := fun p (hp : w.source pipe = some p) => completedSendNext_result hp read
  simp only [exec]
  generalize hcall : w.completedSendNext pipe read = o at hres ⊢
  rw [TxWorld.completedSendNext, CePipes.completedSendNext, CePipes.onSource_eq] at hcall
  subst hcall
  split
  next buffer hsome =>
    refine CePipes.onSide_each (l := CePipes.source) h (fun i hi p hI => ?_) fun p hp => ?_
    · simpa [update_of_ne hi] using hI
    · have hgot := (hres p hp).symm.trans hsome
      obtain ⟨-, he, -⟩ | ⟨-, -, hn, -⟩ | ⟨-, -, _, rest, hacce, hbuf, hflight⟩ := h.reaps hp read
      · cases he.symm.trans hgot
      · cases hn.symm.trans hgot
      · cases hbuf.symm.trans hgot
        exact ⟨rest, by simp [hacce], by simpa using hflight⟩
  next hother =>
    refine CePipes.onSide_each (l := CePipes.source) h (fun _ _ _ hI => hI) fun p hp => ?_
    obtain ⟨-, -, hsame⟩ | ⟨-, -, -, hflight⟩ | ⟨-, -, buffer, _, -, hbuf, -⟩ := h.reaps hp read
    · rw [hsame]
      exact h pipe p hp
    · exact hflight
    · exact absurd ((hres p hp).trans hbuf) (hother buffer)

theorem Sound.advance (h : w.Sound) (pipe count : Nat) : (w.exec (.advance pipe count)).Sound := by
  intro i p hp
  by_cases hi : i = pipe
  · subst hi
    obtain ⟨queue, hacce, hflight⟩ := h i p hp
    obtain ⟨hle, hpassed⟩ := hflight.passed
    refine ⟨queue, hacce, { hflight with passed := ?_ }⟩
    simp only [exec, update_self, hacce, length_append]
    omega
  · simpa [exec, update_of_ne hi] using h i p hp

theorem Sound.run (h : w.Sound) (ops : List TxOp) : (w.run ops).Sound := by
  induction ops generalizing w with
  | nil => exact h
  | cons op rest ih =>
    refine ih ?_
    cases op with
    | send pipe read answers buffer transferId => exact h.send pipe read answers buffer transferId
    | completedSendNext pipe read => exact h.completedSendNext pipe read
    | advance pipe count => exact h.advance pipe count

end TxWorld

/-! ## Initial pipes -/

theorem InitializedPipe.initSource_inFlight {config : HostPipeConfig} {pipeNumber : UInt8}
    (h : initSource config pipeNumber = .ok (some p)) : p.InFlight 0 0 [] := by
  unfold initSource at h
  split at h
  · cases h
  next hents =>
    obtain ⟨ring, hring, h⟩ := bind_eq_ok.mp h
    cases h
    have hpos : 0 < config.sourceEntries.toNat := by
      refine Nat.pos_of_ne_zero fun h0 => hents ?_
      exact UInt16.toNat_inj.mp h0
    have hsound := (setup_sound hring hpos).1
    obtain ⟨id, rfl⟩ := eq_of_setup hring
    refine ⟨hsound, rfl, by simp [allocateCeRing], .replicate _ _, hpos, ?_, ?_, by simp⟩
    · simp [entry]
    · refine hsound.following_last.trans ?_
      simp [entry]

/-- On every source ring, at every moment of every run: buffers were
returned in the order they were accepted, each once and none before the
tail was past its entry; the slots hold exactly the others; the next
completion answers the next buffer as soon as the tail is past it; and the
next `send` writes to a vacant slot only, and changes nothing if it fails. -/
theorem ce_source_slots (statusMemory : Nat → CeDestinationStatusDescriptor)
    (configs : List HostPipeConfig) (pipes : List InitializedPipe)
    (hinit : CePipes.initPipes statusMemory configs 0 = .ok pipes) (ops : List TxOp) (pipe : Nat)
    (p : SourceSide) (hp : ((TxWorld.new pipes).run ops).source pipe = some p) :
    let w := (TxWorld.new pipes).run ops
    w.returned pipe <+: w.accepted pipe ∧
    (w.returned pipe).length ≤ w.passed pipe ∧ w.passed pipe ≤ (w.accepted pipe).length ∧
    (∀ k, (w.returned pipe).length ≤ k → k < (w.accepted pipe).length →
      p.slots[k % p.slots.length]? = some (w.accepted pipe)[k]?) ∧
    (w.completedSendNext pipe true).result = .ok (if (w.returned pipe).length < w.passed pipe
        then (w.accepted pipe)[(w.returned pipe).length]? else none) ∧
    ∀ read answers buffer transferId, (∀ offset descriptor,
        CeCall.write offset descriptor ∈ (w.send pipe read answers buffer transferId).calls →
          p.slots[offset / p.ring.entrySize]? = some none) ∧
      ∀ e, (w.send pipe read answers buffer transferId).result = .error e →
        ∃ p', (w.send pipe read answers buffer transferId).state[pipe]?.bind (·.source) = some p' ∧
          p'.ring.head = p.ring.head ∧ p'.ring.reapHead = p.ring.reapHead ∧ p'.slots = p.slots := by
  intro w
  have hstart : (TxWorld.new pipes).Sound := by
    intro i q hq
    obtain ⟨whole, hwhole, hsrc⟩ := Option.bind_eq_some_iff.mp hq
    obtain ⟨config, -, n, hconf, -⟩ := CePipes.initPipes_get hinit hwhole
    exact ⟨[], rfl, InitializedPipe.initSource_inFlight (hconf.trans (congrArg _ hsrc))⟩
  have hsound : w.Sound := hstart.run ops
  obtain ⟨queue, hacce, hflight⟩ := hsound pipe p hp
  obtain ⟨hle, hpassed⟩ := hflight.passed
  refine ⟨⟨queue, hacce.symm⟩, hle, ?_, fun k hk hlt => ?_, ?_, fun read answers buffer id => ?_⟩
  · rw [hacce, length_append]
    exact hpassed
  · rw [hacce, length_append] at hlt
    have hroom := hflight.room
    have hget := hflight.holds.get (k := k - (w.returned pipe).length)
      (by rw [hflight.length]; omega)
    rw [Nat.add_sub_cancel' hk] at hget
    rw [hget, hacce, getElem?_append_right hk]
  · rw [TxWorld.completedSendNext_result hp]
    obtain ⟨hread, -⟩ | ⟨-, heq, hn, -⟩ | ⟨-, hlt, buffer, rest, hacc, hsome, -⟩ :=
      hsound.reaps hp true
    · cases hread
    · rw [hn, if_neg (by omega)]
    · rw [hsome, if_pos hlt, hacc]
      simp
  · obtain ⟨p', hp', hwr, hends⟩ := hsound.send_settles hp read answers buffer id
    refine ⟨fun offset descriptor hc => ?_, fun e he => ⟨p', hp', ?_⟩⟩
    · rw [(hwr offset descriptor hc).1]
      exact hflight.vacant
    · obtain ⟨hok, -⟩ | ⟨-, hsl, pointer, hring⟩ := hends
      · rw [hok] at he
        cases he
      · exact ⟨by rw [hring], by rw [hring], hsl⟩

/-- A ring of four entries comes round: five buffers are sent, one of them
first without success, and three are returned. -/
def wrapping : List TxOp :=
  let send (bytes : Bytes) : TxOp := .send 0 true ⟨true, none, true, true, true⟩ ⟨0, bytes⟩ 1
  let reap : TxOp := .completedSendNext 0 true
  [send [1], send [2], .advance 0 2, reap, reap, reap, send [3],
    .send 0 true ⟨true, none, true, true, false⟩ ⟨0, [4]⟩ 1, send [4], send [5], .advance 0 1, reap]

theorem ce_source_slots_returning :
    ∃ pipes p, CePipes.initPipes (fun _ => ⟨0, 0⟩) [⟨0, 4, 2048, 0⟩] 0 = .ok pipes ∧
      let w := (TxWorld.new pipes).run wrapping
      w.source 0 = some p ∧ w.returned 0 = [⟨0, [1]⟩, ⟨0, [2]⟩, ⟨0, [3]⟩] ∧
      w.accepted 0 = [⟨0, [1]⟩, ⟨0, [2]⟩, ⟨0, [3]⟩, ⟨0, [4]⟩, ⟨0, [5]⟩] ∧
      p.slots[3 % p.slots.length]? = some (some ⟨0, [4]⟩) ∧
      p.slots[4 % p.slots.length]? = some (some ⟨0, [5]⟩) := by
  refine ⟨_, _, rfl, rfl, rfl, rfl, ?_⟩
  have hheld := (ce_source_slots (fun _ => ⟨0, 0⟩) [⟨0, 4, 2048, 0⟩] _ rfl wrapping 0 _ rfl).2.2.2.1
  exact ⟨hheld 3 (by decide) (by decide), hheld 4 (by decide) (by decide)⟩

end Drv.Ath11k
