import Drv.Base.Hoare
import Drv.Laws.Ath11k.Pipes
import Drv.Laws.Ath11k.Srng

/-!
# Received packets are handed out once

The buffers that are posted stand in the slots of the destination ring,
from the place after the last packet that was handed out. The device
completes them in that order: it writes the buffer, then the status entry
of the same place, and moves its pointer.

A completion is read into a pending record before anything is changed
that cannot be taken back; a call that fails leaves the record, and the
next one goes on with it. `Pended` is all that a call may change before
the pointer is published.

That a packet is handed out in some time is not shown.
-/

namespace Drv.Ath11k

open Eff (bind_apply)
open List CePipes Srng ReceiveSide

/-- What the device wrote for one buffer. -/
structure Completion where
  status : CeDestinationStatusDescriptor
  memory : Bytes

/-- The packet of a completion, if its length is one. -/
def Completion.packet (c : Completion) : Option Bytes :=
  if c.status.length.toNat = 0 ∨ c.status.length.toNat > c.memory.length then none
  else some (c.memory.take c.status.length.toNat)

/-- Nothing of a call fails, the pointer apart. -/
structure RecvAnswers.Clean (a : RecvAnswers) : Prop where
  statusRead : a.statusRead = true
  acquire : a.acquire = true
  refresh : a.refresh = true
  payloadRead : a.payloadRead = true
  clear : a.clear = .ok ()
  publication : a.publication = true

namespace ReceiveSide

/-- How many places the rings have. -/
abbrev places (p : ReceiveSide) : Nat := p.destination.memory.entries.toNat

/-! ## The pending record -/

/-- What changes until a completion is delivered. -/
structure Pended (p : ReceiveSide) (c : Completion) (offset slot : Nat)
    (q : ReceiveSide) : Prop where
  destination : q.destination = p.destination
  status : q.status = p.status
  index : q.destinationSoftwareIndex = p.destinationSoftwareIndex
  needed : q.rxBuffersNeeded = p.rxBuffersNeeded
  size : q.sourceSizeMax = p.sourceSizeMax
  slots : ∃ owned, q.destinationSlots = p.destinationSlots.set slot (some ⟨c.memory, owned⟩)
  memory : ∃ word, q.statusMemory = p.statusMemory.set slot word
  pending : q.pendingReceive = none ∧ q.statusMemory[slot]? = some c.status ∨
    ∃ record, q.pendingReceive = some record ∧ record.statusOffset = offset ∧
      c.packet = some record.payload

section
variable {p q : ReceiveSide} {c : Completion} {offset slot : Nat} {a : RecvAnswers}

/-- The record is made. -/
def Recorded (p : ReceiveSide) (c : Completion) (offset slot : Nat) (q : ReceiveSide) : Prop :=
  p.Pended c offset slot q ∧ q.pendingReceive.isSome

/-- A failure leaves what may be changed, and has a reason. -/
def Failed (p : ReceiveSide) (c : Completion) (offset slot : Nat) (a : RecvAnswers)
    (_ : CeError) (q : ReceiveSide) : Prop :=
  p.Pended c offset slot q ∧ (a.Clean → c.packet = none)

theorem answered_pended {P : ReceiveSide → Prop} (hP : ∀ q, P q → p.Pended c offset slot q)
    {b : Bool} (hb : a.Clean → b = true) :
    Triple P (Eff.ofExcept (Answered b) : OnReceive Unit) (fun _ => P)
      (p.Failed c offset slot a) := by
  cases b with
  | true => exact .pure fun _ h => h
  | false => exact .fail fun q h => ⟨hP q h, fun hclean => nomatch hb hclean⟩

section
variable (h : p.Pended c offset slot q)
include h

theorem Pended.record {record : PendingReceive} (hq : q.pendingReceive = some record) :
    record.statusOffset = offset ∧ c.packet = some record.payload := by
  obtain ⟨hn, -⟩ | ⟨record', hsome, heq⟩ := h.pending
  · rw [hq] at hn
    cases hn
  · rw [hq] at hsome
    cases hsome
    exact heq

theorem Pended.buffer (hslot : slot < p.destinationSlots.length) :
    ∃ owned, q.destinationSlots[slot]? = some (some ⟨c.memory, owned⟩) := by
  obtain ⟨owned, hsl⟩ := h.slots
  exact ⟨owned, by rw [hsl, getElem?_set_self hslot]⟩

theorem Pended.eq : ∃ owned word, q = { p with
    destinationSlots := p.destinationSlots.set slot (some ⟨c.memory, owned⟩)
    statusMemory := p.statusMemory.set slot word
    pendingReceive := q.pendingReceive } := by
  obtain ⟨owned, hsl⟩ := h.slots
  obtain ⟨word, hword⟩ := h.memory
  refine ⟨owned, word, ?_⟩
  rw [← hsl, ← hword, ← h.destination, ← h.status, ← h.index, ← h.needed, ← h.size]

end

theorem syncForCpu_pended (owned : Bool) :
    Triple (p.Pended c offset slot) (syncForCpu a slot ⟨c.memory, owned⟩)
      (fun _ => p.Pended c offset slot) (p.Failed c offset slot a) := by
  refine .ite (fun _ => answered_pended (fun _ h => h) (·.refresh)) fun _ =>
    .bind (answered_pended (fun _ h => h) (·.acquire)) fun _ => ?_
  refine .bind (.modify fun q h => ?_) fun _ => answered_pended (fun _ h => h) (·.refresh)
  obtain ⟨owned, hsl⟩ := h.slots
  exact { h with slots := ⟨true, by rw [hsl, set_set]⟩ }

theorem readCompletion_pended (hslot : slot < p.destinationSlots.length) :
    Triple (fun q => p.Pended c offset slot q ∧ q.pendingReceive = none)
      (readCompletion a offset slot slot) (fun _ => p.Recorded c offset slot)
      (p.Failed c offset slot a) := by
  refine .bind (answered_pended (fun _ h => h.1) (·.statusRead)) fun _ =>
    .look_eq (b := some c.status) ?_ (.look_pre (p := (∃ owned, · = some ⟨c.memory, owned⟩)) ?_ ?_)
  · -- the entry is still as the device wrote it
    rintro q ⟨h, hn⟩
    obtain ⟨-, hword⟩ | ⟨record, hsome, -⟩ := h.pending
    · exact hword
    · rw [hn] at hsome
      cases hsome
  · rintro q ⟨h, -⟩
    obtain ⟨owned, hbuf⟩ := h.buffer hslot
    exact ⟨owned, by rw [hbuf]; rfl⟩
  rintro _ ⟨owned, rfl⟩
  refine .ite (fun hbad => .fail fun q h => ⟨h.1, fun _ => if_pos hbad⟩) fun hgood => ?_
  refine .bind ((syncForCpu_pended owned).weaken_pre fun q h => h.1) fun _ =>
    .bind (answered_pended (fun _ h => h) (·.payloadRead)) fun _ => .modify fun q h => ?_
  refine ⟨{ h with pending := .inr ⟨_, rfl, rfl, ?_⟩ }, rfl⟩
  exact if_neg hgood

theorem clearLength_pended :
    Triple (p.Recorded c offset slot) (clearLength a slot)
      (fun _ => p.Recorded c offset slot) (p.Failed c offset slot a) := by
  refine .look_bind fun pending => ?_
  cases pending with
  | none =>
    refine .fail fun q h => ?_
    have hsome := h.1.2
    rw [h.2] at hsome
    cases hsome
  | some record =>
    -- the record does not depend on the entry any more
    have hset : ∀ (word : CeDestinationStatusDescriptor) (record' : PendingReceive) q,
        p.Recorded c offset slot q ∧ q.pendingReceive = some record →
        record'.statusOffset = offset ∧ c.packet = some record'.payload →
        p.Pended c offset slot { q with
          statusMemory := q.statusMemory.set slot word, pendingReceive := some record' } := by
      rintro word record' q ⟨⟨h, -⟩, -⟩ hrec'
      obtain ⟨word', hmemory⟩ := h.memory
      exact { h with
        memory := ⟨word, by simp only [hmemory, set_set]⟩
        pending := .inr ⟨record', rfl, hrec'⟩ }
    refine .ite (fun _ => .pure fun q h => h.1) fun _ => ?_
    cases hclear : a.clear with
    | error left =>
      refine .bind (.modify fun q h => ?_) fun _ => .fail fun q h =>
        ⟨h, fun hclean => nomatch hclear.symm.trans hclean.clear⟩
      have hq := hset left record q h (h.1.1.record h.2)
      simpa only [h.2] using hq
    | ok =>
      refine .bind (R := fun _ q => p.Pended c offset slot q ∧
        record.statusOffset = offset ∧ c.packet = some record.payload)
        (.modify fun q h => ⟨?_, h.1.1.record h.2⟩) fun _ => .modify fun q h => ⟨?_, rfl⟩
      · have hq := hset record.clearedWord record q h (h.1.1.record h.2)
        simpa only [h.2] using hq
      · exact { h.1 with pending := .inr ⟨_, rfl, h.2⟩ }

/-- Until the pointer is published nothing but the record is changed for
good, and with no fault a packet gets that far. -/
theorem completeAt_pended (hslot : slot < p.destinationSlots.length) :
    Triple (p.Pended c offset slot) (completeAt a offset slot slot)
      (fun _ => p.Recorded c offset slot) (p.Failed c offset slot a) := by
  refine .bind (R := fun _ => p.Recorded c offset slot) (.look_bind fun pending => ?_)
    fun _ => .bind clearLength_pended fun _ => answered_pended (fun _ h => h.1) (·.publication)
  cases pending with
  | none => exact readCompletion_pended hslot
  | some record =>
    refine .ite (fun hne => .fail fun q h => ?_) fun _ => .pure fun q h => ?_
    · exact absurd (h.1.record h.2).1 hne
    · exact ⟨h.1, by rw [h.2]; rfl⟩

end

/-! ## The posted buffers -/

/-- The buffers that are posted and not handed out, from the place `first`
on, and what the device has completed so far. -/
structure Posted (p : ReceiveSide) (first : Nat) (completions : List Completion)
    (queue : List CeRxBuffer) : Prop where
  destination : p.destination.Sound
  source : p.destination.direction = .source
  status : p.status.Sound
  told : p.status.direction = .destination
  entries : p.status.memory.entries = p.destination.memory.entries
  turn : ∃ m, p.places = 2 ^ m
  slotCount : p.destinationSlots.length = p.places
  statusCount : p.statusMemory.length = p.places
  holds : Holds p.destinationSlots first queue
  needed : queue.length + p.rxBuffersNeeded.toNat + 2 = p.places
  index : p.destinationSoftwareIndex = first % p.places
  tail : p.status.tail = p.status.entry first
  head : p.destination.head = p.destination.entry (first + queue.length)
  completed : first ≤ completions.length ∧ completions.length ≤ first + queue.length
  memory : ∀ j c, completions[first + j]? = some c → queue[j]?.map CeRxBuffer.memory = some c.memory
  statusMemory : ∀ j c, completions[first + j]? = some c →
    p.statusMemory[(first + j) % p.places]? = some c.status ∨
      j = 0 ∧ p.pendingReceive.isSome
  pending : ∀ record, p.pendingReceive = some record → record.statusOffset = p.status.tail * 4 ∧
    ∃ c, completions[first]? = some c ∧ c.packet = some record.payload

section
variable {p : ReceiveSide} {first : Nat} {completions : List Completion} {queue : List CeRxBuffer}

/-! ### Posting -/

/-- The destination ring after its head was moved on. -/
abbrev pushed (p : ReceiveSide) (pointer : Nat) : Srng :=
  { p.destination with
    head := p.destination.following p.destination.head
    reapHead := p.destination.following p.destination.head
    cachedHardwarePointer := pointer }

/-- A buffer is posted, or only the device's pointer is new. -/
def Posts (p : ReceiveSide) (buffer : CeRxBuffer) (o : Outcome ReceiveSide Empty CeError Unit) :
    Prop :=
  (o.result = .ok () ∧ ∃ pointer, o.state = { p with
      destination := p.pushed pointer
      destinationSlots := p.destinationSlots.set
        (p.destination.head * 4 / p.destination.entrySize) (some buffer)
      rxBuffersNeeded := p.rxBuffersNeeded - 1 }) ∨
    (∃ e, o.result = .error e) ∧ ∃ pointer, o.state = { p with
      destination := { p.destination with cachedHardwarePointer := pointer } }

variable {buffer : CeRxBuffer}

theorem settlePost_posts {pointer : UInt32}
    (hvac : p.destinationSlots.set (p.destination.head * 4 / p.destination.entrySize) none =
      p.destinationSlots) (a : PostAnswers) :
    p.Posts buffer (settlePost a buffer (p.destination.accessBegin pointer).checkpoint
      p.destination.entrySize (some (p.destination.head * 4))
      { p with destination := p.pushed pointer.toNat }) := by
  cases hd : a.descriptor with
  | false =>
    refine .inr ⟨?_, pointer.toNat, ?_⟩ <;>
      simp [settlePost, placeReceive, hd, Answered, bind_apply, onDestination, setSlot,
        hvac, restore, checkpoint, accessBegin]
  | true =>
    cases hpub : a.publication with
    | false =>
      refine .inr ⟨?_, pointer.toNat, ?_⟩ <;>
        simp [settlePost, placeReceive, hd, hpub, Answered, bind_apply, onDestination, setSlot,
          hvac, restore, checkpoint, accessBegin]
    | true =>
      refine .inl ⟨?_, pointer.toNat, ?_⟩ <;>
        simp [settlePost, placeReceive, hd, hpub, Answered, bind_apply, setSlot, accessBegin]

theorem postReceive_posts (buffer : CeRxBuffer) (hsrc : p.destination.direction = .source)
    (hvac : p.destinationSlots.set (p.destination.head * 4 / p.destination.entrySize) none =
      p.destinationSlots) (a : PostAnswers) : p.Posts buffer (postReceive a buffer p) := by
  cases haddr : a.address with
  | false =>
    refine .inr ⟨?_, p.destination.cachedHardwarePointer, ?_⟩ <;>
      simp [postReceive, haddr, Answered, bind_apply]
  | true =>
    cases hptr : a.pointer with
    | none =>
      refine .inr ⟨?_, p.destination.cachedHardwarePointer, ?_⟩ <;>
        simp [postReceive, haddr, hptr, Answered, refreshPointer, bind_apply]
    | some pointer =>
      have hpost : postReceive a buffer p =
          settlePost a buffer (p.destination.accessBegin pointer).checkpoint
            p.destination.entrySize (p.destination.accessBegin pointer).sourceNext.1
            { p with destination := (p.destination.accessBegin pointer).sourceNext.2 } := by
        simp [postReceive, haddr, hptr, Answered, refreshPointer, onDestination,
          destinationStep, bind_apply]
        rfl
      rw [hpost]
      by_cases hf : p.destination.following p.destination.head = pointer.toNat
      · have hstep : (p.destination.accessBegin pointer).sourceNext =
            (none, p.destination.accessBegin pointer) := by
          simp only [sourceNext, accessBegin, hsrc, ne_eq, not_true_eq_false, if_false]
          exact if_pos hf
        rw [hstep]
        refine .inr ?_
        cases hpub : a.publication <;> refine ⟨?_, pointer.toNat, ?_⟩ <;>
          simp [settlePost, hpub, Answered, bind_apply, accessBegin]
      · have hstep : (p.destination.accessBegin pointer).sourceNext =
            (some (p.destination.head * 4), p.pushed pointer.toNat) := by
          simp only [sourceNext, accessBegin, hsrc, ne_eq, not_true_eq_false, if_false, pushed]
          exact if_neg hf
        rw [hstep]
        exact settlePost_posts hvac a

section
variable (h : p.Posted first completions queue)
include h

theorem Posted.room : queue.length < p.destinationSlots.length := by
  have hneed := h.needed
  rw [h.slotCount]
  omega

theorem Posted.lt_length {j : Nat} {c : Completion} (hc : completions[first + j]? = some c) :
    j < queue.length := by
  have hlt := lt_of_getElem? hc
  have hle := h.completed.2
  omega

theorem Posted.headSlot :
    p.destination.head * 4 / p.destination.entrySize =
      (first + queue.length) % p.destinationSlots.length := by
  rw [h.head, h.destination.slot_entry, h.slotCount]

end

theorem needed_pred (hneed : p.rxBuffersNeeded ≠ 0) :
    (p.rxBuffersNeeded - 1).toNat + 1 = p.rxBuffersNeeded.toNat := by
  have hpos : 0 < p.rxBuffersNeeded.toNat :=
    Nat.pos_of_ne_zero fun h0 => hneed (UInt16.toNat_inj.mp h0)
  have hone : (1 : UInt16) ≤ p.rxBuffersNeeded := UInt16.le_iff_toNat_le.mpr hpos
  rw [UInt16.toNat_sub_of_le _ _ hone]
  exact Nat.sub_add_cancel hpos

theorem Posted.postReceive (h : p.Posted first completions queue) (hneed : p.rxBuffersNeeded ≠ 0)
    (a : PostAnswers) (buffer : CeRxBuffer) :
    let o := postReceive a buffer p
    (o.result = .ok () ∧ o.state.Posted first completions (queue ++ [buffer]) ∧
        o.state.rxBuffersNeeded.toNat + 1 = p.rxBuffersNeeded.toNat) ∨
      (∃ e, o.result = .error e) ∧ o.state.Posted first completions queue := by
  have hvac := set_of_getElem? (h.holds.vacant h.room)
  rw [← h.headSlot] at hvac
  obtain ⟨hok, pointer, hst⟩ | ⟨he, pointer, hst⟩ := postReceive_posts buffer h.source hvac a
  · have hpred := needed_pred hneed
    refine .inl ⟨hok, ?_, by rw [hst]; exact hpred⟩
    rw [hst]
    have hnx := h.destination.following h.destination.head
    have hsame : Same p.destination (p.pushed pointer) := ⟨rfl, rfl, rfl, rfl⟩
    have hlen : (queue ++ [buffer]).length = queue.length + 1 := by simp
    have hcnt := h.needed
    exact { h with
      destination := h.destination.moved hsame hnx h.destination.tail hnx
      slotCount := by simpa using h.slotCount
      holds := by
        rw [h.headSlot]
        exact h.holds.put h.room
      needed := by
        rw [hlen]
        show queue.length + 1 + (p.rxBuffersNeeded - 1).toNat + 2 = p.places
        omega
      head := by
        rw [hsame.entry, hlen, ← Nat.add_assoc, ← h.destination.following_entry, ← h.head]
      completed := ⟨h.completed.1, by rw [hlen]; exact h.completed.2.trans (by omega)⟩
      memory := fun j c hc => by
        rw [getElem?_append_left (h.lt_length hc)]
        exact h.memory j c hc }
  · refine .inr ⟨he, ?_⟩
    rw [hst]
    exact { h with destination := h.destination.repointed pointer }

/-- Some buffers are posted. -/
def Posting (first : Nat) (completions : List Completion) (p : ReceiveSide) : Prop :=
  ∃ queue, p.Posted first completions queue

/-- Some buffers are posted, and `left` more are needed. -/
def Needs (first : Nat) (completions : List Completion) (left : Nat) (p : ReceiveSide) : Prop :=
  Posting first completions p ∧ p.rxBuffersNeeded.toNat = left

theorem postFresh_needs (a : PostAnswers) (left : Nat) :
    Triple (Needs first completions (left + 1)) (postFresh a)
      (fun _ => Needs first completions left) (fun _ => Posting first completions) := by
  unfold postFresh
  split
  · exact .fail fun p h => h.1
  · refine .look_bind fun size => ?_
    rintro p ⟨⟨⟨queue, h⟩, hleft⟩, -⟩
    have hne : p.rxBuffersNeeded ≠ 0 := fun h0 => by simp [h0] at hleft
    obtain ⟨hok, hposted, hpred⟩ | ⟨⟨e, he⟩, hposted⟩ := h.postReceive hne a ⟨_, false⟩
    · refine ⟨fun _ _ => ⟨⟨_, hposted⟩, by omega⟩, fun e he => ?_⟩
      rw [hok] at he
      cases he
    · refine ⟨fun _ hok => ?_, fun _ _ => ⟨_, hposted⟩⟩
      rw [he] at hok
      cases hok

theorem rxPostLoop_needs (answers : Nat → PostAnswers) (left : Nat) :
    Leads (Needs first completions left) (rxPostLoop answers left) (Posting first completions) := by
  induction left with
  | zero => exact .pure fun p h => h.1
  | succ left ih => exact .bind (postFresh_needs (answers left) left) fun _ => ih

theorem Posted.rxPostPipe (h : p.Posted first completions queue) (answers : Nat → PostAnswers) :
    Posting first completions (rxPostPipe answers p).state := by
  have hloop : Leads (· = p) (ReceiveSide.rxPostPipe answers) (Posting first completions) := by
    refine .look_bind fun needed => (rxPostLoop_needs answers _).weaken_pre ?_
    rintro q ⟨rfl, rfl⟩
    exact ⟨⟨queue, h⟩, rfl⟩
  exact hloop.state rfl

/-! ### Receiving -/

/-- The pointer that the device shows. -/
def statusPointer (p : ReceiveSide) (completed : Nat) : UInt32 :=
  UInt32.ofNat (p.status.entry completed)

section
variable (h : p.Posted first completions queue)
include h

theorem Posted.restated (pointer : Nat) :
    { p with status := { p.status with cachedHardwarePointer := pointer } }.Posted
      first completions queue :=
  { h with status := h.status.repointed pointer }

variable {c : Completion}

/-- The first buffer that is not handed out is in its slot and, if it was
completed, what the device wrote is there to be read. -/
theorem Posted.pended (hc : completions[first]? = some c) (status : Srng) :
    { p with status := status }.Pended c (p.status.tail * 4) (first % p.places)
      { p with status := status } := by
  have hmemory := h.memory 0 c hc
  obtain ⟨buffer, hbuf, hsame⟩ := Option.map_eq_some_iff.mp hmemory
  obtain ⟨rest, rfl⟩ : ∃ rest, queue = buffer :: rest := by
    cases queue with
    | nil => cases hbuf
    | cons b rest =>
      cases hbuf
      exact ⟨rest, rfl⟩
  have hfront := h.holds.front
  rw [h.slotCount] at hfront
  refine ⟨rfl, rfl, rfl, rfl, rfl, ⟨buffer.cpuOwned, ?_⟩, ?_, ?_⟩
  · obtain ⟨hlt, hget⟩ := List.getElem?_eq_some_iff.mp hfront
    have hself : buffer = ⟨c.memory, buffer.cpuOwned⟩ := by rw [← hsame]
    rw [← hself, ← hget]
    exact (set_getElem_self hlt).symm
  · have hlt : first % p.places < p.statusMemory.length := by
      rw [h.statusCount]
      exact Nat.mod_lt _ h.destination.entries
    exact ⟨p.statusMemory[first % p.places], (set_getElem_self hlt).symm⟩
  · cases hpend : p.pendingReceive with
    | none =>
      obtain hstat | ⟨-, hsome⟩ := h.statusMemory 0 c hc
      · exact .inl ⟨rfl, hstat⟩
      · simp [hpend] at hsome
    | some record =>
      obtain ⟨hoff, c', hc', hpacket⟩ := h.pending record hpend
      rw [hc] at hc'
      cases hc'
      exact .inr ⟨record, rfl, hoff, hpacket⟩

/-- What a call may change before the pointer is published leaves the
buffers posted. -/
theorem Posted.kept {q : ReceiveSide} {status : Srng} (hc : completions[first]? = some c)
    (hq : { p with status := status }.Pended c (p.status.tail * 4) (first % p.places) q) :
    ∃ owned rest, { q with status := p.status }.Posted first completions
      (⟨c.memory, owned⟩ :: rest) := by
  obtain ⟨owned, word, heq⟩ := hq.eq
  have hpos : 0 < queue.length := h.lt_length hc
  obtain ⟨buffer, rest, rfl⟩ := exists_cons_of_length_pos hpos
  have hset := h.holds.exchange (y := ⟨c.memory, owned⟩) hpos
  simp only [set_cons_zero, Nat.add_zero, h.slotCount] at hset
  rw [heq]
  refine ⟨owned, rest, { h with
    slotCount := by simpa using h.slotCount
    statusCount := by simpa using h.statusCount
    holds := hset
    memory := fun j c' hc' => ?_
    statusMemory := fun j c' hc' => ?_
    pending := fun record hrec => ?_ }⟩
  · cases j with
    | zero =>
      rw [Nat.add_zero, hc] at hc'
      cases hc'
      rfl
    | succ j => exact h.memory (j + 1) c' hc'
  · cases j with
    | zero =>
      rw [Nat.add_zero, hc] at hc'
      cases hc'
      obtain ⟨-, hstat⟩ | ⟨record, hsome, -⟩ := hq.pending
      · rw [heq] at hstat
        exact .inl hstat
      · exact .inr ⟨rfl, by rw [hsome]; rfl⟩
    | succ j =>
      obtain hstat | ⟨hz, -⟩ := h.statusMemory (j + 1) c' hc'
      · refine .inl ?_
        rw [getElem?_set_ne]
        · exact hstat
        · intro heq
          have hlt := h.lt_length hc'
          have hneed := h.needed
          have := eq_of_mod_eq heq (Nat.le_add_right _ _) (by omega)
          omega
      · cases hz
  · obtain ⟨hoff, hpacket⟩ := hq.record hrec
    exact ⟨hoff, c, hc, hpacket⟩

end

theorem Posted.next {rest : List CeRxBuffer} (h : p.Posted first completions (buffer :: rest))
    (hlt : first < completions.length) (pointer : Nat) (loop : UInt16) :
    { p with
      status := { p.status with
        tail := p.status.following p.status.tail
        cachedHardwarePointer := pointer
        loopCount := loop }
      pendingReceive := none
      destinationSoftwareIndex := (first % p.places + 1) &&& (p.destinationSlots.length - 1)
      rxBuffersNeeded := p.rxBuffersNeeded + 1
      destinationSlots := p.destinationSlots.set (first % p.places)
        none }.Posted (first + 1) completions rest := by
  have hsame : Same p.status { p.status with
      tail := p.status.following p.status.tail
      cachedHardwarePointer := pointer
      loopCount := loop } := ⟨rfl, rfl, rfl, rfl⟩
  have hneed := h.needed
  have hentries : p.places < _ := p.destination.memory.entries.toNat_lt
  obtain ⟨m, hm⟩ := h.turn
  have hcnt : first + (buffer :: rest).length = first + 1 + rest.length := by
    simp only [length_cons]
    omega
  have hbehind : ∀ j, first + 1 + j = first + (j + 1) := fun j => by omega
  exact { h with
    status := h.status.moved hsame h.status.head (h.status.following h.status.tail)
      h.status.reapHead
    slotCount := by simpa using h.slotCount
    holds := by
      have htake := h.holds.take
      rwa [h.slotCount] at htake
    needed := by
      show rest.length + (p.rxBuffersNeeded + 1).toNat + 2 = p.places
      rw [UInt16.toNat_add, UInt16.toNat_one, Nat.mod_eq_of_lt (by omega)]
      omega
    index := by
      rw [h.slotCount, hm, Nat.and_two_pow_sub_one_eq_mod, Nat.mod_add_mod]
    tail := by
      rw [hsame.entry, ← h.status.following_entry, ← h.tail]
    head := by
      rw [← hcnt]
      exact h.head
    completed := ⟨hlt, by rw [← hcnt]; exact h.completed.2⟩
    memory := fun j c hc => by
      rw [hbehind] at hc
      exact h.memory (j + 1) c hc
    statusMemory := fun j c hc => by
      rw [hbehind] at hc ⊢
      obtain hstat | ⟨hz, -⟩ := h.statusMemory (j + 1) c hc
      · exact .inl hstat
      · cases hz
    pending := fun record hrec => by cases hrec }

/-- What is as it was after a failed call. -/
structure Untouched (p p' : ReceiveSide) : Prop where
  cursor : p'.status.checkpoint = p.status.checkpoint
  index : p'.destinationSoftwareIndex = p.destinationSoftwareIndex
  needed : p'.rxBuffersNeeded = p.rxBuffersNeeded
  slots : p'.destinationSlots.map (·.map CeRxBuffer.memory) =
    p.destinationSlots.map (·.map CeRxBuffer.memory)

/-- The three ways a call may end. -/
inductive Receives (p : ReceiveSide) (first : Nat) (completions : List Completion)
    (a : RecvAnswers) : Except CeError (Option Bytes) → ReceiveSide → Prop where
  | failed {e : CeError} {p' : ReceiveSide} (huntouched : p.Untouched p')
      (hposting : Posting first completions p')
      (hreason : a.pointer.isSome → a.Clean → ∃ c, completions[first]? = some c ∧ c.packet = none) :
      Receives p first completions a (.error e) p'
  | empty {p' : ReceiveSide} (hempty : completions.length = first)
      (hposting : Posting first completions p') :
      Receives p first completions a (.ok none) p'
  | delivered {p' : ReceiveSide} {c : Completion} {bytes : Bytes}
      (hc : completions[first]? = some c) (hpacket : c.packet = some bytes)
      (hposting : Posting (first + 1) completions p') :
      Receives p first completions a (.ok (some bytes)) p'

theorem Pended.untouched {offset slot : Nat} {q : ReceiveSide}
    (hq : p.Pended c offset slot q) (hslot : p.destinationSlots[slot]? = some (some buffer))
    (hbuf : buffer.memory = c.memory) :
    q.destinationSlots.map (·.map CeRxBuffer.memory) =
      p.destinationSlots.map (·.map CeRxBuffer.memory) := by
  obtain ⟨owned, hsl⟩ := hq.slots
  obtain ⟨hlt, hget⟩ := List.getElem?_eq_some_iff.mp hslot
  rw [hsl, map_set]
  refine ext_getElem (by simp) fun i hi hi' => ?_
  rw [getElem_set]
  split
  next heq =>
    subst heq
    simp [hget, hbuf]
  · rfl

/-- The status ring after its tail was moved on. -/
def advanced (p : ReceiveSide) (pointer : UInt32) (loop : UInt16) : ReceiveSide :=
  { p with status := { p.status.accessBegin pointer with
    tail := p.status.following p.status.tail, loopCount := loop } }

/-- The end of a call once the completion was read: the cursor goes back,
or the packet is handed out. -/
def conclude (checkpoint : SrngCursor) (slot : Nat) :
    Except CeError Unit → OnReceive (Option Bytes)
  | .error e => do
    onStatus (·.restore checkpoint)
    Eff.fail e
  | .ok () => deliver slot

variable (h : p.Posted first completions queue)
include h

theorem Posted.settleReceive_eq (a : RecvAnswers) (checkpoint : SrngCursor) (pointer : UInt32)
    (loop : UInt16) :
    let slot := first % p.places
    let o := completeAt a (p.status.tail * 4) slot slot (p.advanced pointer loop)
    settleReceive a checkpoint p.status.entrySize (some (p.status.tail * 4))
        (p.advanced pointer loop) =
      conclude checkpoint slot o.result o.state := by
  intro slot o
  have hent : p.status.tail * 4 / p.status.entrySize = slot := by
    rw [h.tail, h.status.slot_entry, h.entries]
  have hidx : (p.advanced pointer loop).destinationSoftwareIndex = slot := h.index
  rw [settleReceive, hent, Eff.look_bind, hidx]
  have hcs : o.calls = [] := eq_nil_iff_forall_not_mem.mpr fun c => c.elim
  have hatt : (completeAt a (p.status.tail * 4) slot slot).attempt (p.advanced pointer loop) =
      ⟨.ok o.result, o.state, []⟩ := by
    rw [Eff.attempt_apply]
    rw [hcs]
  rw [Eff.bind_of_silent hatt]
  rcases o.result with e | ⟨⟩ <;> rfl

theorem Posted.settles (hc : completions[first]? = some c) (a : RecvAnswers) (pointer : UInt32)
    (loop : UInt16) :
    let o := settleReceive a (p.status.accessBegin pointer).checkpoint
      p.status.entrySize (some (p.status.tail * 4)) (p.advanced pointer loop)
    p.Receives first completions a o.result o.state := by
  intro o
  have hlt := lt_of_getElem? hc
  have hslot : first % p.places < (p.advanced pointer loop).destinationSlots.length := by
    show _ < p.destinationSlots.length
    rw [h.slotCount]
    exact Nat.mod_lt _ h.destination.entries
  have hstart := h.pended hc (p.advanced pointer loop).status
  obtain ⟨hok, herr⟩ := completeAt_pended hslot (p.advanced pointer loop) hstart
  have ho := h.settleReceive_eq a (p.status.accessBegin pointer).checkpoint pointer loop
  simp only [o, ho]
  generalize completeAt a (p.status.tail * 4) (first % p.places)
    (first % p.places) (p.advanced pointer loop) = run at hok herr
  cases hr : run.result with
  | error e =>
    obtain ⟨hq, hreason⟩ := herr e hr
    obtain ⟨owned, rest, hposted⟩ := h.kept hc hq
    obtain ⟨buffer, hget⟩ := hstart.buffer hslot
    have hstat : run.state.status.restore (p.status.accessBegin pointer).checkpoint =
        { p.status with cachedHardwarePointer := pointer.toNat } := by
      rw [hq.status]
      rfl
    simp only [conclude, onStatus, bind_apply, Eff.modify_apply, Eff.fail_apply, hstat]
    exact .failed ⟨rfl, hq.index, hq.needed, hq.untouched hget rfl⟩ ⟨_, hposted.restated _⟩
      fun _ hclean => ⟨c, hc, hreason hclean⟩
  | ok =>
    obtain ⟨hq, hsome⟩ := hok () hr
    obtain ⟨record, hrec⟩ := Option.isSome_iff_exists.mp hsome
    obtain ⟨owned, rest, hposted⟩ := h.kept hc hq
    obtain ⟨buffer, hget⟩ := hq.buffer hslot
    have hpacket : c.packet = some record.payload := by
      obtain ⟨-, c', hc', hpacket⟩ := hposted.pending record hrec
      rw [hc] at hc'
      cases hc'
      exact hpacket
    have hnx := hposted.next hlt pointer.toNat loop
    simp only [conclude, deliver, setPending, setSlot, bind_apply, Eff.look_apply, hrec,
      Eff.modify_apply, hget, Option.join_some, Eff.pure_apply, append_nil]
    refine .delivered hc hpacket ⟨rest, ?_⟩
    have hdest := hq.destination
    simp only [advanced] at hdest
    simp only [hdest] at hnx
    convert hnx using 2
    exact hq.status

theorem Posted.receives (a : RecvAnswers)
    (ha : a.pointer = none ∨ a.pointer = some (p.statusPointer completions.length)) :
    p.Receives first completions a (completedRecvNext a p).result
      (completedRecvNext a p).state := by
  obtain hn | hsome := ha
  · have hfail : completedRecvNext a p = ⟨.error .deviceFault, p, []⟩ := by
      simp [completedRecvNext, hn, refreshPointer, bind_apply]
    rw [hfail]
    exact .failed ⟨rfl, rfl, rfl, rfl⟩ ⟨queue, h⟩ fun hp => by simp [hn] at hp
  · have hptr : (p.statusPointer completions.length).toNat =
        p.status.entry completions.length := h.status.toNat_entry _
    generalize p.statusPointer completions.length = pointer at hsome hptr
    have hcall : completedRecvNext a p = settleReceive a (p.status.accessBegin pointer).checkpoint
          p.status.entrySize (p.status.accessBegin pointer).destinationNext.1
          { p with status := (p.status.accessBegin pointer).destinationNext.2 } := by
      simp [completedRecvNext, hsome, refreshPointer, onStatus, statusStep, bind_apply]
      rfl
    obtain ⟨hle, hcomp⟩ := h.completed
    have hneed := h.needed
    rw [hcall]
    by_cases hl : p.status.tail = p.status.entry completions.length
    · have heq : first = completions.length := by
        rw [h.tail] at hl
        exact h.status.entry_inj hl hle
          (by rw [h.entries]; exact show _ < first + p.places by omega)
      have hstep : (p.status.accessBegin pointer).destinationNext =
          (none, p.status.accessBegin pointer) := by
        simp [destinationNext, accessBegin, hptr, hl]
      rw [hstep]
      cases hpub : a.publication with
      | true =>
        simp only [settleReceive, hpub, Answered, if_true]
        exact .empty heq.symm ⟨queue, h.restated _⟩
      | false =>
        simp only [settleReceive, hpub, Answered]
        exact .failed ⟨rfl, rfl, rfl, rfl⟩ ⟨queue, h.restated _⟩ fun _ hclean => by
          simp [hclean.publication] at hpub
    · have hne : first ≠ completions.length := fun heq => hl (heq ▸ h.tail)
      have hlt : first < completions.length := lt_of_le_of_ne hle hne
      obtain ⟨loop, hstep⟩ := (h.status.accessBegin pointer).2.destinationNext_eq h.told
        (by simpa [accessBegin, hptr] using hl)
      rw [hstep]
      exact h.settles (getElem?_eq_getElem hlt) a _ loop

/-! ### Completing -/

/-- The device writes the buffer of a place, as far as it reaches, and the
status entry. -/
def complete (p : ReceiveSide) (place : Nat) (status : CeDestinationStatusDescriptor)
    (written : Bytes) : Option (Completion × ReceiveSide) :=
  let slot := place % p.places
  (p.destinationSlots[slot]?).join.map fun buffer =>
    let memory := written.take buffer.capacity ++ buffer.memory.drop written.length
    (⟨status, memory⟩, { p with
      destinationSlots := p.destinationSlots.set slot (some { buffer with memory })
      statusMemory := p.statusMemory.set slot status })

theorem Posted.complete (hlt : completions.length < first + queue.length)
    (status : CeDestinationStatusDescriptor) (written : Bytes) :
    ∃ c p' queue', p.complete completions.length status written = some (c, p') ∧
      p'.Posted first (completions ++ [c]) queue' := by
  obtain ⟨hle, -⟩ := h.completed
  obtain ⟨k, hk⟩ := Nat.exists_eq_add_of_le hle
  have hkq : k < queue.length := by omega
  have hneed := h.needed
  have hget := h.holds.get (Nat.lt_trans hkq h.room)
  rw [← hk, h.slotCount, getElem?_eq_getElem hkq] at hget
  have hset : ∀ y, Holds (p.destinationSlots.set (completions.length % p.places) (some y)) first
      (queue.set k y) := fun y => by
    have hexch := h.holds.exchange (y := y) hkq
    rwa [← hk, h.slotCount] at hexch
  -- the new completion is that of the place `k` of the queue
  have hcases : ∀ {d : Completion} (j : Nat) (c : Completion),
      (completions ++ [d])[first + j]? = some c →
      j = k ∧ c = d ∨ j < k ∧ completions[first + j]? = some c := by
    intro d j c hc
    grind
  refine ⟨_, _, queue.set k ⟨written.take queue[k].capacity ++
    queue[k].memory.drop written.length, queue[k].cpuOwned⟩,
    by rw [ReceiveSide.complete, hget]; rfl, ?_⟩
  exact { h with
    slotCount := by simpa using h.slotCount
    statusCount := by simpa using h.statusCount
    holds := hset _
    needed := by simpa using h.needed
    head := by simpa using h.head
    completed := by
      rw [length_append, length_singleton, length_set]
      omega
    memory := fun j c hc => by
      obtain ⟨rfl, rfl⟩ | ⟨hj, hc⟩ := hcases j c hc
      · rw [getElem?_set_self hkq]
        rfl
      · rw [getElem?_set_ne (by omega)]
        exact h.memory j c hc
    statusMemory := fun j c hc => by
      obtain ⟨rfl, rfl⟩ | ⟨hj, hc⟩ := hcases j c hc
      · refine .inl ?_
        rw [← hk, getElem?_set_self]
        rw [h.statusCount]
        exact Nat.mod_lt _ h.destination.entries
      · refine (h.statusMemory j c hc).imp_left fun hstat => ?_
        rw [getElem?_set_ne]
        · exact hstat
        · intro heq
          have hwrap : completions.length < first + j + p.places := by
            omega
          have := eq_of_mod_eq heq.symm (by omega) hwrap
          omega
    pending := fun record hrec => by
      obtain ⟨hoff, c, hc, hpacket⟩ := h.pending record hrec
      refine ⟨hoff, c, ?_, hpacket⟩
      rw [getElem?_append_left (lt_of_getElem? hc)]
      exact hc }

end

end ReceiveSide

/-! ## Runs -/

/-- The pipes, and for each what the device has completed and what was
handed out. -/
structure RxWorld where
  pipes : List InitializedPipe
  completions : Nat → List Completion
  delivered : Nat → List Bytes

/-- `read` is whether the pointer of the status ring could be read; that of
the answers is not used. The device completes the next posted buffer, if
there is one, with any status and any contents. -/
inductive RxOp where
  | completedRecvNext (pipe : Nat) (read : Bool) (answers : RecvAnswers)
  | rxPostPipe (pipe : Nat) (answers : Nat → PostAnswers)
  | complete (pipe : Nat) (status : CeDestinationStatusDescriptor) (written : Bytes)

variable (w : RxWorld)

namespace RxWorld

def new (pipes : List InitializedPipe) : RxWorld := ⟨pipes, fun _ => [], fun _ => []⟩

section
variable (pipe : Nat)

def receive : Option ReceiveSide := w.pipes[pipe]?.bind (·.receive)

/-- What reading the device's pointer answers. -/
def pointer (read : Bool) : Option UInt32 :=
  if read then (w.receive pipe).map (·.statusPointer (w.completions pipe).length) else none

def completedRecvNext (read : Bool) (answers : RecvAnswers) :
    Outcome (List InitializedPipe) Empty CeError (Option Bytes) :=
  CePipes.completedRecvNext pipe { answers with pointer := w.pointer pipe read } w.pipes

/-- How many buffers were posted. -/
def posted (p : ReceiveSide) : Nat :=
  (w.delivered pipe).length + p.destinationSlots.countP Option.isSome

def complete (status : CeDestinationStatusDescriptor) (written : Bytes) :
    Option (Completion × ReceiveSide) := do
  let p ← w.receive pipe
  if (w.completions pipe).length < w.posted pipe p then
    p.complete (w.completions pipe).length status written
  else none

def setReceive (p : ReceiveSide) : List InitializedPipe :=
  w.pipes.modify pipe fun whole => { whole with receive := some p }

end

def exec : RxOp → RxWorld
  | .completedRecvNext pipe read answers =>
    let o := w.completedRecvNext pipe read answers
    match o.result with
    | .ok (some bytes) => { w with
        pipes := o.state
        delivered := Function.update w.delivered pipe (w.delivered pipe ++ [bytes]) }
    | _ => { w with pipes := o.state }
  | .rxPostPipe pipe answers => { w with pipes := (rxPostPipe pipe answers w.pipes).state }
  | .complete pipe status written =>
    match w.complete pipe status written with
    | none => w
    | some (c, p) => { w with
        pipes := w.setReceive pipe p
        completions := Function.update w.completions pipe (w.completions pipe ++ [c]) }

def run (ops : List RxOp) : RxWorld := ops.foldl exec w

end RxWorld

variable {pipes : List InitializedPipe}

namespace CePipes

/-- A pipe without a receive side aside, `rx_post_pipe` runs on it. -/
theorem rxPostPipe_state {pipe : Nat} (answers : Nat → PostAnswers) :
    (rxPostPipe pipe answers pipes).state =
      (onReceive pipe (ReceiveSide.rxPostPipe answers) pipes).state := by
  unfold rxPostPipe
  split
  next source hget => simp [onReceive, hget]
  · rfl

end CePipes

namespace RxWorld

open ReceiveSide

/-- On every status ring, what was handed out are the packets of the first
completions, and the buffers after them are posted. -/
def Sound : Prop :=
  ∀ i p, w.receive i = some p →
    (w.delivered i).map some =
      ((w.completions i).take (w.delivered i).length).map Completion.packet ∧
    Posting (w.delivered i).length (w.completions i) p

variable {w : RxWorld}

theorem Sound.receives (h : w.Sound) {pipe : Nat} {p : ReceiveSide} (hp : w.receive pipe = some p)
    (read : Bool) (answers : RecvAnswers) :
    let after := (ReceiveSide.completedRecvNext
      { answers with pointer := w.pointer pipe read } p).state
    (w.completedRecvNext pipe read answers).state[pipe]?.bind (·.receive) = some after ∧
      p.Receives (w.delivered pipe).length (w.completions pipe)
        { answers with pointer := w.pointer pipe read }
        (w.completedRecvNext pipe read answers).result after := by
  obtain ⟨-, queue, hposted⟩ := h pipe p hp
  rw [completedRecvNext, CePipes.completedRecvNext, CePipes.onReceive_eq]
  obtain ⟨hres, -, hst⟩ := CePipes.onSide_some (l := CePipes.receive)
    (ReceiveSide.completedRecvNext { answers with pointer := w.pointer pipe read }) hp
  refine ⟨hst, ?_⟩
  rw [hres]
  refine hposted.receives _ ?_
  cases read with
  | false => exact .inl rfl
  | true => exact .inr (by simp [pointer, hp])

theorem Sound.completedRecvNext (h : w.Sound) (pipe : Nat) (read : Bool) (answers : RecvAnswers) :
    (w.exec (.completedRecvNext pipe read answers)).Sound := by
  have hrece := fun p (hp : w.receive pipe = some p) => (h.receives hp read answers).2
  simp only [exec]
  generalize hcall : w.completedRecvNext pipe read answers = o at hrece ⊢
  rw [RxWorld.completedRecvNext, CePipes.completedRecvNext, CePipes.onReceive_eq] at hcall
  subst hcall
  split
  next bytes hsome =>
    refine CePipes.onSide_each (l := CePipes.receive) h (fun i hi p hI => ?_) fun p hp => ?_
    · simpa [Function.update_of_ne hi] using hI
    · have hr := hrece p hp
      rw [hsome] at hr
      cases hr with
      | delivered hc hpacket hposting =>
        simp only [Function.update_self]
        refine ⟨?_, by simpa using hposting⟩
        rw [map_append, (h pipe p hp).1, length_append, length_singleton,
          take_add_one, hc, map_append]
        simp [hpacket]
  next hother =>
    refine CePipes.onSide_each (l := CePipes.receive) h (fun _ _ _ hI => hI) fun p hp => ?_
    have hr := hrece p hp
    refine ⟨(h pipe p hp).1, ?_⟩
    generalize (CePipes.onSide CePipes.receive pipe _ w.pipes).result = result at hr hother
    cases hr with
    | failed _ hposting | empty _ hposting => exact hposting
    | delivered => exact absurd rfl (hother _)

theorem Sound.rxPostPipe (h : w.Sound) (pipe : Nat) (answers : Nat → PostAnswers) :
    (w.exec (.rxPostPipe pipe answers)).Sound := by
  simp only [exec, rxPostPipe_state, onReceive_eq]
  refine CePipes.onSide_each (l := CePipes.receive) h (fun _ _ _ hI => hI) fun p hp => ?_
  obtain ⟨hpkts, queue, hposted⟩ := h pipe p hp
  exact ⟨hpkts, hposted.rxPostPipe answers⟩

theorem Sound.complete (h : w.Sound) (pipe : Nat) (status : CeDestinationStatusDescriptor)
    (written : Bytes) : (w.exec (.complete pipe status written)).Sound := by
  simp only [exec]
  split
  · exact h
  next c p' hcompl =>
    obtain ⟨p, hp, hcompl⟩ := Option.bind_eq_some_iff.mp hcompl
    split at hcompl
    next hlt =>
      obtain ⟨hpkts, queue, hposted⟩ := h pipe p hp
      rw [posted, hposted.holds.countP] at hlt
      obtain ⟨c', p'', queue', hsome, hpost'⟩ := hposted.complete hlt status written
      rw [hsome] at hcompl
      cases hcompl
      obtain ⟨whole, hget, -⟩ := Option.bind_eq_some_iff.mp hp
      intro i q hq
      by_cases hi : i = pipe
      · subst hi
        obtain rfl : p' = q := by
          simpa [receive, setReceive, getElem?_modify, hget] using hq
        simp only [Function.update_self]
        refine ⟨?_, queue', hpost'⟩
        rw [hpkts, take_append_of_le_length hposted.completed.1]
      · simp only [Function.update_of_ne hi]
        exact h i q (by simpa [receive, setReceive, Ne.symm hi] using hq)
    · cases hcompl

theorem Sound.run (h : w.Sound) (ops : List RxOp) : (w.run ops).Sound := by
  induction ops generalizing w with
  | nil => exact h
  | cons op rest ih =>
    refine ih ?_
    cases op with
    | completedRecvNext pipe read answers => exact h.completedRecvNext pipe read answers
    | rxPostPipe pipe answers => exact h.rxPostPipe pipe answers
    | complete pipe status written => exact h.complete pipe status written

end RxWorld

/-! ## Initial pipes -/

variable {statusMemory : Nat → CeDestinationStatusDescriptor} {p : ReceiveSide}

/-- A pipe that was just set up has no buffers, and needs all but two. -/
theorem InitializedPipe.initReceive_posted {config : HostPipeConfig} {pipeNumber : UInt8} {m : Nat}
    (hturn : config.destinationEntries.toNat = 2 ^ (m + 1))
    (h : initReceive config pipeNumber statusMemory = .ok (some p)) :
    p.Posted 0 [] [] ∧ p.destination.memory.entries = config.destinationEntries := by
  unfold initReceive at h
  split at h
  · cases h
  · obtain ⟨destination, hdest, h⟩ := bind_eq_ok.mp h
    obtain ⟨status, hstat, h⟩ := bind_eq_ok.mp h
    cases h
    have htwo : 2 ≤ config.destinationEntries.toNat := by
      have := Nat.two_pow_pos m
      omega
    have hpos : 0 < config.destinationEntries.toNat := by omega
    have hsub : (config.destinationEntries - 2).toNat = config.destinationEntries.toNat - 2 :=
      UInt16.toNat_sub_of_le _ _ (UInt16.le_iff_toNat_le.mpr htwo)
    have hd := (setup_sound hdest hpos).1
    have hs := (setup_sound hstat hpos).1
    obtain ⟨id, rfl⟩ := eq_of_setup hdest
    obtain ⟨id', rfl⟩ := eq_of_setup hstat
    refine ⟨?_, rfl⟩
    constructor
    · exact hd
    · rfl
    · exact hs
    · rfl
    · rfl
    · exact ⟨m + 1, hturn⟩
    · simp [allocateCeRing]
    · simp [allocateCeRing]
    · exact .replicate _ _
    · show 0 + (config.destinationEntries - 2).toNat + 2 = config.destinationEntries.toNat
      omega
    · simp
    · simp [entry]
    · simp [entry]
    · simp
    · simp
    · simp
    · simp

theorem wcn6750_destinationEntries :
    ∀ config ∈ wcn6750HostCeConfig, config.destinationEntries = 0 ∨
      config.destinationEntries = 512 := by
  decide

theorem wcn6750_posted (h : initPipes statusMemory wcn6750HostCeConfig 0 = .ok pipes) {i : Nat}
    (hp : pipes[i]?.bind (·.receive) = some p) : p.Posted 0 [] [] := by
  obtain ⟨whole, hwhole, hside⟩ := Option.bind_eq_some_iff.mp hp
  obtain ⟨config, hmem, pipeNumber, -, hrecv⟩ := initPipes_get h hwhole
  rw [hside] at hrecv
  obtain hz | hentries := wcn6750_destinationEntries config hmem
  · rw [InitializedPipe.initReceive, if_pos hz] at hrecv
    cases hrecv
  · refine (InitializedPipe.initReceive_posted (m := 8) ?_ hrecv).1
    rw [hentries]
    rfl

/-- On every receive ring, at every moment of every run, whatever fails:
what was handed out are the packets of the first completions, in order and
unaltered; the buffers posted and those needed are the entries of the ring
but two. The next call, if it fails, leaves the cursor, the slots, the
index and the count; if it answers a packet, it is that of the next
completion; and it does answer it when nothing fails. -/
theorem ce_receive_once (statusMemory : Nat → CeDestinationStatusDescriptor)
    (pipes : List InitializedPipe)
    (hinit : CePipes.initPipes statusMemory wcn6750HostCeConfig 0 = .ok pipes) (ops : List RxOp)
    (pipe : Nat) (p : ReceiveSide) (hp : ((RxWorld.new pipes).run ops).receive pipe = some p) :
    let w := (RxWorld.new pipes).run ops
    let next := (w.completions pipe)[(w.delivered pipe).length]?
    (w.delivered pipe).map some =
      ((w.completions pipe).take (w.delivered pipe).length).map Completion.packet ∧
    p.destinationSlots.countP Option.isSome + p.rxBuffersNeeded.toNat =
      p.destinationSlots.length - 2 ∧
    ∀ read answers, (∀ e, (w.completedRecvNext pipe read answers).result = .error e →
        ∃ p', (w.completedRecvNext pipe read answers).state[pipe]?.bind (·.receive) = some p' ∧
          p.Untouched p') ∧
      (∀ bytes, (w.completedRecvNext pipe read answers).result = .ok (some bytes) →
        next.bind Completion.packet = some bytes) ∧
      (answers.Clean → ∀ c, next = some c → ∀ bytes, c.packet = some bytes →
        (w.completedRecvNext pipe true answers).result = .ok (some bytes)) := by
  intro w next
  have hstart : (RxWorld.new pipes).Sound := fun i q hq => ⟨rfl, [], wcn6750_posted hinit hq⟩
  have hsound : w.Sound := hstart.run ops
  obtain ⟨hpkts, queue, hposted⟩ := hsound pipe p hp
  refine ⟨hpkts, ?_, fun read answers => ⟨fun e he => ?_, fun bytes hbs => ?_, ?_⟩⟩
  · rw [hposted.holds.countP, hposted.slotCount, ← hposted.needed]
    omega
  · obtain ⟨hp', hr⟩ := hsound.receives hp read answers
    rw [he] at hr
    cases hr with
    | failed huntouched => exact ⟨_, hp', huntouched⟩
  · obtain ⟨-, hr⟩ := hsound.receives hp read answers
    rw [hbs] at hr
    cases hr with
    | delivered hc hpacket =>
      show Option.bind (w.completions pipe)[(w.delivered pipe).length]? _ = _
      rw [hc]
      exact hpacket
  · intro hclean c hnx bytes hpacket
    obtain ⟨-, hr⟩ := hsound.receives hp true answers
    generalize (w.completedRecvNext pipe true answers).result = result at hr ⊢
    have hc : (w.completions pipe)[(w.delivered pipe).length]? = some c := hnx
    cases hr with
    | failed huntouched hpost' hreason =>
      have hread : (w.pointer pipe true).isSome := by
        rw [RxWorld.pointer, if_pos rfl, show w.receive pipe = some p from hp]
        rfl
      obtain ⟨c', hc', hn⟩ := hreason hread { hclean with }
      rw [hc] at hc'
      cases hc'
      rw [hpacket] at hn
      cases hn
    | empty =>
      have hlt := lt_of_getElem? hc
      omega
    | delivered hc' hpkt' =>
      rw [hc] at hc'
      cases hc'
      rw [hpacket] at hpkt'
      cases hpkt'
      rfl

/-- Three buffers of a pipe are posted before memory runs out, and two are
completed; the first packet is handed out when its index could be published
at last. -/
def receiving : List RxOp :=
  let receive (published : Bool) : RxOp :=
    .completedRecvNext 1 true ⟨none, true, true, true, true, .ok (), published⟩
  [.rxPostPipe 1 fun needed =>
      ⟨if needed < 507 then none else some fun _ => 0, true, some 0, true, true⟩,
    .complete 1 ⟨0, 3⟩ [7, 8, 9], .complete 1 ⟨0, 1⟩ [5], receive false, receive true]

def wcn6750Pipes : List InitializedPipe :=
  (initPipes (fun _ => ⟨0, 0⟩) wcn6750HostCeConfig 0).toOption.getD []

def received : RxWorld := (RxWorld.new wcn6750Pipes).run receiving

theorem ce_receive_once_delivered :
    received.delivered 1 = [[7, 8, 9]] ∧ (∃ p, received.receive 1 = some p ∧
      p.destinationSlots.countP Option.isSome + p.rxBuffersNeeded.toNat =
        p.destinationSlots.length - 2) ∧
      (received.completedRecvNext 1 true ⟨none, true, true, true, true, .ok (), true⟩).result =
        .ok (some [5]) := by
  have hsome : (received.receive 1).isSome := by decide +kernel
  have hnext : (received.completions 1)[(received.delivered 1).length]?.bind Completion.packet =
      some [5] := by
    decide +kernel
  obtain ⟨p, hp⟩ := Option.isSome_iff_exists.mp hsome
  obtain ⟨c, hc, hpacket⟩ := Option.bind_eq_some_iff.mp hnext
  have honce := ce_receive_once (fun _ => ⟨0, 0⟩) wcn6750Pipes rfl receiving 1 p hp
  rw [← received] at honce
  obtain ⟨-, hneeded, hcall⟩ := honce
  refine ⟨by decide +kernel, ⟨p, hp, hneeded⟩, ?_⟩
  exact (hcall true _).2.2 ⟨rfl, rfl, rfl, rfl, rfl, rfl⟩ c hc [5] hpacket

end Drv.Ath11k
