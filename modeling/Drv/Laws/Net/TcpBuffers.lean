import Drv.Net.TcpBuffers

/-!
# The byte streams of a TCP socket

Beside the buffers stand the streams they carry: which byte was last
written to each position of the receive stream, what the client read of
it, and what was accepted for sending. At every moment the client has read
what was written from the first position on, and the payload of a peek is
what was accepted from its position on.

`write_at` adds the caller's offset to the readable bytes in 64 bits. An
offset that makes the sum overflow reaches bytes that are readable
already, so a run is taken without such offsets.

How the core cuts the stream into segments is not modelled.
-/

namespace Drv.Net.TcpBuffers

open List SendBufferState Bytes

variable {count : Nat}

namespace TcpStorage

theorem copyAt_append {a b x y : Bytes} {start : Nat}
    (hx : x.length = min (x.length + y.length) (a.length - start)) :
    copyAt (a ++ b) start (x ++ y) =
      copyAt a start x ++ copyAt b (start - a.length) y := by
  simp only [copyAt, take_append, drop_append, length_append, append_assoc]
  congr 1
  have hends : a.length ≤ start + x.length ∨ y.length = 0 ∧ start + x.length ≤ a.length := by omega
  rcases hends with hle | ⟨hy, hle⟩
  · have hmid : b.take (start - a.length) ++ x = x ++ b.take (start - a.length) := by
      by_cases h : start ≤ a.length
      · simp [Nat.sub_eq_zero_of_le h]
      · simp [length_eq_zero_iff.mp (show x.length = 0 by omega)]
    have hlast : start + (x.length + y.length) - a.length = start - a.length + y.length := by omega
    rw [hlast, drop_eq_nil_of_le hle, drop_eq_nil_of_le (by omega)]
    simp [← append_assoc, hmid]
  · rw [length_eq_zero_iff] at hy
    subst hy
    simp [Nat.sub_eq_zero_of_le hle, Nat.sub_eq_zero_of_le (Nat.le_trans (Nat.le_add_right ..) hle)]

/-- Where the deque is split makes no difference to a copy. -/
theorem copySlices_eq (split : Nat) {start : Nat} {data bytes : Bytes} (hcnt : count ≤ data.length)
    (hfits : start + count ≤ bytes.length) :
    copySlices split start count data bytes = copyAt bytes start (data.take count) := by
  generalize hfst : min count ((bytes.take split).length - start) = first
  have hdata : data.take count = data.take first ++ (data.drop first).take (count - first) := by
    rw [← take_add, Nat.add_sub_cancel' (by omega)]
  have hcopy : (if first ≠ 0 then copyAt (bytes.take split) start (data.take first)
      else bytes.take split) = copyAt (bytes.take split) start (data.take first) := by
    split
    · rfl
    next h => simp [copyAt, not_not.mp h]
  have hlen : (copyAt (bytes.take split) start (data.take first)).length =
      (bytes.take split).length := by
    simp only [copyAt, length_append, length_take, length_drop] at *
    omega
  nth_rewrite 2 [← take_append_drop split bytes]
  rw [hdata, copyAt_append (by simp only [length_take, length_drop] at *; omega)]
  simp only [copySlices, asSlices, hfst, hcopy]
  congr 1
  split
  · rw [hlen]
  next h => simp [copyAt, not_not.mp h]

theorem read_eq (s : TcpStorage) (len split : Nat) :
    s.read len split = (s.bytes.take (min len s.readable), s.consume (min len s.readable)) := by
  have hbs := take_append_drop split s.bytes
  simp only [read, asSlices, Prod.mk.injEq, and_true]
  generalize min len s.readable = n
  generalize s.bytes.take split = a at hbs ⊢
  generalize s.bytes.drop split = b at hbs ⊢
  rw [← hbs, take_append, ← take_eq_take_min]
  congr 2
  omega

/-- What is stored fits, and what is readable is stored. -/
structure Fits (s : TcpStorage) : Prop where
  readable : s.readable ≤ s.bytes.length
  stored : s.bytes.length ≤ s.capacity

theorem Fits.ofSize (size : Nat) : (ofSize size).Fits := ⟨Nat.le_refl 0, Nat.zero_le _⟩

variable {s : TcpStorage}

theorem Fits.requestCapacity (h : s.Fits) (size : Nat) : (s.requestCapacity size).Fits := by
  refine ⟨h.readable, ?_⟩
  have hstore := h.stored
  simp only [TcpStorage.requestCapacity]
  split
  next hroom =>
    rcases hroom with hroom | hnil
    · omega
    · simp [hnil]
  · exact hstore

theorem Fits.consume (h : s.Fits) (hcnt : count ≤ s.readable) : (s.consume count).Fits := by
  have hread := h.readable
  have hstore := h.stored
  refine ⟨?_, ?_⟩ <;> simp only [TcpStorage.consume, length_drop]
  · omega
  · split
    next hnil =>
      have hlen := congrArg length hnil
      simp only [length_drop, length_nil] at hlen
      omega
    · omega

/-- Every byte of the payload that is taken is where it belongs, and the
bytes around it stay. -/
theorem writeAt_spec (h : s.Fits) (offset : Nat) (data : Bytes) (split : Nat) :
    let start := (s.readable + offset) % 2 ^ 64
    ∃ count bytes, s.writeAt offset data split = (count, { s with bytes }) ∧
      s.bytes.length ≤ bytes.length ∧ bytes.length ≤ s.capacity ∧
      ∀ i b, (if start ≤ i ∧ i < start + count then data[i - start]? else s.bytes[i]?) = some b →
        bytes[i]? = some b := by
  intro start
  have hstore := h.stored
  by_cases hnone : min data.length (s.capacity - start) = 0
  · refine ⟨0, s.bytes, if_pos hnone, Nat.le_refl _, hstore, fun i b hb => ?_⟩
    rwa [if_neg (by omega)] at hb
  · generalize hcnt : min data.length (s.capacity - start) = count at hnone
    let grown := s.bytes ++ replicate (max s.bytes.length (start + count) - s.bytes.length) 0
    have hgrown : grown.length = max s.bytes.length (start + count) := by
      simp only [grown, length_append, length_replicate]
      omega
    have hdata : (data.take count).length = count := length_take_of_le (by omega)
    have hfits : start + (data.take count).length ≤ grown.length := by omega
    refine ⟨count, copyAt grown start (data.take count), ?_, ?_, ?_, fun i b hb => ?_⟩
    · rw [← copySlices_eq split (by omega) (by omega)]
      show (if min data.length (s.capacity - start) = 0 then _ else _) = _
      rw [hcnt, if_neg hnone]
    · rw [length_copyAt hfits]
      omega
    · rw [length_copyAt hfits]
      omega
    · rw [getElem?_copyAt hfits, hdata]
      split at hb
      next hin => rw [if_pos hin, getElem?_take_of_lt (by omega), hb]
      next hout =>
        have hlt := (List.getElem?_eq_some_iff.mp hb).1
        rw [if_neg hout, getElem?_append_left hlt, hb]

end TcpStorage

/-! ## The streams -/

/-- The two buffers, with what was written to each position of the receive
stream, what the client read, what was accepted to send and how much of it
was marked as read. -/
structure TcpWorld where
  receive : TcpStorage
  send : SendBufferState
  written : Nat → Option UInt8
  output : Bytes
  accepted : Bytes
  marked : Nat

inductive TcpOp where
  | writeAt (offset : Nat) (data : Bytes) (split : Nat)
  | makeReadable (count : Nat)
  | read (len split : Nat)
  | requestReceive (size : Nat)
  | write (bytes : Bytes)
  | finishWrite (admitted : Bytes) (reserved : Bool)
  | markRead (count : Nat)
  | requestSend (size : Nat)

namespace TcpWorld

def new (receive send : Nat) : TcpWorld :=
  ⟨.ofSize receive, .running (.ofSize send), fun _ => none, [], [], 0⟩

section
variable (w : TcpWorld)

/-- The position of an offset in the receive stream. -/
def position (offset : Nat) : Nat := w.output.length + w.receive.readable + offset

/-- The stream after `count` bytes were written at an offset. -/
def overwritten (offset count : Nat) (data : Bytes) (p : Nat) : Option UInt8 :=
  if w.position offset ≤ p ∧ p < w.position offset + count then data[p - w.position offset]?
  else w.written p

def step : TcpOp → TcpWorld
  | .writeAt offset data split =>
    let (count, receive) := w.receive.writeAt offset data split
    { w with receive, written := w.overwritten offset count data }
  | .makeReadable count =>
    match w.receive.makeReadable count with
    | some receive => { w with receive }
    | none => w
  | .read len split =>
    let (out, receive) := w.receive.read len split
    { w with receive, output := w.output ++ out }
  | .requestReceive size => { w with receive := w.receive.requestCapacity size }
  | .write bytes =>
    let (n, send) := w.send.write bytes
    { w with send, accepted := w.accepted ++ bytes.take n }
  | .finishWrite admitted reserved =>
    match w.send.finishWrite admitted reserved with
    | .ok send => { w with send, accepted := w.accepted ++ admitted }
    | .error _ => w
  | .markRead count =>
    match w.send.markRead count with
    | some send => { w with send, marked := w.marked + count }
    | none => w
  | .requestSend size => { w with send := w.send.onStorage (·.requestCapacity size) }

/-- Bytes are made readable once they were written, and no offset makes the
sum overflow. -/
def Legal : TcpOp → Prop
  | .writeAt offset _ _ => w.receive.readable + offset < 2 ^ 64
  | .makeReadable count => ∀ j < count, (w.written (w.position j)).isSome
  | _ => True

def run (ops : List TcpOp) : TcpWorld := ops.foldl step w

end

def LegalRun : TcpWorld → List TcpOp → Prop
  | _, [] => True
  | w, op :: ops => w.Legal op ∧ (w.step op).LegalRun ops

structure Carries (w : TcpWorld) : Prop where
  receive : w.receive.Fits
  send : w.send.storage.Fits
  stored : ∀ j b, w.written (w.output.length + j) = some b → w.receive.bytes[j]? = some b
  readable : ∀ j < w.receive.readable, (w.written (w.output.length + j)).isSome
  read : ∀ i, i < w.output.length → w.written i = w.output[i]?
  whole : w.send.storage.readable = w.send.storage.bytes.length
  sent : w.marked ≤ w.accepted.length ∧ w.send.storage.bytes = w.accepted.drop w.marked

theorem new_carries (receive send : Nat) : (new receive send).Carries := by
  refine ⟨.ofSize _, .ofSize _, nofun, fun j hj => ?_, fun i hi => ?_, rfl, Nat.le_refl _, rfl⟩
  · exact absurd hj (Nat.not_lt_zero j)
  · exact absurd hi (Nat.not_lt_zero i)

variable {w : TcpWorld}

theorem overwritten_before {offset p : Nat} (data : Bytes) (hp : p < w.position offset) :
    w.overwritten offset count data p = w.written p := if_neg (by omega)

section
variable (h : w.Carries)
include h

theorem Carries.writeAt {offset : Nat} (hoff : w.receive.readable + offset < 2 ^ 64) (data : Bytes)
    (split : Nat) : (w.step (.writeAt offset data split)).Carries := by
  obtain ⟨count, bytes, hwrite, hgrown, hroom, hget⟩ :=
    TcpStorage.writeAt_spec h.receive offset data split
  rw [Nat.mod_eq_of_lt hoff] at hget
  have hread := h.receive.readable
  simp only [step, hwrite]
  refine { h with
    receive := ⟨hread.trans hgrown, hroom⟩
    stored := fun j b hb => hget j b ?_
    readable := fun j hj => ?_
    read := fun i hi => ?_ }
  · have hb : w.overwritten offset count data (w.output.length + j) = some b := hb
    simp only [overwritten, position, Nat.add_assoc, Nat.add_le_add_iff_left,
      Nat.add_lt_add_iff_left, Nat.add_sub_add_left] at hb ⊢
    split at hb
    next hin => rw [if_pos hin, hb]
    next hout =>
      rw [if_neg hout]
      exact h.stored j b hb
  · have hj : j < w.receive.readable := hj
    show (w.overwritten offset count data (w.output.length + j)).isSome
    rw [overwritten_before data (by unfold position; omega)]
    exact h.readable j hj
  · have hi : i < w.output.length := hi
    show w.overwritten offset count data i = w.output[i]?
    rw [overwritten_before data (by unfold position; omega)]
    exact h.read i hi

theorem Carries.makeReadable (hwr : ∀ j < count, (w.written (w.position j)).isSome) :
    (w.step (.makeReadable count)).Carries := by
  have hread := h.receive.readable
  simp only [step, TcpStorage.makeReadable]
  split
  next receive hsome =>
    split at hsome
    · cases hsome
      have hall : ∀ j < w.receive.readable + count, (w.written (w.output.length + j)).isSome := by
        intro j hj
        by_cases hold : j < w.receive.readable
        · exact h.readable j hold
        · have hnew := hwr (j - w.receive.readable) (by omega)
          rwa [position, Nat.add_assoc, Nat.add_sub_cancel' (by omega)] at hnew
      refine { h with receive := ⟨?_, h.receive.stored⟩, readable := hall }
      -- the last of them is stored, and so are all before it
      show w.receive.readable + count ≤ w.receive.bytes.length
      by_cases hz : w.receive.readable + count = 0
      · omega
      · obtain ⟨b, hb⟩ := Option.isSome_iff_exists.mp
          (hall (w.receive.readable + count - 1) (by omega))
        have hlt := (List.getElem?_eq_some_iff.mp (h.stored _ b hb)).1
        omega
    · cases hsome
  · exact h

theorem Carries.readStep (len split : Nat) : (w.step (.read len split)).Carries := by
  have hread := h.receive.readable
  generalize hn : min len w.receive.readable = n
  have hle : n ≤ w.receive.readable := by omega
  have hout : (w.receive.bytes.take n).length = n := length_take_of_le (by omega)
  simp only [step, TcpStorage.read_eq, hn]
  refine { h with
    receive := h.receive.consume hle
    stored := fun j b hb => ?_
    readable := fun j hj => ?_
    read := fun i hi => ?_ }
  · rw [length_append, hout, Nat.add_assoc] at hb
    show (w.receive.bytes.drop n)[j]? = some b
    rw [getElem?_drop]
    exact h.stored _ b hb
  · rw [length_append, hout, Nat.add_assoc]
    have hj' : j < w.receive.readable - n := hj
    exact h.readable (n + j) (by omega)
  · by_cases hold : i < w.output.length
    · rw [getElem?_append_left hold]
      exact h.read i hold
    · rw [length_append, hout] at hi
      obtain ⟨b, hb⟩ := Option.isSome_iff_exists.mp (h.readable (i - w.output.length) (by omega))
      have hstore := h.stored _ b hb
      rw [Nat.add_sub_cancel' (by omega)] at hb
      rw [getElem?_append_right (by omega), getElem?_take_of_lt (by omega), hstore]
      exact hb

variable {send : SendBufferState}

theorem Carries.sends {more : Bytes} (hfits : send.storage.Fits)
    (hwhole : send.storage.readable = send.storage.bytes.length)
    (hcnt : count ≤ w.send.storage.bytes.length)
    (hbs : send.storage.bytes = (w.send.storage.bytes ++ more).drop count) :
    { w with send, accepted := w.accepted ++ more, marked := w.marked + count }.Carries := by
  obtain ⟨hmark, hsent⟩ := h.sent
  have hlen := congrArg length hsent
  rw [length_drop] at hlen
  refine { h with send := hfits, whole := hwhole, sent := ⟨?_, ?_⟩ }
  · show w.marked + count ≤ (w.accepted ++ more).length
    rw [length_append]
    omega
  · show send.storage.bytes = (w.accepted ++ more).drop (w.marked + count)
    rw [hbs, hsent, ← drop_drop, drop_append_of_le_length hmark]

theorem Carries.accepts {more : Bytes} (hfits : send.storage.Fits)
    (hwhole : send.storage.readable = send.storage.bytes.length)
    (hbs : send.storage.bytes = w.send.storage.bytes ++ more) :
    { w with send, accepted := w.accepted ++ more }.Carries :=
  h.sends hfits hwhole (Nat.zero_le _) hbs

theorem Carries.write (bytes : Bytes) : (w.step (.write bytes)).Carries := by
  have hfits := h.send
  have hwhole := h.whole
  simp only [step]
  cases hsend : w.send with
  | shuttingDown =>
    rw [hsend] at hfits hwhole
    refine h.accepts hfits hwhole ?_
    rw [hsend]
    simp [SendBufferState.storage, SendBufferState.write]
  | running s =>
    rw [hsend] at hfits hwhole
    simp only [storage] at hfits hwhole
    have hread := hfits.readable
    have hstore := hfits.stored
    have hlen : (s.bytes ++ bytes.take (min bytes.length (s.capacity - s.readable))).length =
        s.readable + min bytes.length (s.capacity - s.readable) := by
      rw [length_append, length_take]
      omega
    refine h.accepts ⟨hlen.ge, hlen.le.trans ?_⟩ hlen.symm (by rw [hsend]; rfl)
    show s.readable + min bytes.length (s.capacity - s.readable) ≤ s.capacity
    omega

theorem Carries.finishWrite (admitted : Bytes) (reserved : Bool) :
    (w.step (.finishWrite admitted reserved)).Carries := by
  have hfits := h.send
  have hwhole := h.whole
  simp only [step]
  split
  next send hok =>
    unfold SendBufferState.finishWrite at hok
    split at hok
    · cases hok
    cases hsend : w.send with
    | shuttingDown =>
      rw [hsend] at hfits hwhole hok
      simp only at hok
      split at hok
      next hnil =>
        cases hok
        exact h.accepts hfits hwhole (by rw [hsend, hnil, append_nil])
      · cases hok
    | running s =>
      rw [hsend] at hfits hwhole hok
      simp only [storage] at hfits hwhole hok
      split at hok
      · cases hok
      · cases hok
        have hlen : (s.bytes ++ admitted).length = s.readable + admitted.length := by
          rw [length_append, hwhole]
        exact h.accepts ⟨hlen.ge, hlen.le.trans (Nat.le_max_right ..)⟩ hlen.symm
          (by rw [hsend]; rfl)
  · exact h

end

theorem storage_onStorage (b : SendBufferState) (f : TcpStorage → TcpStorage) :
    (b.onStorage f).storage = f b.storage := by
  cases b <;> rfl

theorem Carries.markRead (h : w.Carries) (count : Nat) : (w.step (.markRead count)).Carries := by
  have hwhole := h.whole
  simp only [step, SendBufferState.markRead]
  split
  next send hsome =>
    split at hsome
    next hcnt =>
      cases hsome
      have hmark : { w with
          send := w.send.onStorage (·.consume count)
          accepted := w.accepted ++ []
          marked := w.marked + count }.Carries := by
        apply h.sends <;> try rw [storage_onStorage]
        · exact h.send.consume hcnt
        · show w.send.storage.readable - count = (w.send.storage.bytes.drop count).length
          rw [length_drop, hwhole]
        · omega
        · rw [append_nil]
          rfl
      rwa [append_nil] at hmark
    · cases hsome
  · exact h

theorem Carries.requestSend (h : w.Carries) (size : Nat) :
    (w.step (.requestSend size)).Carries := by
  simp only [step]
  refine { h with send := ?_, whole := ?_, sent := ⟨h.sent.1, ?_⟩ }
  · rw [storage_onStorage]
    exact h.send.requestCapacity size
  · rw [storage_onStorage]
    exact h.whole
  · rw [storage_onStorage]
    exact h.sent.2

theorem Carries.step (h : w.Carries) {op : TcpOp} (hop : w.Legal op) : (w.step op).Carries := by
  cases op with
  | writeAt offset data split => exact h.writeAt hop data split
  | makeReadable => exact h.makeReadable hop
  | read len split => exact h.readStep len split
  | requestReceive size => exact { h with receive := h.receive.requestCapacity size }
  | write bytes => exact h.write bytes
  | finishWrite admitted reserved => exact h.finishWrite admitted reserved
  | markRead count => exact h.markRead count
  | requestSend size => exact h.requestSend size

theorem Carries.run (h : w.Carries) {ops : List TcpOp} (hops : w.LegalRun ops) :
    (w.run ops).Carries := by
  induction ops generalizing w with
  | nil => exact h
  | cons op ops ih => exact ih (h.step hops.1) hops.2

end TcpWorld

open TcpWorld

/-- In every state of a run whose offsets do not overflow: the client has
read what was written from the first position on, and reads what was
written next; a peek into fewer than 2 to the 32 bytes shows what was
accepted from its position on; what is readable is stored and what is
stored fits, whatever capacity is requested; and a sealed send side takes
nothing more. -/
theorem tcp_buffers_carry_streams (receive send : Nat) (ops : List TcpOp)
    (hops : (new receive send).LegalRun ops) :
    let w := (new receive send).run ops
    (∀ i, i < w.output.length → w.output[i]? = w.written i) ∧
    (∀ len split i, i < (w.receive.read len split).1.length →
      (w.receive.read len split).1[i]? = w.written (w.output.length + i)) ∧
    (w.send.storage.readable < 2 ^ 32 → ∀ offset start stop split payload,
      w.send.peekWith offset start stop split = some payload →
        payload = ((w.accepted.drop (w.marked + offset)).take stop).drop start) ∧
    (w.receive.readable ≤ w.receive.bytes.length ∧ w.receive.bytes.length ≤ w.receive.capacity) ∧
    (w.send.storage.readable ≤ w.send.storage.bytes.length ∧
      w.send.storage.bytes.length ≤ w.send.storage.capacity) ∧
    (∀ size, (w.receive.requestCapacity size).bytes = w.receive.bytes ∧
      (w.send.onStorage (·.requestCapacity size)).storage.bytes = w.send.storage.bytes) ∧
    ∀ s, w.send = .shuttingDown s → (∀ bytes, w.send.write bytes = (0, w.send)) ∧
      ∀ admitted reserved b, w.send.finishWrite admitted reserved = .ok b →
        admitted = [] ∧ b = w.send := by
  intro w
  have h : w.Carries := (new_carries receive send).run hops
  refine ⟨fun i hi => (h.read i hi).symm, fun len split i hi => ?_, fun hsmall => ?_,
    ⟨h.receive.readable, h.receive.stored⟩, ⟨h.send.readable, h.send.stored⟩,
    fun size => ⟨rfl, by rw [storage_onStorage]; rfl⟩, fun s hs => ?_⟩
  · have hnx := (h.readStep len split).read (w.output.length + i)
    rw [show (w.step (.read len split)).output = w.output ++ (w.receive.read len split).1 from rfl,
      length_append, getElem?_append_right (by omega), Nat.add_sub_cancel_left] at hnx
    exact (hnx (by omega)).symm
  · intro offset start stop split payload hpeek
    have hwhole := h.whole
    simp only [peekWith, asSlices, take_append_drop] at hpeek
    split at hpeek
    next hrng =>
      rw [Nat.mod_eq_of_lt (by omega), Nat.mod_eq_of_lt (by omega)] at hpeek
      cases hpeek
      rw [h.sent.2, ← drop_drop, ← take_drop, drop_drop]
    · cases hpeek
  · rw [hs]
    refine ⟨fun bytes => rfl, fun admitted reserved b hok => ?_⟩
    unfold finishWrite at hok
    split at hok
    · cases hok
    · simp only at hok
      split at hok
      next hnil =>
        cases hok
        exact ⟨hnil, rfl⟩
      · cases hok

/-- A byte out of order, then the one before it. -/
theorem tcp_buffers_carry_streams_reordered :
    let ops : List TcpOp :=
      [.writeAt 1 [8] 0, .writeAt 0 [7] 1, .makeReadable 2, .read 2 1, .write [5], .markRead 1]
    let w := (new 16 16).run ops
    w.output = [7, 8] ∧ ∀ i, i < w.output.length → w.output[i]? = w.written i := by
  intro ops w
  refine ⟨by decide, (tcp_buffers_carry_streams 16 16 ops ?_).1⟩
  have hfst : 0 + 1 < 2 ^ 64 := by decide
  have hsnd : 0 + 0 < 2 ^ 64 := by decide
  refine ⟨hfst, hsnd, ?_, trivial, trivial, trivial, trivial⟩
  simp only [Legal]
  decide

/-- An offset that wraps around reaches the byte that is readable. -/
theorem tcp_buffers_wrapped_offset :
    let w := (new 16 16).run
      [.writeAt 0 [7] 0, .makeReadable 1, .writeAt (2 ^ 64 - 1) [9] 0, .read 1 0]
    w.output = [9] ∧ w.written 0 = some 7 := by
  decide

end Drv.Net.TcpBuffers
