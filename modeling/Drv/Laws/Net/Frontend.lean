import Drv.Net.Frontend

/-!
# Truthful readiness

What `poll` reports of a live connected stream socket, of the provider's
endpoint and of a netlink channel is what a call that may not wait finds
(`Truthful`), exactly if a socket that polls writable has room for a whole
chunk (`Roomy`) and one that polls readable has something to tell
(`Telling`). Calls that wait, and what wakes them, are not looked at.
-/

namespace Drv.Net.Frontend

namespace Socket

variable (s : Socket)

/-- A live connected stream socket. -/
def Up : Prop := s.alive ∧ s.stream ∧ s.stage = .connected

/-- A send admits something, unless the socket is shut down for sending, the
memory of the first chunk fails or the count of all bytes would overflow. -/
def Admits (fault : Nat → Option Fault) (result : Except Errno Nat) : Prop :=
  (∃ n > 0, result = .ok n) ∨ s.shutdown &&& 2 ≠ 0 ∧ result = .error epipe ∨
    (∃ f, fault 0 = some f ∧ result = .error f.errno) ∨
    2 ^ 64 ≤ s.txTail + payload ∧ result = .error eoverflow

/-- The address of a record is one that the socket takes. -/
def Takes (family : Nat) (r : Record) : Prop :=
  if s.stream then r.zero = true ∨ r.family ≠ none else r.family = some family

/-- There is room for a whole chunk, if it is needed. -/
def Roomy : Prop :=
  s.Up → s.writable → s.shutdown &&& 2 = 0 →
    s.tx.length < maxPackets ∧ s.txBytes + payload ≤ limit

/-- A byte is queued. -/
def Held (offset : Nat) (rx : List Nat) : Prop :=
  offset < rx.headD 0 ∨ ∃ packet ∈ rx.tail, 0 < packet

/-- An error other than EAGAIN or the end of the stream is there to be told. -/
def Ended : Prop := s.error ≠ eagain ∧ (s.error ≠ 0 ∨ s.eof ∨ s.shutdown &&& 1 ≠ 0)

def Telling : Prop := s.Up → s.readable → Held s.rxOffset s.rx ∨ s.Ended

end Socket

structure Truthful (s : Socket) (c : Channel) : Prop where
  send : s.Up → s.writable → ∀ len fault, 0 < len → s.Admits fault (s.send len fault).1
  recv : s.Up → s.readable → ∀ len peek waitall fault,
    (s.recv len peek waitall fault).1 ≠ .error eagain
  provider : s.providerWritable → ∀ family r, r.length ≤ payload → s.Takes family r →
    (s.write family r false).1 = .ok ()
  netlink : c.writable → ∀ len ≤ maxMessage, (c.send len false).1 = .ok len

namespace Socket

variable {s : Socket} {len : Nat}

/-! ## Sending -/

theorem chunks_of_pos (h : 0 < len) : ∃ rest, chunks len = min len payload :: rest := by
  by_cases hlen : len < payload
  · rw [chunks, Nat.div_eq_of_lt hlen, Nat.mod_eq_of_lt hlen, if_neg (by omega),
      Nat.min_eq_left (by omega)]
    exact ⟨[], rfl⟩
  · obtain ⟨k, hk⟩ : ∃ k, len / payload = k + 1 :=
      Nat.exists_eq_add_one.mpr (Nat.div_pos (by omega) (by decide))
    rw [chunks, hk, List.replicate_succ, Nat.min_eq_right (by omega)]
    exact ⟨_, rfl⟩

theorem admitChunks_of_pos {fault : Nat → Option Fault} {done : Nat} (h : 0 < done) (l : List Nat) :
    ∃ n > 0, (s.admitChunks fault done l).1 = .ok n := by
  induction l generalizing s done with
  | nil => exact ⟨done, h, rfl⟩
  | cons count rest ih =>
    simp only [admitChunks, h, if_true]
    -- every turn stops with what was admitted, or goes on with more
    repeat' split
    all_goals first | exact ⟨done, h, rfl⟩ | exact ih (by omega)

theorem admits_ne (fault : Nat → Option Fault) : ¬ s.Admits fault (.error eagain) := by
  rintro (⟨n, -, h⟩ | ⟨-, h⟩ | ⟨f, -, h⟩ | ⟨-, h⟩)
  · cases h
  · exact absurd (Except.error.inj h) (by decide)
  · cases f <;> exact absurd (Except.error.inj h) (by decide)
  · exact absurd (Except.error.inj h) (by decide)

/-- The first chunk decides. -/
theorem send_admits_iff (h : s.Up) (hlen : 0 < len) (fault : Nat → Option Fault) :
    s.Admits fault (s.send len fault).1 ↔ (s.shutdown &&& 2 = 0 →
      s.tx.length < maxPackets ∧ s.txBytes + min len payload ≤ limit) := by
  obtain ⟨hlive, -, hstage⟩ := h
  obtain ⟨rest, hchunks⟩ := chunks_of_pos hlen
  have hpos : 0 < min len payload := Nat.le_min.mpr ⟨hlen, by decide⟩
  have hopen : s.openEndpoint = .ok s := by simp [openEndpoint, hstage]
  rw [send, if_neg (by omega)]
  split
  next hshut => exact iff_of_true (.inr (.inl ⟨hshut, rfl⟩)) fun h => absurd h hshut
  next hshut =>
  rw [hopen]
  dsimp only
  rw [if_pos hstage, hchunks, admitChunks, Nat.max_eq_left hpos, if_neg (by simp [hlive]),
    if_neg hshut]
  split
  next hf =>
    refine iff_of_false (admits_ne fault) fun h => ?_
    have := h (not_not.mp hshut)
    omega
  next hroom =>
  refine iff_of_true ?_ fun _ => by omega
  cases hfault : fault 0 with
  | some f => exact .inr (.inr (.inl ⟨f, hfault, rfl⟩))
  | none =>
    dsimp only
    split
    · exact .inr (.inr (.inr ⟨by omega, rfl⟩))
    · exact .inl (admitChunks_of_pos (by omega) rest)

/-! ## Receiving -/

theorem held_rest {offset packet : Nat} {rest : List Nat} (h : packet ≤ offset) :
    Held offset (packet :: rest) ↔ Held 0 rest := by
  cases rest <;> simp [Held, Nat.not_lt.mpr h]

/-- With something to tell a receive does not come back empty. -/
theorem take_ne_again {done : Nat} {peek waitall : Bool} {fault : Nat → Bool} (l : List Nat)
    (hlive : s.alive) (hd : done ≤ len) (h : 0 < done ∨ Held s.rxOffset l ∨ s.Ended) :
    (s.take len peek waitall fault done l).1 ≠ .error eagain := by
  induction l generalizing s done with
  | nil =>
    rw [take]
    split
    · exact nofun
    next hn =>
    rcases h with h | h | ⟨hagain, hend⟩
    · exact absurd h hn
    · simp [Held] at h
    · simp only [hlive, Bool.true_eq_false, if_false]
      split
      · exact fun he => hagain (Except.error.inj he)
      next herr => simp [hend.resolve_left herr]
  | cons packet rest ih =>
    rw [take]
    dsimp only
    split
    · split
      · exact nofun
      · exact fun he => absurd (Except.error.inj he) (by decide)
    split
    · exact nofun
    next hstop =>
    -- the loop goes on with all of the packet, which may be empty
    simp only [not_or, Bool.not_eq_true] at hstop
    obtain ⟨rfl, hm, -⟩ := hstop
    have hcnt : min (len - done) (packet - s.rxOffset) = packet - s.rxOffset := by omega
    rw [hcnt] at hm ⊢
    simp only [Bool.false_eq_true, if_false, if_true]
    apply ih
    · exact hlive
    · omega
    · rcases h with h | h | h
      · exact .inl (by omega)
      · by_cases hnil : packet ≤ s.rxOffset
        · exact .inr (.inl ((held_rest hnil).mp h))
        · exact .inl (by omega)
      · exact .inr (.inr h)

/-- Nothing is queued but empty packets, which a receive that waits for all
of its bytes passes over. -/
theorem take_of_not_held (l : List Nat) (h : ¬ Held s.rxOffset l) (hlive : s.alive)
    (hended : ¬ s.Ended) : (s.take 1 false true (fun _ => false) 0 l).1 = .error eagain := by
  induction l generalizing s with
  | nil =>
    simp only [take, hlive, Nat.lt_irrefl, if_false, Bool.true_eq_false]
    split
    next herr =>
      have hagain : s.error = eagain := by_contra fun hne => hended ⟨hne, .inl herr⟩
      rw [hagain]
    next herr =>
      have hne : s.error ≠ eagain := by
        rw [not_not.mp herr]
        decide
      rw [if_neg fun hend => hended ⟨hne, .inr hend⟩]
  | cons packet rest ih =>
    have hnil : packet ≤ s.rxOffset := Nat.not_lt.mp fun hlt => h (.inl hlt)
    rw [take]
    simp only [Nat.sub_eq_zero_of_le hnil, Nat.min_zero, Bool.false_eq_true, if_false, if_true,
      Nat.add_zero, false_or, Nat.zero_ne_one, Bool.true_eq_false]
    apply ih
    · exact fun hheld => h ((held_rest hnil).mpr hheld)
    · exact hlive
    · exact hended

/-! ## The provider -/

theorem write_of_writable (h : s.providerWritable) {family : Nat} {r : Record}
    (hlen : r.length ≤ payload) (htakes : s.Takes family r) :
    (s.write family r false).1 = .ok () := by
  simp only [providerWritable, Bool.and_eq_true, decide_eq_true_eq] at h
  obtain ⟨⟨hlive, hpkts⟩, hbs⟩ := h
  have hroom : s.rxBytes + max r.length 1 ≤ limit := by
    have : payload ≤ limit ∧ 1 ≤ payload := by decide
    omega
  rw [write, if_neg (by omega), if_neg nofun, if_neg (by simp [hlive]), if_neg (by omega), if_neg]
  · split <;> rfl
  · rw [Takes] at htakes
    split <;> simp_all [or_iff_not_imp_left]

end Socket

theorem Channel.send_of_writable {c : Channel} {len : Nat} (h : c.writable)
    (hlen : len ≤ maxMessage) : (c.send len false).1 = .ok len := by
  simp only [writable, Bool.and_eq_true, decide_eq_true_eq] at h
  obtain ⟨⟨hlive, hpkts⟩, hbs⟩ := h
  rw [send, if_neg (by omega), if_neg (by simp [hlive]), if_pos ⟨hpkts, by omega⟩]
  rfl

/-! ## The result -/

theorem readiness_truthful_iff (s : Socket) (c : Channel) : Truthful s c ↔ s.Roomy ∧ s.Telling := by
  constructor
  · intro h
    constructor
    · intro hup hwr hshut
      have hadm := h.send hup hwr payload (fun _ => none) (by decide)
      rw [Socket.send_admits_iff hup (by decide), Nat.min_self] at hadm
      exact hadm hshut
    · intro hup hread
      by_contra hn
      obtain ⟨hheld, hended⟩ := not_or.mp hn
      apply h.recv hup hread 1 false true fun _ => false
      exact Socket.take_of_not_held _ hheld hup.1 hended
  · rintro ⟨hroomy, htelling⟩
    constructor
    case send =>
      intro hup hwr len fault hlen
      rw [Socket.send_admits_iff hup hlen]
      intro hshut
      have hroom := hroomy hup hwr hshut
      omega
    case recv =>
      intro hup hread len peek waitall fault
      rw [Socket.recv]
      split
      · exact nofun
      · exact Socket.take_ne_again _ hup.1 (Nat.zero_le _) (.inr (htelling hup hread))
    case provider => exact fun h _ _ => Socket.write_of_writable h
    case netlink => exact fun h _ => Channel.send_of_writable h

/-- Fifteen chunks and a byte are to be sent on a socket that was accepted. -/
def crowded : Socket :=
  let s : Socket := { stream := true, stage := .connected }
  ((s.send (15 * payload) fun _ => none).2.send 1 fun _ => none).2

/-- It polls writable, and a whole chunk does not fit. -/
theorem writable_refused : crowded.alive = true ∧ crowded.writable = true ∧
    (crowded.send payload fun _ => none).1 = .error eagain := by
  decide +kernel

end Drv.Net.Frontend
