import Drv.Laws.Wire.Fields

/-!
# Packets read back, and have one spelling

Above the parts: replies, commands, the message of each kind, and the
packet with its header. A packet's bytes are `Frame`d: both `encode` and
`decode` are characterised by the frame (`encode_eq_ok`,
`decode_eq_ok`), after which the two main results are about message
bodies only.

- `decode_canonical`: what `decode` accepts, `encode` writes, so no two
  byte strings decode to one packet.
- `decode_encode_iff`: what `encode` writes, `decode` gives back, except
  that an active scan of more than 84 SSIDs is written and not read.

How packets cross a socket is the subject of `Session`.
-/

namespace Drv.Wire

open Drv.Fidl List Bytes

variable {kind : UInt16} {input rest : Bytes} {m : Message} {bs : Bytes}

section
variable {α : Type} {put : α → Put Error} {get : Get Error α} {P : α → Prop}

/-! ## Replies and commands -/

theorem reply_lawful (h : Lawful maxPacket put get P) :
    Lawful maxPacket (encReply put) (decReply get) fun r => P r.result where
  reads := by
    rintro ⟨id, result⟩ bs hP hput hlen
    obtain ⟨hid, hput⟩ := guard_eq_ok.mp hput
    obtain ⟨as, cs, ha, hc, rfl⟩ := Put.seq_cons_eq_ok.mp hput
    rw [length_append] at hlen
    refine (u64_lawful.reads trivial ha (by omega)).bind ?_
    rw [if_neg hid]
    exact (h.last.reads hP hc (by omega)).andThen (.pure _)
  exact := by
    intro input r rest hget
    obtain ⟨id, mid, hid, hr⟩ := get_bind_eq_ok.mp hget
    obtain ⟨hne, hr⟩ := get_guard_eq_ok.mp hr
    obtain ⟨result, last, hres, ⟨⟩⟩ := get_bind_eq_ok.mp hr
    obtain ⟨-, as, ha, rfl⟩ := u64_lawful.exact hid
    obtain ⟨hP, cs, hc, rfl⟩ := h.last.exact hres
    refine ⟨hP, as ++ cs, ?_, (append_assoc ..).symm⟩
    rw [encReply, if_neg hne]
    exact Put.seq_cons_eq_ok.mpr ⟨as, cs, ha, hc, rfl⟩

theorem command_lawful (h : Lawful maxPacket put get P) :
    Lawful maxPacket (fun c : MonotonicDeadline × α => encCommand put c.1 c.2) (decCommand get)
      fun c => P c.2 := by
  have hdeadline := enum_lawful u64_lawful fun _ _ => MonotonicDeadline.fromNanos_eq_ok
  refine hdeadline.plain Prod.fst fun deadline => ?_
  refine h.field Prod.snd (fun _ h => h.2) fun args hArgs => ?_
  refine .done ⟨rfl, rfl, hArgs⟩ ?_
  rintro _ ⟨rfl, rfl, -⟩
  rfl

/-! ## Messages -/

theorem withKind_eq_ok {kind' : UInt16} {w : Put Error} :
    encodeMessage.withKind kind w = .ok (kind', bs) ↔ kind = kind' ∧ w = .ok bs := by
  cases w with
  | error e | ok cs => simp [encodeMessage.withKind, Except.map]

theorem kind_reads (h : Lawful maxPacket put get P) (con : α → Message) {kind' : UInt16}
    (hk : decodeMessage kind = get >>= fun a => pure (con a)) {a : α} (ha : P a)
    (hput : encodeMessage.withKind kind (put a) = .ok (kind', bs)) (hlen : bs.length ≤ maxPacket) :
    Yields (decodeMessage kind') bs (con a) := by
  obtain ⟨rfl, hbs⟩ := withKind_eq_ok.mp hput
  rw [hk]
  exact (h.reads ha hbs hlen).andThen (.pure _)

/-- The messages that read back: known, and an active scan names at most
84 SSIDs. -/
def Readable (m : Message) : Prop := m.Known ∧ m.scanSsids ≤ 84

theorem kind_exact (h : Lawful maxPacket put get P) {con : α → Message}
    (hget : (get >>= fun a => pure (con a)) input = .ok (m, rest))
    (hcon : ∀ a, P a → Readable (con a))
    (hput : ∀ a, encodeMessage (con a) = encodeMessage.withKind kind (put a)) :
    Readable m ∧ ∃ bs, encodeMessage m = .ok (kind, bs) ∧ input = bs ++ rest := by
  obtain ⟨a, last, ha, hm⟩ := get_bind_eq_ok.mp hget
  cases hm
  obtain ⟨hP, bs, hbs, rfl⟩ := h.exact ha
  refine ⟨hcon a hP, bs, ?_, rfl⟩
  rw [hput]
  exact withKind_eq_ok.mpr ⟨rfl, hbs⟩

end

theorem commandReply_lawful :
    Lawful maxPacket (putU8 ∘ commandReply) decCommandReplyByte fun _ => True :=
  enum_lawful u8_lawful decCommandReply_eq_ok

theorem unit_lawful :
    Lawful maxPacket (fun _ : Unit => (.ok [] : Put Error)) (pure ()) fun _ => True :=
  Lawful.done trivial fun _ _ => rfl

theorem message_reads (hm : Readable m) (hput : encodeMessage m = .ok (kind, bs))
    (hlen : bs.length ≤ maxPacket) : Yields (decodeMessage kind) bs m := by
  obtain ⟨hknown, hssids⟩ := hm
  cases m with
  | ready => obtain ⟨rfl, ⟨⟩⟩ := withKind_eq_ok.mp hput; exact .pure _
  | scan d v =>
    have hv : Admissible v := by cases v <;> first | exact hssids | trivial
    exact kind_reads (command_lawful scan_lawful) (fun c => .scan c.1 c.2) rfl
      (a := (d, v)) hv hput hlen
  | scanReply r =>
    have hr : ResultsKnown r.result := by
      obtain ⟨id, _ | results⟩ := r
      · trivial
      · exact hknown
    exact kind_reads (reply_lawful scanReply_lawful) .scanReply rfl hr hput hlen
  | connect d v =>
    exact kind_reads (command_lawful connect_lawful) (fun c => .connect c.1 c.2) rfl
      (a := (d, v)) hknown hput hlen
  | connectReply =>
    exact kind_reads (reply_lawful connectReply_lawful) .connectReply rfl hknown hput hlen
  | disconnect d v =>
    exact kind_reads (command_lawful (enum_lawful u32_lawful decDisconnectReason_eq_ok))
      (fun c => .disconnect c.1 c.2) rfl (a := (d, v)) trivial hput hlen
  | disconnectReply =>
    exact kind_reads (reply_lawful commandReply_lawful) .disconnectReply rfl trivial hput hlen
  | roam d v =>
    exact kind_reads (command_lawful bss_lawful) (fun c => .roam c.1 ⟨c.2⟩) rfl
      (a := (d, v.bssDescription)) hknown hput hlen
  | roamReply =>
    exact kind_reads (reply_lawful commandReply_lawful) .roamReply rfl trivial hput hlen
  | setPowerSave d v =>
    exact kind_reads (command_lawful (enum_lawful u8_lawful decPowerSaveMode_eq_ok))
      (fun c => .setPowerSave c.1 c.2) rfl (a := (d, v)) trivial hput hlen
  | setPowerSaveReply =>
    exact kind_reads (reply_lawful commandReply_lawful) .setPowerSaveReply rfl trivial hput hlen
  | event => exact kind_reads event_lawful .event rfl hknown hput hlen
  | generationEnd =>
    exact kind_reads (enum_lawful u8_lawful decGenerationEnd_eq_ok) .generationEnd rfl trivial
      hput hlen
  | deadlineExceeded =>
    exact kind_reads (reply_lawful unit_lawful) .deadlineExceeded rfl trivial hput hlen

theorem message_exact (hget : decodeMessage kind input = .ok (m, rest)) :
    Readable m ∧ ∃ bs, encodeMessage m = .ok (kind, bs) ∧ input = bs ++ rest := by
  unfold decodeMessage at hget
  split at hget
  next => cases hget; exact ⟨⟨trivial, Nat.zero_le _⟩, [], rfl, rfl⟩
  next =>
    refine kind_exact (command_lawful scan_lawful) hget ?_ fun _ => rfl
    rintro ⟨d, v⟩ hv
    cases v with
    | active => exact ⟨trivial, hv⟩
    | passive => exact ⟨trivial, Nat.zero_le _⟩
  next =>
    refine kind_exact (reply_lawful scanReply_lawful) hget ?_ fun _ => rfl
    rintro ⟨id, _ | results⟩ hr
    · exact ⟨trivial, Nat.zero_le _⟩
    · exact ⟨hr, Nat.zero_le _⟩
  next =>
    exact kind_exact (command_lawful connect_lawful)
      hget (fun _ h => ⟨h, Nat.zero_le _⟩) fun _ => rfl
  next =>
    exact kind_exact (reply_lawful connectReply_lawful)
      hget (fun _ h => ⟨h, Nat.zero_le _⟩) fun _ => rfl
  next =>
    exact kind_exact (command_lawful (enum_lawful u32_lawful decDisconnectReason_eq_ok))
      hget (fun _ h => ⟨h, Nat.zero_le _⟩) fun _ => rfl
  next =>
    exact kind_exact (reply_lawful commandReply_lawful)
      hget (fun _ h => ⟨h, Nat.zero_le _⟩) fun _ => rfl
  next =>
    exact kind_exact (command_lawful bss_lawful) hget (fun _ h => ⟨h, Nat.zero_le _⟩) fun _ => rfl
  next =>
    exact kind_exact (reply_lawful commandReply_lawful)
      hget (fun _ h => ⟨h, Nat.zero_le _⟩) fun _ => rfl
  next =>
    exact kind_exact (command_lawful (enum_lawful u8_lawful decPowerSaveMode_eq_ok))
      hget (fun _ h => ⟨h, Nat.zero_le _⟩) fun _ => rfl
  next =>
    exact kind_exact (reply_lawful commandReply_lawful)
      hget (fun _ h => ⟨h, Nat.zero_le _⟩) fun _ => rfl
  next => exact kind_exact event_lawful hget (fun _ h => ⟨h, Nat.zero_le _⟩) fun _ => rfl
  next =>
    exact kind_exact (enum_lawful u8_lawful decGenerationEnd_eq_ok)
      hget (fun _ h => ⟨h, Nat.zero_le _⟩) fun _ => rfl
  next =>
    exact kind_exact (reply_lawful unit_lawful) hget (fun _ h => ⟨h, Nat.zero_le _⟩) fun _ => rfl
  next => cases hget

/-! ## The frame -/

/-- The 32 header bytes after the magic. -/
def Header.bytes (h : Header) : Bytes :=
  ofNatLE 2 version.toNat ++ (ofNatLE 2 h.kind.toNat ++
    (ofNatLE 4 h.bodyLen.toNat ++ (h.generation.toList ++ ofNatLE 8 h.requestId.toNat)))

theorem Header.length_bytes (h : Header) : h.bytes.length = 32 := by
  simp only [Header.bytes, length_append, length_ofNatLE, Vector.toList_length]

/-- A packet's bytes: the magic, the header, the body. -/
def Frame (kind : UInt16) (generation : Generation) (requestId : UInt64) (body : Bytes) : Bytes :=
  magic ++ (Header.bytes ⟨kind, UInt32.ofNat body.length, generation, requestId⟩ ++ body)

theorem length_frame (kind : UInt16) (generation : Generation) (requestId : UInt64) (body : Bytes) :
    (Frame kind generation requestId body).length = headerLen + body.length := by
  simp only [Frame, length_append, Header.length_bytes, magic, headerLen, length_cons, length_nil]
  omega

theorem decHeader_eq_ok {h : Header} :
    decHeader input = .ok (h, rest) ↔ h.requestId ≠ 0 ∧ input = h.bytes ++ rest := by
  have u16_eq {v : UInt16} {i r : Bytes} : Reader.u16 i = .ok (v, r) ↔ i = ofNatLE 2 v.toNat ++ r :=
    u16_lawful.eq_ok trivial rfl (by rw [length_ofNatLE]; decide)
  have u32_eq {v : UInt32} {i r : Bytes} : Reader.u32 i = .ok (v, r) ↔ i = ofNatLE 4 v.toNat ++ r :=
    u32_lawful.eq_ok trivial rfl (by rw [length_ofNatLE]; decide)
  have u64_eq {v : UInt64} {i r : Bytes} : Reader.u64 i = .ok (v, r) ↔ i = ofNatLE 8 v.toNat ++ r :=
    u64_lawful.eq_ok trivial rfl (by rw [length_ofNatLE]; decide)
  have gen_eq {v : Generation} {i r : Bytes} : Reader.array 16 i = .ok (v, r) ↔ i = v.toList ++ r :=
    (array_lawful 16).eq_ok trivial rfl (by rw [v.toList_length]; decide)
  simp only [decHeader, get_bind_eq_ok, get_guard_eq_ok, u16_eq, u32_eq, u64_eq, gen_eq]
  constructor
  · rintro ⟨v, _, rfl, hver, kind, _, rfl, len, _, rfl, gen, _, rfl, id, _, rfl, hne, ⟨⟩⟩
    refine ⟨hne, ?_⟩
    simp only [Header.bytes, not_not.mp hver, append_assoc]
  · rintro ⟨hne, rfl⟩
    exact ⟨version, _, append_assoc .., not_not.mpr rfl, h.kind, _, append_assoc .., h.bodyLen, _,
      append_assoc .., h.generation, _, append_assoc .., h.requestId, _, rfl, hne, rfl⟩

theorem encode_eq_ok {p : Packet} {bytes : Bytes} :
    encode p = .ok bytes ↔ p.requestId ≠ 0 ∧ ∃ kind body,
      encodeMessage p.message = .ok (kind, body) ∧ headerLen + body.length ≤ maxPacket ∧
      bytes = Frame kind p.generation p.requestId body := by
  have hseq (kind : UInt16) (body : Bytes) : Put.seq [.ok magic, putU16 version, putU16 kind,
      putU32 (UInt32.ofNat body.length), putArray p.generation, putU64 p.requestId, .ok body] =
      (.ok (Frame kind p.generation p.requestId body) : Put Error) := by
    simp only [Put.seq, putU16, putU32, putU64, putArray, bind, Except.bind, pure, Except.pure,
      Frame, Header.bytes, append_nil, append_assoc]
  simp only [encode, guard_eq_ok, bind_eq_ok, Prod.exists, hseq, Except.ok.injEq, Nat.not_lt,
    @eq_comm _ bytes, ne_eq]

theorem decode_eq_ok {p : Packet} {bytes : Bytes} :
    decode bytes = .ok p ↔ p.requestId ≠ 0 ∧ ∃ kind body,
      decodeMessage kind body = .ok (p.message, []) ∧ headerLen + body.length ≤ maxPacket ∧
      bytes = Frame kind p.generation p.requestId body := by
  constructor
  · intro h
    obtain ⟨hmax, h⟩ := guard_eq_ok.mp h
    obtain ⟨hmin, h⟩ := guard_eq_ok.mp h
    obtain ⟨hmagic, h⟩ := guard_eq_ok.mp h
    obtain ⟨⟨hd, tail⟩, hh, h⟩ := bind_eq_ok.mp h
    obtain ⟨hbody, h⟩ := guard_eq_ok.mp h
    obtain ⟨⟨m, rest⟩, hm, h⟩ := bind_eq_ok.mp h
    obtain ⟨hrest, ⟨⟩⟩ := guard_eq_ok.mp h
    obtain ⟨hne, hhdr⟩ := decHeader_eq_ok.mp hh
    -- the header reader ran on exactly the 32 bytes it takes
    have htail : tail = [] := by
      have := congrArg length hhdr
      rw [length_append, Header.length_bytes, length_drop, length_take] at this
      unfold headerLen at this hmin
      exact length_eq_zero_iff.mp (by omega)
    rw [htail, append_nil] at hhdr
    have hlen : UInt32.ofNat (bytes.drop headerLen).length = hd.bodyLen := by
      rw [length_drop, ← not_not.mp hbody, UInt32.ofNat_toNat]
    refine ⟨hne, hd.kind, bytes.drop headerLen, by rw [hm, not_not.mp hrest], ?_, ?_⟩
    · rw [length_drop]
      omega
    · rw [Frame, hlen, ← hhdr, ← not_not.mp hmagic, ← append_assoc]
      have htake : bytes.take 4 = (bytes.take headerLen).take 4 := by
        rw [take_take]; rfl
      rw [htake, take_append_drop, take_append_drop]
  · rintro ⟨hne, kind, body, hm, hle, rfl⟩
    have hlen := length_frame kind p.generation p.requestId body
    rw [Frame, ← append_assoc] at hlen ⊢
    generalize hhd : Header.mk kind (UInt32.ofNat body.length) p.generation p.requestId = hd
      at hlen ⊢
    have hfront : (magic ++ hd.bytes).length = headerLen := by
      rw [length_append, Header.length_bytes]; rfl
    have hmagic : (magic ++ hd.bytes ++ body).take 4 = magic := by
      rw [append_assoc]
      exact take_left' rfl
    have hhdr : ((magic ++ hd.bytes ++ body).take headerLen).drop 4 = hd.bytes := by
      rw [take_left' hfront]
      exact drop_left' rfl
    rw [decode, if_neg (by omega), if_neg (by omega), if_neg (not_not.mpr hmagic), hhdr,
      drop_left' hfront]
    subst hhd
    refine bind_eq_ok.mpr ⟨(_, []), decHeader_eq_ok.mpr ⟨hne, (append_nil _).symm⟩, ?_⟩
    have hlen32 : (UInt32.ofNat body.length).toNat = body.length :=
      UInt32.toNat_ofNat_of_lt' (by
        unfold maxPacket at hle
        show body.length < 4294967296
        omega)
    dsimp only
    rw [if_neg (by rw [hlen32]; omega)]
    refine bind_eq_ok.mpr ⟨(p.message, []), hm, ?_⟩
    rfl

/-! ## Main results -/

/-- Every accepted byte string is the one its packet encodes to, so no two
byte strings decode to the same packet. -/
theorem decode_canonical {bytes : Bytes} {p : Packet} (h : decode bytes = .ok p) :
    encode p = .ok bytes ∧ ∀ bytes', decode bytes' = .ok p → bytes' = bytes := by
  have key {b : Bytes} (hb : decode b = .ok p) : encode p = .ok b := by
    obtain ⟨hid, kind, body, hm, hlen, rfl⟩ := decode_eq_ok.mp hb
    obtain ⟨-, bs, hput, hbody⟩ := message_exact hm
    rw [append_nil] at hbody
    subst hbody
    exact encode_eq_ok.mpr ⟨hid, kind, body, hput, hlen, rfl⟩
  refine ⟨key h, fun bytes' h' => ?_⟩
  have := (key h').symm.trans (key h)
  rwa [Except.ok.injEq] at this

/-- A scan for two networks on one channel. -/
def scanPacket : Packet :=
  ⟨List.Vector.replicate 16 7, 1,
    .scan ⟨1, by decide, by decide⟩ (.active ⟨[[97], [98, 99]], [36]⟩)⟩

theorem decode_canonical_scan :
    let bytes := Frame Kind.scan scanPacket.generation 1 [1, 0, 0, 0, 0, 0, 0, 0, 1, 2, 0, 0, 0,
      1, 0, 0, 0, 97, 2, 0, 0, 0, 98, 99, 1, 0, 0, 0, 36]
    encode scanPacket = .ok bytes ∧ ∀ bytes', decode bytes' = .ok scanPacket → bytes' = bytes :=
  decode_canonical (decode_eq_ok.mpr ⟨by decide, Kind.scan, _, rfl, by decide, rfl⟩)

/-- An encoded packet fits, and decodes to itself exactly when it is not
an active scan of more SSIDs than the reader admits. -/
theorem decode_encode_iff {p : Packet} {bytes : Bytes} (hknown : p.message.Known)
    (h : encode p = .ok bytes) :
    (bytes.length ≤ maxPacket ∧ decode bytes = .ok p) ↔ p.message.scanSsids ≤ 84 := by
  obtain ⟨hid, kind, body, hput, hlen, rfl⟩ := encode_eq_ok.mp h
  constructor
  · rintro ⟨-, hdec⟩
    obtain ⟨-, kind', body', hm, -, -⟩ := decode_eq_ok.mp hdec
    exact (message_exact hm).1.2
  · intro hssids
    refine ⟨by rw [length_frame]; exact hlen, decode_eq_ok.mpr ⟨hid, kind, body, ?_, hlen, rfl⟩⟩
    have hreads := message_reads ⟨hknown, hssids⟩ hput (by omega) []
    rwa [append_nil] at hreads

/-- An active scan that names the wildcard SSID once per listed slot. -/
def activeScan (count : Nat) : Packet :=
  ⟨List.Vector.replicate 16 7, 1,
    .scan ⟨1, by decide, by decide⟩ (.active ⟨replicate count [], []⟩)⟩

theorem decode_encode_activeScan_two :
    ∃ bytes, encode (activeScan 2) = .ok bytes ∧ decode bytes = .ok (activeScan 2) :=
  ⟨_, rfl, ((decode_encode_iff (p := activeScan 2) trivial rfl).mpr (by decide)).2⟩

set_option maxRecDepth 8192 in
/-- The writer does not bound the SSIDs of an active scan, the reader
does. -/
theorem activeScan_85_encoded_not_decoded :
    (activeScan 85).message.Known ∧ ∃ bytes, encode (activeScan 85) = .ok bytes ∧
      decode bytes = .error (.boundExceeded "scan SSIDs") :=
  ⟨trivial, _, rfl, rfl⟩

end Drv.Wire
