import Drv.Base.Bytes

/-!
# Writers and readers that agree

`Lawful limit put get P` says of a writer and a reader that, on the
values `P`:

- what the writer appends, when it is at most `limit` bytes, is taken
  back off the front as the same value, whatever follows; and
- whatever the reader accepts is a value of `P`, and the bytes it took
  are the very bytes the writer appends for that value.

The second half is what makes a format canonical. The size limit belongs
to the law because a reader may bound a count by the packet size while
the writer leaves that bound to a single check of the whole packet.

The rest of the module is one rule per shape a codec has: fields in
sequence, a conversion that may refuse, a constructor behind a tag, a
counted list. A codec's law is assembled from these rules along its
definition.
-/

namespace Drv

open List Put

section
variable {ε α β : Type}

/-- The reader takes exactly `bs` off the front and answers `a`. -/
def Yields (get : Get ε α) (bs : Bytes) (a : α) : Prop := ∀ rest, get (bs ++ rest) = .ok (a, rest)

theorem Yields.pure (a : α) : Yields (pure a : Get ε α) [] a := fun _ => rfl

variable {get : Get ε α} {k : α → Get ε β} {a : α} {b : β}

theorem Yields.bind {as bs : Bytes} (ha : Yields get as a) (hb : Yields (k a) bs b) :
    Yields (get >>= k) (as ++ bs) b := by
  intro rest
  rw [append_assoc, get_bind_eq_ok]
  exact ⟨a, bs ++ rest, ha _, hb rest⟩

/-- `Yields.bind` for a last step that takes no byte. -/
theorem Yields.andThen {as : Bytes} (ha : Yields get as a) (hb : Yields (k a) [] b) :
    Yields (get >>= k) as b := by
  simpa only [append_nil] using ha.bind hb

/-- A writer and a reader that agree on the values `P`, for writings of at
most `limit` bytes. -/
structure Lawful (limit : Nat) (put : α → Put ε) (get : Get ε α) (P : α → Prop) : Prop where
  reads : ∀ {a bs}, P a → put a = .ok bs → bs.length ≤ limit → Yields get bs a
  exact : ∀ {input a rest}, get input = .ok (a, rest) →
    P a ∧ ∃ bs, put a = .ok bs ∧ input = bs ++ rest

variable {input rest : Bytes} {put' : β → Put ε}

namespace Lawful

variable {limit : Nat} {put : α → Put ε} {get : Get ε α} {P : α → Prop}

/-- A reader whose domain is everything is decided by the writer's bytes. -/
theorem eq_ok {bs : Bytes} (h : Lawful limit put get P) (ha : P a) (hput : put a = .ok bs)
    (hlen : bs.length ≤ limit) : get input = .ok (a, rest) ↔ input = bs ++ rest := by
  constructor
  · intro hget
    obtain ⟨-, cs, hcs, rfl⟩ := h.exact hget
    rw [hput, Except.ok.injEq] at hcs
    rw [hcs]
  · rintro rfl
    exact h.reads ha hput hlen rest

/-! ## Fields in sequence -/

/-- Nothing left to write, and the reader answers the one value left. -/
theorem done (ha : P a) (hP : ∀ x, P x → x = a) :
    Lawful limit (fun _ => (seq [] : Put ε)) (pure a) P where
  reads := by
    rintro x bs hx h -
    obtain rfl := hP x hx
    obtain rfl := seq_nil_eq_ok.mp h
    exact .pure x
  exact := by
    intro input x rest h
    cases h
    exact ⟨ha, [], rfl, rfl⟩

variable {Q : β → Prop} {puts : β → List (Put ε)}

section
variable (h : Lawful limit put get P)
include h

/-- Write one field, then the rest; read the field, then the rest knowing
the field. `proj` is the field of the value under construction. -/
theorem field (proj : β → α) (hQ : ∀ b, Q b → P (proj b))
    (hk : ∀ a, P a → Lawful limit (fun b => seq (puts b)) (k a) fun b => proj b = a ∧ Q b) :
    Lawful limit (fun b => seq (put (proj b) :: puts b)) (get >>= k) Q where
  reads := by
    intro b bs hb hput hlen
    obtain ⟨as, cs, ha, hc, rfl⟩ := seq_cons_eq_ok.mp hput
    rw [length_append] at hlen
    exact (h.reads (hQ b hb) ha (by omega)).bind ((hk _ (hQ b hb)).reads ⟨rfl, hb⟩ hc (by omega))
  exact := by
    intro input b rest hget
    obtain ⟨a, mid, ha, hb⟩ := get_bind_eq_ok.mp hget
    obtain ⟨hPa, as, hputa, rfl⟩ := h.exact ha
    obtain ⟨⟨rfl, hQb⟩, cs, hputb, rfl⟩ := (hk a hPa).exact hb
    refine ⟨hQb, as ++ cs, ?_, (append_assoc ..).symm⟩
    exact seq_cons_eq_ok.mpr ⟨as, cs, hputa, hputb, rfl⟩

theorem last : Lawful limit (fun a => seq [put a]) get P where
  reads := by
    intro a bs ha hput hlen
    obtain ⟨as, cs, hputa, hnil, rfl⟩ := seq_cons_eq_ok.mp hput
    obtain rfl := seq_nil_eq_ok.mp hnil
    rw [append_nil] at hlen ⊢
    exact h.reads ha hputa hlen
  exact := by
    intro input a rest hget
    obtain ⟨hP, bs, hput, rfl⟩ := h.exact hget
    refine ⟨hP, bs, ?_, rfl⟩
    exact seq_cons_eq_ok.mpr ⟨bs, [], hput, rfl, (append_nil bs).symm⟩

/-! ## Conversions and constructors -/

/-- Read a carrier value, then convert it or refuse. `proj` is the way
back to the carrier, and `conv` accepts exactly what `proj` answers. -/
theorem through (proj : β → α) {conv : α → Except ε β} (hQ : ∀ b, Q b → P (proj b))
    (hconv : ∀ a b, P a → (conv a = .ok b ↔ proj b = a ∧ Q b)) :
    Lawful limit (fun b => put (proj b)) (get >>= fun a => Get.check (conv a)) Q where
  reads := by
    intro b bs hb hput hlen
    refine (h.reads (hQ b hb) hput hlen).andThen fun rest => ?_
    exact Get.check_eq_ok.mpr ⟨(hconv _ b (hQ b hb)).mpr ⟨rfl, hb⟩, rfl⟩
  exact := by
    intro input b rest hget
    obtain ⟨a, mid, ha, hb⟩ := get_bind_eq_ok.mp hget
    obtain ⟨hab, rfl⟩ := Get.check_eq_ok.mp hb
    obtain ⟨hPa, bs, hput, rfl⟩ := h.exact ha
    obtain ⟨rfl, hQb⟩ := (hconv a b hPa).mp hab
    exact ⟨hQb, bs, hput, rfl⟩

theorem con (con : α → β) (hput : ∀ a, P a → put' (con a) = put a)
    (hQ : ∀ b, Q b ↔ ∃ a, P a ∧ con a = b) :
    Lawful limit put' (get >>= fun a => Pure.pure (con a)) Q where
  reads := by
    intro b bs hb hb' hlen
    obtain ⟨a, ha, rfl⟩ := (hQ b).mp hb
    rw [hput a ha] at hb'
    exact (h.reads ha hb' hlen).andThen (.pure _)
  exact := by
    intro input b rest hget
    obtain ⟨a, mid, ha, hb⟩ := get_bind_eq_ok.mp hget
    cases hb
    obtain ⟨hPa, bs, hputa, rfl⟩ := h.exact ha
    exact ⟨(hQ _).mpr ⟨a, hPa, rfl⟩, bs, by rw [hput a hPa, hputa], rfl⟩

end

theorem plain (h : Lawful limit put get fun _ => True) (proj : β → α)
    (hk : ∀ a, Lawful limit (fun b => seq (puts b)) (k a) fun b => proj b = a ∧ Q b) :
    Lawful limit (fun b => seq (put (proj b) :: puts b)) (get >>= k) Q :=
  h.field proj (fun _ _ => trivial) fun a _ => hk a

end Lawful

/-! ## Scalars and chunks -/

def putU8 (v : UInt8) : Put ε := .ok [v]
def putU16 (v : UInt16) : Put ε := .ok (Bytes.ofNatLE 2 v.toNat)
def putU32 (v : UInt32) : Put ε := .ok (Bytes.ofNatLE 4 v.toNat)
def putU64 (v : UInt64) : Put ε := .ok (Bytes.ofNatLE 8 v.toNat)
def putArray {n : Nat} (v : List.Vector UInt8 n) : Put ε := .ok v.toList

def takeU8 (short : ε) : Get ε UInt8 := fun input =>
  match input with
  | [] => .error short
  | b :: rest => .ok (b, rest)

def takeU16 (short : ε) : Get ε UInt16 := do return UInt16.ofNat (← takeNatLE short 2)
def takeU32 (short : ε) : Get ε UInt32 := do return UInt32.ofNat (← takeNatLE short 4)
def takeU64 (short : ε) : Get ε UInt64 := do return UInt64.ofNat (← takeNatLE short 8)

theorem takeU8_eq_ok {short : ε} {b : UInt8} :
    takeU8 short input = .ok (b, rest) ↔ input = b :: rest := by
  cases input with
  | nil => simp [takeU8]
  | cons => simp [takeU8]

section
variable (limit : Nat)

section
variable (short : ε)

theorem takeU8_lawful : Lawful limit putU8 (takeU8 short) fun _ => True where
  reads := by
    rintro b bs - h -
    cases h
    exact fun rest => takeU8_eq_ok.mpr rfl
  exact := by
    intro input b rest h
    exact ⟨trivial, [b], rfl, takeU8_eq_ok.mp h⟩

theorem takeNatLE_lawful (w : Nat) :
    Lawful limit (fun n => .ok (Bytes.ofNatLE w n)) (takeNatLE short w) (· < 256 ^ w) where
  reads := by
    rintro n bs hn h -
    cases h
    have htake : Yields (takeBytes short w) (.ofNatLE w n) (.ofNatLE w n) :=
      fun rest => takeBytes_eq_ok.mpr ⟨Bytes.length_ofNatLE w n, rfl⟩
    exact htake.andThen (by rw [Bytes.toNatLE_ofNatLE hn]; exact .pure n)
  exact := by
    intro input n rest h
    obtain ⟨bs, mid, hb, hn⟩ := get_bind_eq_ok.mp h
    cases hn
    obtain ⟨rfl, rfl⟩ := takeBytes_eq_ok.mp hb
    exact ⟨Bytes.toNatLE_lt bs, bs, by rw [Bytes.ofNatLE_toNatLE], rfl⟩

theorem takeU16_lawful : Lawful limit putU16 (takeU16 short) fun _ => True := by
  refine (takeNatLE_lawful limit short 2).con UInt16.ofNat (fun n hn => ?_) fun v => ?_
  · rw [putU16, UInt16.toNat_ofNat_of_lt' hn]
  · exact ⟨fun _ => ⟨v.toNat, v.toNat_lt, UInt16.ofNat_toNat⟩, fun _ => trivial⟩

theorem takeU32_lawful : Lawful limit putU32 (takeU32 short) fun _ => True := by
  refine (takeNatLE_lawful limit short 4).con UInt32.ofNat (fun n hn => ?_) fun v => ?_
  · rw [putU32, UInt32.toNat_ofNat_of_lt' hn]
  · exact ⟨fun _ => ⟨v.toNat, v.toNat_lt, UInt32.ofNat_toNat⟩, fun _ => trivial⟩

theorem takeU64_lawful : Lawful limit putU64 (takeU64 short) fun _ => True := by
  refine (takeNatLE_lawful limit short 8).con UInt64.ofNat (fun n hn => ?_) fun v => ?_
  · rw [putU64, UInt64.toNat_ofNat_of_lt' hn]
  · exact ⟨fun _ => ⟨v.toNat, v.toNat_lt, UInt64.ofNat_toNat⟩, fun _ => trivial⟩

theorem takeArray_lawful (n : Nat) : Lawful limit putArray (takeArray short n) fun _ => True where
  reads := by
    rintro v bs - h - rest
    cases h
    have hle : n ≤ (v.toList ++ rest).length := by
      rw [length_append, v.toList_length]; omega
    rw [takeArray, dif_pos hle]
    exact congrArg Except.ok (Prod.ext (Subtype.ext (take_left' v.toList_length))
      (drop_left' v.toList_length))
  exact := by
    intro input v rest h
    unfold takeArray at h
    split at h
    next hle =>
      cases h
      exact ⟨trivial, input.take n, rfl, (take_append_drop n input).symm⟩
    next => cases h

end

end

/-! ## Length-prefixed chunks and counted lists -/

/-- A chunk of at most `max` bytes behind its length. -/
def putVec (max : Nat) (excess : ε) (v : Bytes) : Put ε :=
  if max < v.length then .error excess
  else seq [putU32 (UInt32.ofNat v.length), .ok v]

def takeVec (short : ε) (max : Nat) (excess : ε) : Get ε Bytes := do
  let n ← takeU32 short
  if max < n.toNat then throw excess else takeBytes short n.toNat

/-- A list behind its length. The writer does not bound the length. -/
def putCounted (put : α → Put ε) (xs : List α) : Put ε :=
  seq [putU32 (UInt32.ofNat xs.length), each put xs]

def takeCounted (short : ε) (bound : Nat) (excess : ε) (get : Get ε α) : Get ε (List α) := do
  let count ← takeU32 short
  if bound < count.toNat then throw excess else takeN get count.toNat

variable {limit : Nat}

theorem takeVec_lawful {max : Nat} (short excess : ε) (hmax : max < 4294967296) :
    Lawful limit (putVec max excess) (takeVec short max excess) fun _ => True where
  reads := by
    rintro v bs - hput -
    obtain ⟨hle, hput⟩ := guard_eq_ok.mp hput
    obtain ⟨as, cs, ha, hc, rfl⟩ := seq_cons_eq_ok.mp hput
    obtain ⟨_, _, ⟨⟩, hnil, rfl⟩ := seq_cons_eq_ok.mp hc
    obtain rfl := seq_nil_eq_ok.mp hnil
    have hlen : (UInt32.ofNat v.length).toNat = v.length :=
      UInt32.toNat_ofNat_of_lt' (by show v.length < 4294967296; omega)
    refine ((takeU32_lawful _ short).reads trivial ha le_rfl).bind fun rest => ?_
    rw [if_neg (by omega), hlen, append_nil]
    exact takeBytes_eq_ok.mpr ⟨rfl, rfl⟩
  exact := by
    intro input v rest hget
    obtain ⟨n, mid, hn, hv⟩ := get_bind_eq_ok.mp hget
    obtain ⟨hle, hv⟩ := get_guard_eq_ok.mp hv
    obtain ⟨-, as, ha, rfl⟩ := (takeU32_lawful limit short).exact hn
    obtain ⟨hlen, rfl⟩ := takeBytes_eq_ok.mp hv
    refine ⟨trivial, as ++ v, ?_, (append_assoc ..).symm⟩
    rw [putVec, if_neg (by omega), hlen, UInt32.ofNat_toNat, seq_cons_eq_ok]
    exact ⟨as, v, ha, by simp [seq, bind, Except.bind, pure, Except.pure], rfl⟩

variable {put : α → Put ε} {P : α → Prop}

section
variable (h : Lawful limit put get P)
include h

theorem takeN_reads : ∀ {xs : List α} {bs : Bytes}, (∀ x ∈ xs, P x) → each put xs = .ok bs →
    bs.length ≤ limit → Yields (takeN get xs.length) bs xs := by
  intro xs
  induction xs with
  | nil =>
    rintro bs - hput -
    obtain rfl := seq_nil_eq_ok.mp hput
    exact .pure []
  | cons x xs ih =>
    intro bs hP hput hlen
    obtain ⟨as, cs, ha, hc, rfl⟩ := seq_cons_eq_ok.mp hput
    rw [length_append] at hlen
    rw [forall_mem_cons] at hP
    exact (h.reads hP.1 ha (by omega)).bind ((ih hP.2 hc (by omega)).andThen (.pure _))

theorem takeN_exact : ∀ {n : Nat} {input : Bytes} {xs : List α} {rest : Bytes},
    takeN get n input = .ok (xs, rest) →
      xs.length = n ∧ (∀ x ∈ xs, P x) ∧ ∃ bs, each put xs = .ok bs ∧ input = bs ++ rest := by
  intro n
  induction n with
  | zero =>
    intro input xs rest hget
    cases hget
    exact ⟨rfl, by simp, [], rfl, rfl⟩
  | succ n ih =>
    intro input xs rest hget
    obtain ⟨x, mid, hx, hget⟩ := get_bind_eq_ok.mp hget
    obtain ⟨tail, last, htail, hget⟩ := get_bind_eq_ok.mp hget
    cases hget
    obtain ⟨hPx, as, hputx, rfl⟩ := h.exact hx
    obtain ⟨rfl, hPs, cs, hputs, rfl⟩ := ih htail
    refine ⟨rfl, forall_mem_cons.mpr ⟨hPx, hPs⟩, as ++ cs, ?_, (append_assoc ..).symm⟩
    exact seq_cons_eq_ok.mpr ⟨as, cs, hputx, hputs, rfl⟩

/-- A counted list reads back when its elements do and it is no longer
than the reader allows. Every element takes at least one byte, so a list
whose writing fits the limit has a length that fits its prefix. -/
theorem takeCounted_lawful {bound : Nat} (short excess : ε)
    (hlimit : limit < 4294967296) (hw : ∀ a bs, put a = .ok bs → 1 ≤ bs.length) :
    Lawful limit (putCounted put) (takeCounted short bound excess get)
      fun xs => xs.length ≤ bound ∧ ∀ x ∈ xs, P x where
  reads := by
    rintro xs bs ⟨hbound, hP⟩ hput hlen
    obtain ⟨as, cs, ha, hc, rfl⟩ := seq_cons_eq_ok.mp hput
    obtain ⟨es, _, he, hnil, rfl⟩ := seq_cons_eq_ok.mp hc
    obtain rfl := seq_nil_eq_ok.mp hnil
    rw [append_nil, length_append] at hlen
    have hcnt := each_length_le hw he
    have hlen32 : (UInt32.ofNat xs.length).toNat = xs.length :=
      UInt32.toNat_ofNat_of_lt' (by show xs.length < 4294967296; omega)
    refine ((takeU32_lawful _ short).reads trivial ha le_rfl).bind ?_
    rw [hlen32, if_neg (by omega), append_nil]
    exact takeN_reads h hP he (by omega)
  exact := by
    intro input xs rest hget
    obtain ⟨n, mid, hn, hxs⟩ := get_bind_eq_ok.mp hget
    obtain ⟨hle, hxs⟩ := get_guard_eq_ok.mp hxs
    obtain ⟨-, as, ha, rfl⟩ := (takeU32_lawful limit short).exact hn
    obtain ⟨hlen, hP, cs, hc, rfl⟩ := takeN_exact h hxs
    refine ⟨⟨by omega, hP⟩, as ++ cs, ?_, (append_assoc ..).symm⟩
    rw [putCounted, hlen, UInt32.ofNat_toNat, seq_cons_eq_ok]
    exact ⟨as, cs, ha, seq_cons_eq_ok.mpr ⟨cs, [], hc, rfl, (append_nil cs).symm⟩, rfl⟩

/-- When the elements are wide enough for the limit to imply the reader's
bound, the bound is no condition on the list. -/
theorem takeCounted_lawful_of_width {bound : Nat} (short excess : ε) {w : Nat}
    (hlimit : limit < 4294967296) (hwidth : 1 ≤ w) (hfit : limit < w * (bound + 1))
    (hw : ∀ a bs, put a = .ok bs → w ≤ bs.length) :
    Lawful limit (putCounted put) (takeCounted short bound excess get) fun xs => ∀ x ∈ xs, P x := by
  have hlaw : Lawful limit (putCounted put) (takeCounted short bound excess get) _ :=
    takeCounted_lawful h short excess hlimit fun a bs ha => hwidth.trans (hw a bs ha)
  refine ⟨fun {xs bs} hP hput hlen => hlaw.reads ⟨?_, hP⟩ hput hlen, fun hget => ?_⟩
  · obtain ⟨as, cs, -, hc, rfl⟩ := seq_cons_eq_ok.mp hput
    obtain ⟨es, _, he, -, rfl⟩ := seq_cons_eq_ok.mp hc
    have hcnt := each_length_le hw he
    simp only [length_append] at hlen
    by_contra hover
    have := Nat.mul_le_mul_left w (show bound + 1 ≤ xs.length by omega)
    omega
  · obtain ⟨⟨-, hP⟩, hput⟩ := hlaw.exact hget
    exact ⟨hP, hput⟩

end

/-! ## Constructors behind a tag byte -/

theorem tag_bind_eq_ok {k : UInt8 → Get ε β} {short : ε} :
    (takeU8 short >>= k) input = .ok (b, rest) ↔
      ∃ t mid, input = t :: mid ∧ k t mid = .ok (b, rest) := by
  simp only [get_bind_eq_ok, takeU8_eq_ok]

theorem Lawful.tag_reads (h : Lawful limit put get P) {t : UInt8} (con : α → β)
    {k : UInt8 → Get ε β} {short : ε} (hk : k t = get >>= fun a => pure (con a)) {bs : Bytes}
    (ha : P a) (hput : seq [putU8 t, put a] = .ok bs) (hlen : bs.length ≤ limit) :
    Yields (takeU8 short >>= k) bs (con a) := by
  obtain ⟨ts, as, ht, hputa, rfl⟩ := seq_cons_eq_ok.mp hput
  rw [length_append] at hlen
  refine ((takeU8_lawful limit short).reads trivial ht (by omega)).bind ?_
  rw [hk]
  exact (h.last.reads ha hputa (by omega)).andThen (.pure _)

/-- What stands behind a tag is what the writer of one constructor writes. -/
theorem Lawful.tag_exact (h : Lawful limit put get P) {t : UInt8} {con : α → β} {Q : β → Prop}
    {mid rest : Bytes} (hget : (get >>= fun a => pure (con a)) mid = .ok (b, rest))
    (hQ : ∀ a, P a → Q (con a)) (hput : ∀ a, put' (con a) = seq [putU8 t, put a]) :
    Q b ∧ ∃ bs, put' b = .ok bs ∧ t :: mid = bs ++ rest := by
  obtain ⟨a, last, ha, hb⟩ := get_bind_eq_ok.mp hget
  cases hb
  obtain ⟨hP, as, hputa, rfl⟩ := h.last.exact ha
  refine ⟨hQ a hP, t :: as, ?_, rfl⟩
  rw [hput]
  exact seq_cons_eq_ok.mpr ⟨[t], as, rfl, hputa, rfl⟩

end

end Drv
