import Drv.Net.DnsWire

/-!
# Round trips of the resolver wire

Both sides are compared with one layout: `requestLayout` of a name and
`responseLayout` of a status and some addresses. The writers write the
layout, and the readers accept exactly the layouts. No slice of either
side is out of bounds.

The resolution behind the wire is not part of this.
-/

namespace Drv.Net.DnsWire

open List Bytes

/-- Bytes that carry nothing. -/
abbrev zeros (n : Nat) : Bytes := replicate n 0

theorem split_eight {m n : Nat} (input : List.Vector UInt8 m) (hm : m = n + 8) :
    ∃ b0 b1 b2 b3 b4 b5 b6 b7 body, input.toList = [b0, b1, b2, b3, b4, b5, b6, b7] ++ body ∧
      body.length = n := by
  subst hm
  match input with
  | ⟨b0 :: b1 :: b2 :: b3 :: b4 :: b5 :: b6 :: b7 :: body, h⟩ =>
    exact ⟨b0, b1, b2, b3, b4, b5, b6, b7, body, rfl, by simpa using h⟩

/-! ## Readers -/

section
variable {α : Type} {x : Checked (Option α)} {P : α → Prop}

/-- A reader stays in bounds and accepts the value that is meant, if there is one. -/
def Reads (x : Checked (Option α)) (P : α → Prop) : Prop :=
  ∃ answer, x = .ok answer ∧ ∀ v, answer = some v ↔ P v

namespace Reads

theorem refuses (h : ∀ v, ¬ P v) : Reads (.ok none) P :=
  ⟨none, rfl, fun v => ⟨nofun, fun hv => (h v hv).elim⟩⟩

theorem guard {c : Prop} [Decidable c] (hc : ∀ v, P v → ¬ c) (hx : ¬ c → Reads x P) :
    Reads (if c then .ok none else x) P := by
  split
  next h => exact refuses fun v hv => hc v hv h
  next h => exact hx h

theorem eq_some (h : Reads x P) {v : α} : x = .ok (some v) ↔ P v := by
  obtain ⟨answer, rfl, hans⟩ := h
  rw [← hans, Except.ok.injEq]

theorem isOk (h : Reads x P) : x.isOk := by
  obtain ⟨answer, rfl, -⟩ := h
  rfl

end Reads

end

/-! ## Names -/

theorem fromUtf8_eq_some {b : Bytes} {name : String} :
    fromUtf8 b = some name ↔ b = asBytes name := by
  unfold fromUtf8 String.fromUTF8?
  constructor
  · intro h
    split at h
    · cases h
      rfl
    · cases h
  · rintro rfl
    have hval : (ByteArray.mk (asBytes name).toArray).IsValidUTF8 := name.isValidUTF8
    rw [dif_pos hval]
    rfl

/-- A name that a request can hold. -/
def Holdable (name : String) : Prop :=
  asBytes name ≠ [] ∧ (asBytes name).length ≤ 254 ∧ 0 ∉ asBytes name

def requestLayout (name : String) : Bytes :=
  magic ++ ofNatLE 2 (asBytes name).length ++ [0, 0] ++ asBytes name ++
    zeros (256 - (asBytes name).length)

theorem request_of_holdable {name : String} (h : Holdable name) :
    ∃ out, request name = .ok (some out) ∧ out.toList = requestLayout name := by
  obtain ⟨hne, hshort, hnul⟩ := h
  have hacc : ¬ (asBytes name = [] ∨ (asBytes name).length > 254 ∨ 0 ∈ asBytes name) := by
    simp [hne, hnul, hshort]
  have hroom : zeros 256 = zeros (asBytes name).length ++ zeros (256 - (asBytes name).length) := by
    rw [← replicate_add, Nat.add_sub_cancel' (by omega)]
  -- the fixed bytes come first, then the name is copied over zeros
  generalize hlen : ofNatLE 2 (asBytes name).length = len
  have htwo : len.length = 2 := by simp [← hlen]
  obtain ⟨low, high, rfl⟩ := length_eq_two.mp htwo
  let start : Request := ⟨magic ++ [low, high] ++ [0, 0] ++ zeros 256, by simp [magic, requestLen]⟩
  have hstart : start.toList = (magic ++ [low, high] ++ [0, 0]) ++ zeros (asBytes name).length ++
      zeros (256 - (asBytes name).length) := by
    rw [append_assoc _ (zeros _), ← hroom]
    rfl
  obtain ⟨out, hout, hlist⟩ := overwrite_append hstart (asBytes name)
    (length_replicate ..).symm rfl rfl
  refine ⟨out, ?_, by rw [hlist, requestLayout, hlen]⟩
  unfold request
  simp only [if_neg hacc, hlen]
  show (overwrite start 8 (8 + (asBytes name).length) (asBytes name) >>= _) = _
  rw [show overwrite start 8 (8 + (asBytes name).length) (asBytes name) = .ok out from hout]
  rfl

theorem request_of_not_holdable {name : String} (h : ¬ Holdable name) :
    request name = .ok none := by
  unfold request
  rw [if_pos]
  · rfl
  · by_contra hnone
    simp only [not_or, Nat.not_lt] at hnone
    exact h hnone

theorem request_eq_some {name : String} {out : Request} :
    request name = .ok (some out) ↔ Holdable name ∧ out.toList = requestLayout name := by
  by_cases h : Holdable name
  · obtain ⟨out', hreq, hlist⟩ := request_of_holdable h
    rw [hreq]
    constructor
    · intro heq
      cases heq
      exact ⟨h, hlist⟩
    · intro hout
      rw [Vector.eq _ _ (hlist.trans hout.2.symm)]
  · simp [request_of_not_holdable h, h]

/-! ### Reading a name -/

theorem body_cut {b start body : Bytes} (hstart : start.length = 8) (hb : b = start ++ body)
    {len : Nat} (hlen : len ≤ body.length) :
    after b (8 + len) = .ok (body.drop len) ∧ between b 8 (8 + len) = .ok (body.take len) := by
  subst hb
  rw [after_of_le (by simp [hstart, hlen]), between_of_le (by omega) (by simp [hstart, hlen]),
    ← hstart, drop_length_add_append, take_length_add_append, drop_left]
  exact ⟨rfl, rfl⟩

theorem padded_iff {body b : Bytes} {len : Nat} (hlen : len ≤ body.length) :
    b.length = len ∧ body = b ++ zeros (body.length - len) ↔
      body.take len = b ∧ (body.drop len).any (· ≠ 0) = false := by
  have hzeros : (body.drop len).any (· ≠ 0) = false ↔
      body.drop len = zeros (body.length - len) := by simp [eq_replicate_iff]
  rw [hzeros]
  constructor
  · rintro ⟨rfl, hbody⟩
    generalize body.length - b.length = room at hbody ⊢
    rw [hbody, take_left, drop_left]
    exact ⟨rfl, rfl⟩
  · rintro ⟨rfl, hz⟩
    rw [← hz, take_append_drop, length_take, Nat.min_eq_left hlen]
    exact ⟨rfl, rfl⟩

theorem eq_requestLayout {start len zero body : Bytes} {name : String} (hstart : start.length = 4)
    (hlen : len.length = 2) (hz : zero.length = 2) (hname : (asBytes name).length ≤ 254) :
    start ++ len ++ zero ++ body = requestLayout name ↔
      start = magic ∧ len.toNatLE = (asBytes name).length ∧ zero = [0, 0] ∧
        body = asBytes name ++ zeros (256 - (asBytes name).length) := by
  unfold requestLayout
  rw [append_assoc _ (asBytes name)]
  constructor
  · intro heq
    obtain ⟨heq, hbody⟩ := append_inj heq (by simp [hstart, hlen, hz, magic])
    obtain ⟨heq, hz⟩ := append_inj heq (by simp [hstart, hlen, magic])
    obtain ⟨heq, hlen⟩ := append_inj heq (by simp [hstart, magic])
    exact ⟨heq, by rw [hlen, toNatLE_ofNatLE (by omega)], hz, hbody⟩
  · rintro ⟨rfl, hcnt, rfl, rfl⟩
    rw [← hcnt, ← hlen, ofNatLE_toNatLE]

theorem name_reads (input : Request) :
    Reads (name input) fun n => Holdable n ∧ input.toList = requestLayout n := by
  obtain ⟨b0, b1, b2, b3, b4, b5, b6, b7, body, hinp, hbody⟩ := split_eight (n := 256) input rfl
  generalize hlen : toNatLE [b4, b5] = len
  have hfields : ∀ n, Holdable n ∧ input.toList = requestLayout n ↔ Holdable n ∧
      [b0, b1, b2, b3] = magic ∧ len = (asBytes n).length ∧ [b6, b7] = [0, 0] ∧
        body = asBytes n ++ zeros (body.length - len) := by
    intro n
    refine and_congr_right fun hn => ?_
    rw [hinp, ← hlen, hbody]
    refine (@eq_requestLayout [b0, b1, b2, b3] [b4, b5] [b6, b7] _ n rfl rfl rfl hn.2.1).trans ?_
    refine and_congr_right fun _ => and_congr_right fun h => ?_
    rw [h]
  simp only [hfields]
  have hname : name input = if [b0, b1, b2, b3] ≠ magic ∨ len = 0 ∨ len > 254 ∨
      [b6, b7] ≠ [0, 0] then .ok none else readName input len := by
    unfold name
    rw [hinp, ← hlen]
    rfl
  rw [hname]
  refine .guard (fun n ⟨hn, hmagic, hl, hz, _⟩ => ?_) fun hgood => ?_
  · have hpos := length_pos_of_ne_nil hn.1
    have hle := hn.2.1
    simp only [hmagic, hz, ne_eq, not_true_eq_false, false_or, or_false]
    omega
  simp only [not_or, not_not, Nat.not_lt] at hgood
  obtain ⟨hmagic, hpos, hle, hz⟩ := hgood
  obtain ⟨hpost, hbetween⟩ := @body_cut _ _ _ rfl hinp len (by omega)
  have hcut : ∀ n, len = (asBytes n).length ∧ [b6, b7] = [0, 0] ∧
      body = asBytes n ++ zeros (body.length - len) ↔
      body.take len = asBytes n ∧ (body.drop len).any (· ≠ 0) = false := by
    intro n
    rw [← padded_iff (by omega), eq_comm]
    simp only [hz, true_and]
  simp only [hmagic, true_and, hcut]
  unfold readName
  rw [hpost, hbetween]
  refine .guard (fun n hn => ?_) fun hpad => ?_
  · rw [hn.2.2]
    simp
  rw [Bool.not_eq_true] at hpad
  simp only [hpad, and_true, ← fromUtf8_eq_some]
  dsimp only [bind, Except.bind]
  cases hutf : fromUtf8 (body.take len) with
  | none => exact .refuses fun n hn => nomatch hn.2
  | some n =>
    have hbs := fromUtf8_eq_some.mp hutf
    refine .guard (fun v hv hnul => ?_) fun hnul => ⟨some n, rfl, fun v => ?_⟩
    · cases hv.2
      exact hv.1.2.2 hnul
    · refine ⟨fun h => ⟨?_, h⟩, fun hv => hv.2⟩
      cases h
      have hlength : (asBytes n).length = len := by
        rw [← hbs, length_take]
        omega
      refine ⟨fun hnil => hpos ?_, by omega, hnul⟩
      rw [← hlength, hnil]
      rfl

/-! ## Addresses -/

def slotLayout : IpAddr → Bytes
  | .v4 octets => 4 :: octets.toList ++ zeros 12
  | .v6 octets => 6 :: octets.toList

@[simp] theorem slotLayout_length (ip : IpAddr) : (slotLayout ip).length = 17 := by
  cases ip <;> simp [slotLayout]

def slotsLayout (ips : List IpAddr) : Bytes := ips.flatMap slotLayout

def responseLayout (status count : UInt8) (ips : List IpAddr) : Bytes :=
  magic ++ [status, count, 0, 0] ++ slotsLayout ips ++ zeros (17 * (64 - ips.length))

variable {out : Response}

theorem fill_layout {a c : Bytes} (hout : out.toList = a ++ zeros 17 ++ c) (octets : Bytes)
    (hle : octets.length ≤ 16) (family : UInt8) :
    ∃ out', (overwrite out a.length (a.length + 1) [family] >>= fun out =>
        overwrite out (a.length + 1) (a.length + 1 + octets.length) octets) = .ok out' ∧
      out'.toList = a ++ (family :: octets ++ zeros (16 - octets.length)) ++ c := by
  have hzeros : zeros 17 = [0] ++ zeros octets.length ++ zeros (16 - octets.length) := by
    rw [append_assoc, ← replicate_add, Nat.add_sub_cancel' hle]
    rfl
  obtain ⟨out', hfst, hlist⟩ := overwrite_append (a := a) (m := [0])
    (c := zeros octets.length ++ zeros (16 - octets.length) ++ c) (by rw [hout, hzeros]; simp)
    [family] rfl rfl rfl
  obtain ⟨out'', hsnd, hlist'⟩ := overwrite_append (a := a ++ [family])
    (m := zeros octets.length) (c := zeros (16 - octets.length) ++ c)
    (by rw [hlist]; simp only [append_assoc]) octets (by simp) rfl rfl
  refine ⟨out'', ?_, by rw [hlist']; simp⟩
  rw [show overwrite out a.length (a.length + 1) [family] = .ok out' from hfst]
  rw [length_append] at hsnd
  exact hsnd

theorem fillSlot_layout {a c : Bytes} (hout : out.toList = a ++ zeros 17 ++ c) (ip : IpAddr) :
    ∃ out', fillSlot out a.length ip = .ok out' ∧ out'.toList = a ++ slotLayout ip ++ c := by
  cases ip with
  | v4 octets =>
    obtain ⟨out', hfill, hlist⟩ := fill_layout hout octets.toList (by simp) 4
    rw [octets.toList_length] at hfill hlist
    exact ⟨out', hfill, hlist⟩
  | v6 octets =>
    obtain ⟨out', hfill, hlist⟩ := fill_layout hout octets.toList (by simp) 6
    rw [octets.toList_length] at hfill hlist
    exact ⟨out', hfill, by simpa [slotLayout] using hlist⟩

theorem fillSlots_layout (ips : List IpAddr) {room : Nat} {a : Bytes}
    (hout : out.toList = a ++ zeros (17 * room)) :
    ∃ out', fillSlots a.length ips out = .ok out' ∧
      out'.toList = a ++ slotsLayout (ips.take room) ++ zeros (17 * (room - ips.length)) := by
  induction ips generalizing room out a with
  | nil => exact ⟨out, rfl, by simpa [slotsLayout] using hout⟩
  | cons ip ips ih =>
    have hsz := congrArg length hout
    rw [Vector.toList_length, length_append, length_replicate] at hsz
    unfold fillSlots
    cases room with
    | zero =>
      rw [if_neg (by omega)]
      exact ⟨out, rfl, by simpa [slotsLayout] using hout⟩
    | succ room =>
      rw [if_pos (by omega)]
      have hsplit : out.toList = a ++ zeros 17 ++ zeros (17 * room) := by
        rw [hout, append_assoc, ← replicate_add, Nat.mul_succ, Nat.add_comm 17]
      obtain ⟨out', hfill, hlist⟩ := fillSlot_layout hsplit ip
      obtain ⟨out'', hr, hlist'⟩ := ih hlist
      rw [length_append, slotLayout_length] at hr
      refine ⟨out'', ?_, ?_⟩
      · rw [hfill]
        exact hr
      · rw [hlist', take_succ_cons, length_cons, Nat.add_sub_add_right]
        simp [slotsLayout]

theorem response_layout (status : UInt8) (ips : List IpAddr) :
    ∃ out, response status ips = .ok out ∧ out.toList =
      if status = ok then responseLayout ok (UInt8.ofNat (min ips.length 64)) (ips.take 64)
      else responseLayout status 0 [] := by
  let start (count : UInt8) : Response :=
    ⟨magic ++ [status, count, 0, 0] ++ zeros 1088, by simp [magic, responseLen, maxAddresses]⟩
  have hresp : response status ips = if status ≠ ok then .ok (start 0)
      else fillSlots 8 ips (start (UInt8.ofNat (min ips.length 64))) := rfl
  rw [hresp]
  by_cases hok : status = ok
  · rw [if_neg (not_not.mpr hok), if_pos hok]
    obtain ⟨out, hfill, hlist⟩ := fillSlots_layout ips
      (show (start (UInt8.ofNat (min ips.length 64))).toList =
        (magic ++ [status, UInt8.ofNat (min ips.length 64), 0, 0]) ++ zeros (17 * 64) from rfl)
    refine ⟨out, hfill, ?_⟩
    rw [hlist, hok, responseLayout, length_take]
    congr 3
    omega
  · rw [if_pos hok, if_neg hok]
    exact ⟨start 0, rfl, rfl⟩

/-! ### Reading addresses -/

theorem readSlot_reads {slot : Bytes} (h : slot.length = 17) :
    Reads (readSlot slot) (slot = slotLayout ·) := by
  obtain ⟨family, rest, rfl⟩ := exists_cons_of_length_pos (l := slot) (by omega)
  have hr : rest.length = 16 := by simpa using h
  have hpost : after (family :: rest) 5 = .ok (rest.drop 4) := after_of_le (by simp [hr])
  have hbetween : between (family :: rest) 1 5 = .ok (rest.take 4) :=
    between_of_le (by omega) (by simp [hr])
  have hwhole : after (family :: rest) 1 = .ok rest := after_of_le (by simp)
  have hpad : (rest.drop 4).all (· = 0) = true ↔ rest.drop 4 = zeros 12 := by
    simp [eq_replicate_iff, hr]
  have hv4 (octets : List.Vector UInt8 4) : 4 :: rest = slotLayout (.v4 octets) ↔
      rest.take 4 = octets.toList ∧ rest.drop 4 = zeros 12 := by
    rw [slotLayout, cons_append, List.cons.injEq, eq_self, true_and]
    constructor
    · rintro rfl
      exact ⟨take_left' octets.toList_length, drop_left' octets.toList_length⟩
    · rintro ⟨htake, hdrop⟩
      rw [← htake, ← hdrop, take_append_drop]
  show Reads (if family = 4 then _ else _) _
  split
  next hfam =>
    subst hfam
    rw [hpost, hbetween]
    show Reads (if (rest.drop 4).all (· = 0) then _ else _) _
    split
    next hz =>
      refine ⟨_, rfl, fun ip => ?_⟩
      cases ip with
      | v4 => simp [toArray_eq_some, hv4, hpad.mp hz]
      | v6 => simp [slotLayout]
    next hz =>
      refine .refuses fun ip hip => ?_
      cases ip with
      | v4 => exact hz (hpad.mpr ((hv4 _).mp hip).2)
      | v6 => simp [slotLayout] at hip
  next hfam =>
    split
    next hfam' =>
      rw [hwhole]
      refine ⟨_, rfl, fun ip => ?_⟩
      cases ip <;> simp [slotLayout, toArray_eq_some, hfam']
    next hfam' =>
      refine .refuses fun ip hip => ?_
      cases ip with
      | v4 => exact hfam (List.cons.inj hip).1
      | v6 => exact hfam' (List.cons.inj hip).1

theorem readSlots_reads {n : Nat} {b : Bytes} (h : b.length = 17 * n) :
    Reads (readSlots (chunksExact 17 n b)) fun ips => ips.length = n ∧ b = slotsLayout ips := by
  induction n generalizing b with
  | zero =>
    have hnil : b = [] := length_eq_zero_iff.mp h
    refine ⟨some [], rfl, fun ips => ?_⟩
    cases ips <;> simp [hnil, slotsLayout]
  | succ n ih =>
    obtain ⟨first, hread, hfst⟩ := readSlot_reads (length_take_of_le (l := b) (i := 17) (by omega))
    obtain ⟨others, hreads, hothers⟩ := ih (b := b.drop 17) (by rw [length_drop]; omega)
    refine ⟨first.bind fun ip => others.map (ip :: ·), ?_, fun ips => ?_⟩
    · rw [chunksExact, readSlots, hread]
      cases first with
      | none => rfl
      | some =>
        rw [hreads]
        cases others <;> rfl
    · dsimp only at hfst hothers ⊢
      cases ips with
      | nil => cases first <;> cases others <;> simp
      | cons ip ips =>
        have hcut : b = slotsLayout (ip :: ips) ↔ b.take 17 = slotLayout ip ∧
            b.drop 17 = slotsLayout ips := by
          have hlength := slotLayout_length ip
          constructor
          · rintro rfl
            simp only [slotsLayout, flatMap_cons, ← hlength, take_left, drop_left, and_self]
          · rintro ⟨hip, hips⟩
            rw [slotsLayout, flatMap_cons, ← slotsLayout, ← hip, ← hips, take_append_drop]
        rw [hcut, length_cons, Nat.succ.injEq, ← hfst, and_left_comm, ← hothers]
        cases first <;> cases others <;> simp

/-- What a response that is accepted holds. -/
def Holds (input : Response) : Except UInt8 (List IpAddr) → Prop
  | .ok ips => ips.length ≤ 64 ∧ input.toList = responseLayout ok (UInt8.ofNat ips.length) ips
  | .error status => status ≠ ok ∧ status ≤ unavailable ∧ input.toList = responseLayout status 0 []

section
variable {b0 b1 b2 b3 b4 b5 b6 b7 : UInt8} {body : Bytes}

theorem eq_responseLayout {status count : UInt8} {ips : List IpAddr} :
    [b0, b1, b2, b3, b4, b5, b6, b7] ++ body = responseLayout status count ips ↔
      [b0, b1, b2, b3] = magic ∧ b4 = status ∧ b5 = count ∧ [b6, b7] = [0, 0] ∧
        body = slotsLayout ips ++ zeros (17 * (64 - ips.length)) := by
  rw [responseLayout, append_assoc _ (slotsLayout ips)]
  constructor
  · intro heq
    obtain ⟨hstart, hbody⟩ := append_inj heq rfl
    simp only [magic, cons_append, nil_append, cons.injEq, and_true] at hstart
    simp [magic, hstart, hbody]
  · rintro ⟨hmagic, rfl, rfl, hz, rfl⟩
    simp only [magic, cons.injEq, and_true] at hmagic hz
    simp [magic, hmagic, hz]

/-- What the fields of a response tell, but for the bytes that carry nothing. -/
def Tells (status : UInt8) (count : Nat) (body : Bytes) : Except UInt8 (List IpAddr) → Prop
  | .ok ips => status = ok ∧ ips.length = count ∧ body.take (count * 17) = slotsLayout ips
  | .error refusal => status ≠ ok ∧ status = refusal ∧ count = 0

/-- Whatever the body holds, its slots are cut off by the count. -/
theorem slots_cut {count : Nat} (hbody : body.length = 1088) (hcnt : count ≤ 64)
    {ips : List IpAddr} (hlen : ips.length = count) :
    body = slotsLayout ips ++ zeros (17 * (64 - ips.length)) ↔
      body.take (count * 17) = slotsLayout ips ∧ (body.drop (count * 17)).any (· ≠ 0) = false := by
  have hlen' : (slotsLayout ips).length = count * 17 := by
    simp [slotsLayout, length_flatMap, hlen]
  have hroom : 17 * (64 - ips.length) = 1088 - count * 17 := by omega
  rw [← padded_iff (by omega), hlen', eq_self, true_and, hbody, hroom]

theorem holds_iff {input : Response} {v : Except UInt8 (List IpAddr)}
    (hinp : input.toList = [b0, b1, b2, b3, b4, b5, b6, b7] ++ body) (hbody : body.length = 1088) :
    Holds input v ↔ ([b0, b1, b2, b3] = magic ∧ b4 ≤ unavailable ∧ b5.toNat ≤ 64 ∧
      [b6, b7] = [0, 0]) ∧ Tells b4 b5.toNat body v ∧
        (body.drop (b5.toNat * 17)).any (· ≠ 0) = false := by
  cases v with
  | ok ips =>
    rw [Holds, hinp, eq_responseLayout]
    constructor
    · rintro ⟨hlen, hmagic, rfl, rfl, hz, hb⟩
      have hnat : (UInt8.ofNat ips.length).toNat = ips.length := by
        rw [UInt8.toNat_ofNat']
        omega
      rw [hnat]
      obtain ⟨htake, hpad⟩ := (slots_cut hbody hlen rfl).mp hb
      exact ⟨⟨hmagic, by decide, hlen, hz⟩, ⟨rfl, rfl, htake⟩, hpad⟩
    · rintro ⟨⟨hmagic, -, hcnt, hz⟩, ⟨hs, hlen, htake⟩, hpad⟩
      exact ⟨hlen ▸ hcnt, hmagic, hs, by rw [hlen, UInt8.ofNat_toNat], hz,
        (slots_cut hbody hcnt hlen).mpr ⟨htake, hpad⟩⟩
  | error status =>
    rw [Holds, hinp, eq_responseLayout]
    constructor
    · rintro ⟨hne, hle, hmagic, rfl, rfl, hz, hb⟩
      exact ⟨⟨hmagic, hle, by decide, hz⟩, ⟨hne, rfl, rfl⟩,
        ((slots_cut hbody (Nat.zero_le _) rfl).mp hb).2⟩
    · rintro ⟨⟨hmagic, hle, -, hz⟩, ⟨hne, rfl, hnone⟩, hpad⟩
      rw [hnone] at hpad
      exact ⟨hne, hle, hmagic, rfl, UInt8.toNat_inj.mp hnone, hz,
        (slots_cut hbody (Nat.zero_le _) rfl).mpr ⟨rfl, hpad⟩⟩

theorem readAddresses_reads {input : Response} {start : Bytes} {count : Nat} (status : UInt8)
    (hstart : start.length = 8) (hinp : input.toList = start ++ body)
    (hfits : count * 17 ≤ body.length) : Reads (readAddresses input status count) fun v =>
      Tells status count body v ∧ (body.drop (count * 17)).any (· ≠ 0) = false := by
  obtain ⟨hpost, hsl⟩ := body_cut hstart hinp hfits
  unfold readAddresses
  rw [hpost, hsl]
  refine .guard (fun v hv => Bool.not_eq_true _ ▸ hv.2) fun hpad => ?_
  rw [Bool.not_eq_true] at hpad
  simp only [hpad, and_true]
  by_cases hs : status = ok
  · rw [if_neg (not_not.mpr hs)]
    have htake : (body.take (count * 17)).length = 17 * count := by
      rw [length_take]
      omega
    obtain ⟨ips, hread, hips⟩ := readSlots_reads htake
    refine ⟨ips.map .ok, ?_, fun v => ?_⟩
    · show (readSlots (chunksExact 17 ((body.take (count * 17)).length / 17) _) >>= _) = _
      rw [htake, Nat.mul_div_cancel_left _ (by omega), hread]
      rfl
    · cases v with
      | ok => simp [Tells, hs, hips]
      | error => simp [Tells, hs]
  · rw [if_pos hs]
    refine ⟨_, rfl, fun v => ?_⟩
    cases v with
    | ok => simp [Tells, hs]
    | error => simp [Tells, hs, and_comm]

end

theorem addresses_reads (input : Response) : Reads (addresses input) (Holds input) := by
  obtain ⟨b0, b1, b2, b3, b4, b5, b6, b7, body, hinp, hbody⟩ := split_eight (n := 1088) input rfl
  have haddrs : addresses input =
      if [b0, b1, b2, b3] ≠ magic ∨ b4 > unavailable ∨ b5.toNat > 64 ∨ [b6, b7] ≠ [0, 0]
        then .ok none else readAddresses input b4 b5.toNat := by
    unfold addresses
    rw [hinp]
    rfl
  rw [haddrs]
  refine .guard (fun v hv => ?_) fun hgood => ?_
  · simpa only [not_or, not_not, Nat.not_lt, UInt8.not_lt] using ((holds_iff hinp hbody).mp hv).1
  simp only [not_or, not_not, Nat.not_lt, UInt8.not_lt] at hgood
  obtain ⟨answer, hread, hans⟩ := readAddresses_reads b4 rfl hinp
    (show b5.toNat * 17 ≤ body.length by omega)
  refine ⟨answer, hread, fun v => (hans v).trans ?_⟩
  rw [holds_iff hinp hbody]
  exact (and_iff_right hgood).symm

/-! ## Round trips -/

/-- A request gives back its name and is the only request for it; a
response gives back its status or the first 64 of its addresses and is the
only response for them; and nothing is read or written out of bounds. -/
theorem resolver_wire_round_trips :
    (∀ n b, request n = .ok (some b) → name b = .ok (some n)) ∧
    (∀ b n, name b = .ok (some n) → request n = .ok (some b)) ∧
    (∀ ips, ∃ b, response ok ips = .ok b ∧ addresses b = .ok (some (.ok (ips.take 64)))) ∧
    (∀ b ips, addresses b = .ok (some (.ok ips)) → response ok ips = .ok b) ∧
    (∀ status ips, status ≠ ok → status ≤ unavailable →
      ∃ b, response status ips = .ok b ∧ addresses b = .ok (some (.error status))) ∧
    (∀ b status, addresses b = .ok (some (.error status)) → response status [] = .ok b) ∧
    (∀ n, (request n).isOk) ∧ (∀ b, (name b).isOk) ∧ (∀ status ips, (response status ips).isOk) ∧
    ∀ b, (addresses b).isOk := by
  refine ⟨fun n b h => ?_, fun b n h => ?_, fun ips => ?_, fun b ips h => ?_,
    fun status ips hne hle => ?_, fun b status h => ?_, fun n => ?_, fun b => (name_reads b).isOk,
    fun status ips => ?_, fun b => (addresses_reads b).isOk⟩
  · exact (name_reads b).eq_some.mpr (request_eq_some.mp h)
  · exact request_eq_some.mpr ((name_reads b).eq_some.mp h)
  · obtain ⟨out, hresp, hlist⟩ := response_layout ok ips
    rw [if_pos rfl] at hlist
    refine ⟨out, hresp, (addresses_reads out).eq_some.mpr ⟨by simp, ?_⟩⟩
    rw [hlist, length_take, Nat.min_comm]
  · obtain ⟨hlength, hlist⟩ := (addresses_reads b).eq_some.mp h
    obtain ⟨out, hresp, hout⟩ := response_layout ok ips
    rw [if_pos rfl, Nat.min_eq_left hlength, take_of_length_le hlength, ← hlist] at hout
    rw [hresp, Vector.eq _ _ hout]
  · obtain ⟨out, hresp, hlist⟩ := response_layout status ips
    rw [if_neg hne] at hlist
    exact ⟨out, hresp, (addresses_reads out).eq_some.mpr ⟨hne, hle, hlist⟩⟩
  · obtain ⟨hne, -, hlist⟩ := (addresses_reads b).eq_some.mp h
    obtain ⟨out, hresp, hout⟩ := response_layout status []
    rw [if_neg hne, ← hlist] at hout
    rw [hresp, Vector.eq _ _ hout]
  · by_cases h : Holdable n
    · obtain ⟨out, hreq, -⟩ := request_of_holdable h
      rw [hreq]
      rfl
    · rw [request_of_not_holdable h]
      rfl
  · obtain ⟨out, hresp, -⟩ := response_layout status ips
    rw [hresp]
    rfl

end Drv.Net.DnsWire
