import Drv.Mt76.Image

/-!
# A parsed image is walked to its end

The iterators read the table again, without the checks `parse` made. Each is
followed next to the loop of `parse`: where the loop goes on, the iterator
yields an item, and the payload it names lies where the loop has looked.

What the payloads contain is not looked at.
-/

namespace Drv.Mt76

open List

section
variable {ε : Type} {b r : Bytes} {first last : Nat}

theorem slice_eq_ok : (slice b first last : Parse ε Bytes) = .ok r ↔
    (first ≤ last ∧ last ≤ b.length) ∧ (b.take last).drop first = r := by
  unfold slice Bytes.between
  split <;> simp_all [Except.mapError]

theorem length_of_slice (h : (slice b first last : Parse ε Bytes) = .ok r) :
    r.length = last - first := by
  obtain ⟨⟨hfst, hl⟩, rfl⟩ := slice_eq_ok.mp h
  simp only [length_drop, length_take]
  omega

theorem byte_ok (h : first < b.length) : ∃ x, (byte b first : Parse ε UInt8) = .ok x := by
  unfold byte Bytes.byte
  rw [getElem?_eq_getElem h]
  exact ⟨_, rfl⟩

theorem slice_ok (hfst : first ≤ last) (hl : last ≤ b.length) :
    ∃ r, (slice b first last : Parse ε Bytes) = .ok r :=
  ⟨_, slice_eq_ok.mpr ⟨⟨hfst, hl⟩, rfl⟩⟩

theorem word_ok (h : first + 4 ≤ b.length) (f : Bytes → Nat) :
    ∃ n, (do return f (← slice b first (first + 4)) : Parse ε Nat) = .ok n := by
  obtain ⟨r, hr⟩ := slice_ok (Nat.le_add_right first 4) h
  exact ⟨_, bind_eq_ok.mpr ⟨r, hr, rfl⟩⟩

end

/-- An iterator yields these items from a state on and then ends; a panic on
the way would leave it without such a list. -/
inductive Iterates {ε σ α : Type} (next : σ → Parse ε (Option (α × σ))) : σ → List α → Prop
  | done {s : σ} (h : next s = .ok none) : Iterates next s []
  | step {s s' : σ} {item : α} {items : List α} (h : next s = .ok (some (item, s')))
    (rest : Iterates next s' items) : Iterates next s (item :: items)

/-! ## Patches -/

namespace Patch

def tableLen (p : Patch) : Nat := patchHeaderLen + p.regionCount * patchSectionLen

/-- The payload is the range that the table declares at this index, inside
the image and after the table. -/
def Places (p : Patch) (index : Nat) (s : PatchSection) : Prop :=
  ∃ entry offset length,
    slice p.bytes (patchHeaderLen + index * patchSectionLen)
      (patchHeaderLen + index * patchSectionLen + patchSectionLen) =
        (.ok entry : Parse PatchError Bytes) ∧
    beU32 entry 4 = (.ok offset : Parse PatchError Nat) ∧
    beU32 entry 16 = (.ok length : Parse PatchError Nat) ∧
    p.tableLen ≤ offset ∧ offset + length ≤ p.bytes.length ∧
    s.payload = (p.bytes.take (offset + length)).drop offset

variable {p : Patch} {index rest : Nat}

theorem next_of_check (hidx : index ≠ p.regionCount)
    (h : check p.bytes p.tableLen index (rest + 1) = .ok ()) :
    check p.bytes p.tableLen (index + 1) rest = .ok () ∧
      ∃ s, p.next index = .ok (some (s, index + 1)) ∧ p.Places index s := by
  obtain ⟨entry, hent, h⟩ := bind_eq_ok.mp h
  obtain ⟨kind, -, h⟩ := bind_eq_ok.mp h
  split at h
  · cases h
  obtain ⟨offset, hoff, h⟩ := bind_eq_ok.mp h
  obtain ⟨length, hlen, h⟩ := bind_eq_ok.mp h
  split at h
  · cases h
  rename_i hbd
  have hsz : entry.length = 64 := by
    rw [length_of_slice hent, Nat.add_sub_cancel_left, patchSectionLen]
  -- the fields the loop did not read lie in the entry too
  have hword (first : Nat) (h : first ≤ 60) :
      ∃ n, (beU32 entry first : Parse PatchError Nat) = .ok n := word_ok (by omega) _
  obtain ⟨address, haddr⟩ := hword 12 (by decide)
  obtain ⟨security, hsec⟩ := hword 20 (by decide)
  have hpay := (slice_eq_ok (ε := PatchError)).mpr
    ⟨⟨Nat.le_add_right offset length, show _ ≤ p.bytes.length by omega⟩, rfl⟩
  refine ⟨h, ⟨address, security, _⟩, ?_, entry, offset, length, hent, hoff, hlen,
    by omega, by omega, rfl⟩
  rw [next, if_neg hidx]
  simp only [hent, hoff, hlen, haddr, hsec, hpay, bind, Except.bind, pure, Except.pure]

theorem walk_of_check : ∀ {rest index : Nat}, index + rest = p.regionCount →
    check p.bytes p.tableLen index rest = .ok () →
    ∃ sections, Iterates p.next index sections ∧ sections.length = rest ∧
      ∀ i s, sections[i]? = some s → p.Places (index + i) s := by
  intro rest
  induction rest with
  | zero =>
    intro index hidx _
    exact ⟨[], .done (if_pos hidx), rfl, by simp⟩
  | succ rest ih =>
    intro index hidx h
    obtain ⟨h, s, hnx, hplace⟩ := next_of_check (by omega) h
    obtain ⟨sections, hwalk, hlen, hplaces⟩ := ih (by omega) h
    refine ⟨s :: sections, .step hnx hwalk, by simp [hlen], ?_⟩
    intro i s' hs
    cases i with
    | zero =>
      cases hs
      exact hplace
    | succ i =>
      rw [Nat.add_comm i 1, ← Nat.add_assoc]
      exact hplaces i s' hs

theorem parse_eq_ok {bytes : Bytes} (h : parse bytes = .ok p) :
    p.bytes = bytes ∧ check p.bytes p.tableLen 0 p.regionCount = .ok () := by
  unfold parse at h
  split at h
  · cases h
  obtain ⟨count, -, h⟩ := bind_eq_ok.mp h
  dsimp only at h
  split at h
  · cases h
  obtain ⟨⟨⟩, hchk, h⟩ := bind_eq_ok.mp h
  obtain ⟨header, -, h⟩ := bind_eq_ok.mp h
  cases h
  exact ⟨rfl, hchk⟩

end Patch

/-! ## Firmware -/

namespace Firmware
variable {f : Firmware} {index rest payloadEnd : Nat}

theorem next_of_check (hidx : index ≠ f.regionCount.toNat)
    (hbs : f.metadataStart ≤ f.bytes.length) (h : f.check payloadEnd index (rest + 1) = .ok ()) :
    ∃ payloadEnd' region, f.check payloadEnd' (index + 1) rest = .ok () ∧
      f.next (index, payloadEnd) = .ok (some (region, index + 1, payloadEnd')) ∧
      payloadEnd ≤ payloadEnd' ∧ payloadEnd' ≤ f.metadataStart ∧
      region.payload = (f.bytes.take payloadEnd').drop payloadEnd := by
  obtain ⟨record, hrec, h⟩ := bind_eq_ok.mp h
  obtain ⟨length, hlen, h⟩ := bind_eq_ok.mp h
  dsimp only at h
  split at h
  · cases h
  split at h
  · cases h
  rename_i hmeta
  have hsz : record.length = 40 := by
    rw [length_of_slice hrec, Nat.add_sub_cancel_left, fwRegionLen]
  have hbyte (i : Nat) (h : i < 40) : ∃ x, (byte record i : Parse FirmwareError UInt8) = .ok x :=
    byte_ok (by omega)
  have hword : ∃ n, (leU32 record 16 : Parse FirmwareError Nat) = .ok n := word_ok (by omega) _
  obtain ⟨address, haddr⟩ := hword
  obtain ⟨features, hfeats⟩ := hbyte 24 (by decide)
  obtain ⟨kind, hkind⟩ := hbyte 25 (by decide)
  have hpay := (slice_eq_ok (ε := FirmwareError)).mpr
    ⟨⟨Nat.le_add_right payloadEnd length, show _ ≤ f.bytes.length by omega⟩, rfl⟩
  refine ⟨payloadEnd + length, ⟨address, features, kind, _⟩, h, ?_, by omega, by omega, rfl⟩
  rw [next, if_neg hidx]
  simp only [hrec, hlen, haddr, hfeats, hkind, hpay, bind, Except.bind, pure, Except.pure]

/-- The payloads from `payloadEnd` on are one stretch of the image. -/
theorem walk_of_check (hbs : f.metadataStart ≤ f.bytes.length) :
    ∀ {rest index payloadEnd : Nat}, index + rest = f.regionCount.toNat →
    payloadEnd ≤ f.metadataStart → f.check payloadEnd index rest = .ok () →
    ∃ regions last, Iterates f.next (index, payloadEnd) regions ∧ regions.length = rest ∧
      payloadEnd ≤ last ∧ last ≤ f.metadataStart ∧
      (regions.map (·.payload)).flatten = (f.bytes.take last).drop payloadEnd := by
  intro rest
  induction rest with
  | zero =>
    intro index payloadEnd hidx hend _
    exact ⟨[], payloadEnd, .done (if_pos hidx), rfl, Nat.le_refl _, hend, by simp⟩
  | succ rest ih =>
    intro index payloadEnd hidx hend h
    obtain ⟨payloadEnd', region, h, hnx, hle, hend', hpay⟩ := next_of_check (by omega) hbs h
    obtain ⟨regions, last, hwalk, hlen, hl, hbound, hflat⟩ := ih (by omega) hend' h
    refine ⟨region :: regions, last, .step hnx hwalk, by simp [hlen], by omega, hbound, ?_⟩
    rw [map_cons, flatten_cons, hpay, hflat]
    -- the stretch up to `payloadEnd'` and the one after it
    have hsplit : f.bytes.take last =
        f.bytes.take payloadEnd' ++ (f.bytes.take last).drop payloadEnd' := by
      conv_lhs => rw [← take_append_drop payloadEnd' (f.bytes.take last)]
      rw [take_take, Nat.min_eq_left hl]
    conv_rhs => rw [hsplit]
    rw [drop_append_of_le_length]
    rw [length_take]
    omega

theorem parse_eq_ok {bytes : Bytes} (h : parse bytes = .ok f) :
    f.bytes = bytes ∧ f.check 0 0 f.regionCount.toNat = .ok () ∧
      f.metadataStart + f.regionCount.toNat * fwRegionLen + fwTrailerLen = bytes.length := by
  unfold parse at h
  split at h
  · cases h
  obtain ⟨trailer, -, h⟩ := bind_eq_ok.mp h
  obtain ⟨count, -, h⟩ := bind_eq_ok.mp h
  dsimp only at h
  split at h
  · cases h
  obtain ⟨fields, -, h⟩ := bind_eq_ok.mp h
  obtain ⟨⟨⟩, hchk, h⟩ := bind_eq_ok.mp h
  cases h
  exact ⟨rfl, hchk, by dsimp only; omega⟩

end Firmware

/-- Whatever the bytes, an image that was accepted is walked to its end, with
as many items as it declares. A patch's payloads lie behind its table; those
of a firmware image follow each other from its first byte on and stop before
the table of regions. -/
theorem image_walked (bytes : Bytes) :
    (∀ p, Patch.parse bytes = .ok p → p.bytes = bytes ∧
      ∃ sections, Iterates p.next 0 sections ∧ sections.length = p.regionCount ∧
        ∀ i s, sections[i]? = some s → p.Places i s) ∧
    (∀ f, Firmware.parse bytes = .ok f →
      f.metadataStart + f.regionCount.toNat * fwRegionLen + fwTrailerLen = bytes.length ∧
      ∃ regions, Iterates f.next (0, 0) regions ∧ regions.length = f.regionCount.toNat ∧
        (regions.map (·.payload)).flatten <+: bytes ∧
        (regions.map (·.payload)).flatten.length ≤ f.metadataStart) := by
  constructor
  · intro p h
    obtain ⟨hbs, hchk⟩ := Patch.parse_eq_ok h
    obtain ⟨sections, hwalk, hlen, hplaces⟩ := Patch.walk_of_check (Nat.zero_add _) hchk
    refine ⟨hbs, sections, hwalk, hlen, ?_⟩
    intro i s hs
    rw [← Nat.zero_add i]
    exact hplaces i s hs
  · intro f h
    obtain ⟨rfl, hchk, hsz⟩ := Firmware.parse_eq_ok h
    obtain ⟨regions, last, hwalk, hlen, -, hbound, hflat⟩ :=
      Firmware.walk_of_check (by omega) (Nat.zero_add _) (Nat.zero_le _) hchk
    refine ⟨hsz, regions, hwalk, hlen, ?_, ?_⟩
    · rw [hflat]
      exact take_prefix _ _
    · rw [hflat]
      exact Nat.le_trans (length_take_le _ _) hbound

/-- A header, a table of one section, and its payload. -/
def patchImage : Bytes :=
  replicate 47 0 ++ [1] ++ replicate 48 0 ++
    [0, 0, 0, 2, 0, 0, 0, 160] ++ replicate 11 0 ++ [3] ++ replicate 44 0 ++ [7, 8, 9]

theorem image_walked_patch : ∃ p s, Patch.parse patchImage = .ok p ∧ Iterates p.next 0 [s] ∧
    p.Places 0 s := by
  have hcount : (Patch.parse patchImage).toOption.map Patch.regionCount = some 1 := by
    decide +kernel
  cases hp : Patch.parse patchImage with
  | error =>
    rw [hp] at hcount
    cases hcount
  | ok p =>
    rw [hp] at hcount
    obtain ⟨-, sections, hwalk, hlen, hplaces⟩ := (image_walked patchImage).1 p hp
    rw [Option.some.inj hcount] at hlen
    obtain ⟨s, rfl⟩ := length_eq_one_iff.mp hlen
    exact ⟨p, s, rfl, hwalk, hplaces 0 s rfl⟩

-- three bytes of payload, one region, trailer
example : (Firmware.parse ([7, 8, 9] ++ List.replicate 20 0 ++ [3] ++ List.replicate 21 0 ++
    [1] ++ replicate 33 0)).toBool = true := by decide

end Drv.Mt76
