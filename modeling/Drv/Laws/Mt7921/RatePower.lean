import Mathlib.Data.List.Pairwise
import Drv.Mt7921.RatePower

/-!
# Transmit power stays within its limits

What the pages say is read back from their bytes (`readRatePowerPage`):
every expected channel is listed once and in order, only the last page is
marked, and the rates of a channel that is in use are within the
regulatory power, the SAR limits of its frequency and the external cap
(`rate_power_within_limits`). The entries that the firmware reserves keep
their initial value, and so do the CCK entries of 5 GHz, where there is
no CCK (`cck_unlimited`).

What the firmware makes of a page is not modelled.
-/

namespace Drv.Mt7921

open List hiding Vector

/-! ## Reading a page -/

structure RatePowerListing where
  band : UInt8
  channel : UInt8
  rates : Bytes

structure RatePowerPage where
  last : UInt8
  listings : List RatePowerListing

/-- What the firmware finds in a page. -/
def readRatePowerPage (command : Bytes) : RatePowerPage :=
  let request := command.drop connac2McuTxdBytes
  { last := byteAt request 6
    listings := (range (byteAt request 4).toNat).map fun i =>
      let entry := request.drop (44 + i * (1 + mt7921SkuRateCount))
      ⟨byteAt request 5, byteAt entry 0, (entry.drop 1).take mt7921SkuRateCount⟩ }

/-- Some bytes and then a payload. -/
def Framed (header : Nat) (payload bytes : Bytes) : Prop :=
  header ≤ bytes.length ∧ bytes.drop header = payload

theorem Framed.patch {header offset : Nat} {payload bytes field : Bytes}
    (h : Framed header payload bytes) (hfield : offset + field.length ≤ header) :
    Framed header payload (patch bytes offset field) := by
  obtain ⟨hlen, hd⟩ := h
  have hfront : (bytes.take offset ++ field).length = offset + field.length := by
    rw [length_append, length_take, Nat.min_eq_left (by omega)]
  refine ⟨?_, ?_⟩
  · simp only [Mt7921.patch, length_append, length_take, length_drop]
    omega
  · rw [Mt7921.patch, drop_append, drop_of_length_le (by omega), nil_append,
      drop_drop, hfront, ← hd]
    congr 1
    omega

theorem mcuHeader_framed {header : Nat} (hhdr : 34 ≤ header) (payload : Bytes) :
    Framed header payload (mcuHeader header payload) := by
  have hplain : Framed header payload (replicate header 0 ++ payload) := by
    refine ⟨by simp, ?_⟩
    simp
  have hword (word : UInt32) : (leBytes word).length = 4 := Bytes.length_ofNatLE 4 _
  refine ((hplain.patch ?_).patch ?_).patch ?_
  · rw [hword]
    omega
  · rw [hword]
    omega
  · rw [Bytes.length_ofNatLE]
    omega

theorem length_sku (band : UInt8) (target : Int8) :
    (mt7921UniformRatePowerSku band target).length = mt7921SkuRateCount := by
  simp [mt7921UniformRatePowerSku, mt7921SkuRateCount]

theorem drop_flatMap {α β : Type} {f : α → List β} {n : Nat} (hf : ∀ a, (f a).length = n)
    (l : List α) (i : Nat) : (l.flatMap f).drop (i * n) = (l.drop i).flatMap f := by
  induction i generalizing l with
  | zero => simp
  | succ i ih =>
    cases l with
    | nil => simp
    | cons a l =>
      rw [flatMap_cons, Nat.succ_mul, Nat.add_comm, ← drop_drop, drop_left' (hf a), drop_succ_cons]
      exact ih l

theorem read_ratePowerPage (sequence band : UInt8) (last : Bool) (alpha2 : Alpha2)
    {entries : List (UInt8 × Int8)} (hents : entries.length < 256) :
    readRatePowerPage (ratePowerPage sequence band last alpha2 entries) =
      ⟨last.toUInt8, entries.map fun entry =>
        ⟨band, entry.1, mt7921UniformRatePowerSku band entry.2⟩⟩ := by
  let block (entry : UInt8 × Int8) : Bytes := entry.1 :: mt7921UniformRatePowerSku band entry.2
  let head : Bytes := [0, 0, 0, 0, UInt8.ofNat entries.length, band, last.toUInt8, 0] ++
    alpha2.toList ++ replicate 34 0
  have hblock : ∀ entry, (block entry).length = 1 + mt7921SkuRateCount := by
    intro entry
    rw [length_cons, length_sku, Nat.add_comm]
  have hh : head.length = 44 := by simp [head]
  have hreq : (ratePowerPage sequence band last alpha2 entries).drop connac2McuTxdBytes =
      head ++ entries.flatMap block :=
    (((mcuHeader_framed (by decide) _).patch (by decide)).patch (by simp [connac2McuTxdBytes])).2
  have hcnt : (UInt8.ofNat entries.length).toNat = entries.length := Nat.mod_eq_of_lt hents
  simp only [readRatePowerPage, hreq]
  have hfour : byteAt (head ++ entries.flatMap block) 4 = UInt8.ofNat entries.length := rfl
  have hfive : byteAt (head ++ entries.flatMap block) 5 = band := rfl
  have hsix : byteAt (head ++ entries.flatMap block) 6 = last.toUInt8 := rfl
  rw [hfour, hfive, hsix, hcnt]
  refine congrArg (RatePowerPage.mk _) (ext_getElem (by simp) fun i hi hi' => ?_)
  simp only [length_map, length_range] at hi hi'
  have hent : (head ++ entries.flatMap block).drop (44 + i * (1 + mt7921SkuRateCount)) =
      block entries[i] ++ (entries.drop (i + 1)).flatMap block := by
    rw [← hh, drop_length_add_append, drop_flatMap hblock, drop_eq_getElem_cons hi, flatMap_cons]
  rw [getElem_map, getElem_range, getElem_map, hent]
  exact congrArg (RatePowerListing.mk _ _) (take_left' (length_sku ..))

/-! ## Rates -/

/-- The two entries after the ten rates of each VHT stream. -/
def reservedRate (i : Nat) : Bool := 29 ≤ i && i < 77 && 10 ≤ (i - 29) % 12

def cckRate (i : Nat) : Bool := i < 4

theorem sku_eq (band : UInt8) (target : Int8) : mt7921UniformRatePowerSku band target =
    (range mt7921SkuRateCount).map fun i =>
      if reservedRate i || cckRate i && !decide (band = 1) then 127 else target.toUInt8 := by
  have hcck : (if band = 1 then target.toUInt8 else 127) =
      if decide (band = 1) = true then target.toUInt8 else 127 := by simp
  rw [mt7921UniformRatePowerSku, hcck]
  generalize decide (band = 1) = cck
  cases cck <;> rfl

theorem getElem_sku {band : UInt8} {target : Int8} {i : Nat} {rate : UInt8}
    (hrate : (mt7921UniformRatePowerSku band target)[i]? = some rate)
    (hresv : reservedRate i = false) (hcck : cckRate i = true → band = 1) :
    rate.toInt8 = target := by
  rw [sku_eq, getElem?_map] at hrate
  obtain ⟨j, hj, rfl⟩ := Option.map_eq_some_iff.mp hrate
  obtain ⟨hlt, rfl⟩ := List.getElem?_eq_some_iff.mp hj
  have hlimited : ¬ (reservedRate i || cckRate i && !decide (band = 1)) = true := by
    simpa [hresv] using hcck
  rw [getElem_range, if_neg hlimited, Int8.toInt8_toUInt8]

/-! ## Validation -/

/-- A channel has one input, whose state is valid. -/
def Validated (snapshot : RegulatoryRatePowerSnapshot) (channel : PhysicalBand × UInt16) : Prop :=
  ∃ input, snapshot.channels.filter (·.isFor channel) = [input] ∧ input.stateIsValid = true

variable {snapshot : RegulatoryRatePowerSnapshot} {channel : PhysicalBand × UInt16}

theorem validateRatePowerChannel_ok (h : validateRatePowerChannel snapshot channel = .ok ()) :
    Validated snapshot channel := by
  unfold validateRatePowerChannel at h
  split at h
  · cases h
  · cases h
  next input hinp =>
    obtain ⟨-, h⟩ := guard_eq_ok.mp h
    split at h
    next hvalid => exact ⟨input, hinp, hvalid⟩
    next => cases h

theorem forM_ok {ε α : Type} {f : α → Except ε Unit} {l : List α} (h : l.forM f = .ok ()) :
    ∀ a ∈ l, f a = .ok () := by
  induction l with
  | nil => simp
  | cons a l ih =>
    obtain ⟨⟨⟩, ha, hl⟩ := bind_eq_ok.mp h
    exact forall_mem_cons.mpr ⟨ha, ih hl⟩

/-- Each range starts after the ends of those before it. -/
def SarOrdered (ranges : List SarFrequencyRange) : Prop :=
  ranges.Pairwise fun range later => range.endMhz ≤ later.startMhz

variable {ranges : List SarFrequencyRange}

theorem validateSarRanges_ok {previous : Option UInt16}
    (h : validateSarRanges previous ranges = .ok ()) :
    (∀ last ∈ previous, ∀ range ∈ ranges, last ≤ range.startMhz) ∧
      SarOrdered ranges := by
  induction ranges generalizing previous with
  | nil => simp [SarOrdered]
  | cons range rest ih =>
    obtain ⟨hrng, h⟩ := guard_eq_ok.mp h
    obtain ⟨hr, hsorted⟩ := ih h
    simp only [not_or, ge_iff_le, UInt16.not_le] at hrng
    have hlater : ∀ later ∈ rest, range.endMhz ≤ later.startMhz := hr range.endMhz rfl
    refine ⟨?_, pairwise_cons.mpr ⟨hlater, hsorted⟩⟩
    rintro last hl other hother
    have hfst : last ≤ range.startMhz := by
      have hany := hrng.2
      rw [Option.mem_def.mp hl] at hany
      simpa using hany
    rcases mem_cons.mp hother with rfl | hother
    · exact hfst
    · exact UInt16.le_trans hfst (UInt16.le_trans (UInt16.le_of_lt hrng.1) (hlater other hother))

theorem covers_unique {range : SarFrequencyRange}
    {frequencyMhz : UInt16} (hsorted : SarOrdered ranges)
    (hfind : ranges.find? (·.covers frequencyMhz) = some range) {other : SarFrequencyRange}
    (hother : other ∈ ranges) (hcov : other.covers frequencyMhz = true) : other = range := by
  have hapart : ranges.Pairwise fun a b =>
      ¬ (a.covers frequencyMhz = true ∧ b.covers frequencyMhz = true) := by
    refine hsorted.imp fun hle => ?_
    simp only [SarFrequencyRange.covers, Bool.and_eq_true, decide_eq_true_eq]
    -- the later range starts after the frequency
    exact fun ⟨ha, hb⟩ => UInt16.not_le.mpr ha.2 (UInt16.le_trans hle hb.1)
  by_contra hne
  have : Std.Symm fun a b : SarFrequencyRange =>
      ¬ (a.covers frequencyMhz = true ∧ b.covers frequencyMhz = true) :=
    ⟨fun _ _ => mt And.symm⟩
  exact hapart.forall hother (mem_of_find?_eq_some hfind) hne
    ⟨hcov, (find?_eq_some_iff_append.mp hfind).1⟩

/-! ## Limits -/

/-- The limits of a channel that is in use. -/
structure RateBounded (snapshot : RegulatoryRatePowerSnapshot) (input : RegulatoryRatePowerChannel)
    (rate : Int8) : Prop where
  regulatory : ∃ power, input.maxRegPowerDbm = some power ∧ rate.toInt ≤ 2 * power.toInt
  sar : ∀ range ∈ snapshot.sarRanges, range.covers input.frequencyMhz = true →
    rate.toInt ≤ range.maxPowerHalfDbm.toInt
  cap : ∀ cap, snapshot.externalCapHalfDbm = some cap → rate.toInt ≤ cap.toInt

theorem capped_le (target : Int8) (limit : Option Int8) :
    (capped target limit).toInt ≤ target.toInt := by
  cases limit with
  | none => exact Int.le_refl _
  | some limit => exact Int8.le_iff_toInt_le.mp (Std.min_le_left ..)

theorem capped_le_limit (target limit : Int8) : (capped target (some limit)).toInt ≤ limit.toInt :=
  Int8.le_iff_toInt_le.mp (Std.min_le_right ..)

variable {input : RegulatoryRatePowerChannel}

theorem stateIsValid_power (h : input.stateIsValid = true) (hpres : input.present = true)
    (hdis : input.disabled = false) :
    ∃ power, input.maxRegPowerDbm = some power ∧ 0 ≤ power.toInt ∧ power.toInt ≤ 63 := by
  unfold RegulatoryRatePowerChannel.stateIsValid at h
  rw [hpres, hdis] at h
  cases hpow : input.maxRegPowerDbm with
  | none => simp [hpow] at h
  | some power =>
    simp only [hpow, Bool.and_eq_true, decide_eq_true_eq, Int8.le_iff_toInt_le] at h
    exact ⟨power, rfl, h⟩

theorem toInt_mul_two {power : Int8} (h : 0 ≤ power.toInt) (h' : power.toInt ≤ 63) :
    (power * 2).toInt = 2 * power.toInt := by
  rw [Int8.toInt_mul]
  show (power.toInt * 2).bmod (2 ^ 8) = 2 * power.toInt
  rw [Int.bmod_eq_of_le (by omega) (by omega)]
  omega

/-- Every channel has a target, which respects the limits of a channel
that is in use. -/
theorem snapshotChannelTarget_bounded (hsorted : SarOrdered snapshot.sarRanges)
    (hvalid : input.stateIsValid = true) :
    ∃ target, snapshotChannelTarget input snapshot = some target ∧
      (input.present = true → input.disabled = false → RateBounded snapshot input target) := by
  unfold snapshotChannelTarget
  by_cases hunused : ¬ input.present ∨ input.disabled
  · refine ⟨127, if_pos hunused, fun hpres hdis => ?_⟩
    simp [hpres, hdis] at hunused
  · obtain ⟨hpres, hdis⟩ : input.present = true ∧ input.disabled = false := by
      simpa using hunused
    obtain ⟨power, hpow, hnonneg, hle⟩ := stateIsValid_power hvalid hpres hdis
    rw [if_neg hunused, hpow]
    refine ⟨_, rfl, fun _ _ => ⟨⟨power, hpow, ?_⟩, fun range hrng hcov => ?_, fun cap hcap => ?_⟩⟩
    · rw [← toInt_mul_two hnonneg hle]
      exact Int.le_trans (capped_le ..) (capped_le ..)
    · obtain ⟨found, hfound⟩ := Option.isSome_iff_exists.mp
        ((find?_isSome (p := (·.covers input.frequencyMhz))).mpr ⟨range, hrng, hcov⟩)
      rw [hfound, covers_unique hsorted hfound hrng hcov]
      exact Int.le_trans (capped_le ..) (capped_le_limit ..)
    · rw [hcap]
      exact capped_le_limit ..

/-! ## Pages -/

/-- How a channel is listed. -/
structure Listed (snapshot : RegulatoryRatePowerSnapshot) (channel : PhysicalBand × UInt16)
    (listing : RatePowerListing) : Prop where
  band : ratePowerBandId channel.1 = some listing.band
  number : listing.channel.toNat = channel.2.toNat
  length : listing.rates.length = mt7921SkuRateCount
  bounded : ∀ input ∈ snapshot.channels, input.isFor channel = true → input.present = true →
    input.disabled = false → ∀ i rate, listing.rates[i]? = some rate → reservedRate i = false →
    (cckRate i = true → channel.1 = .ghz2) → RateBounded snapshot input rate.toInt8

/-- What paging does to the expected channels. -/
structure Paged (expected : List (PhysicalBand × UInt16)) (batches : List RatePowerBatch) :
    Prop where
  channels : batches.flatMap (·.channels) = expected
  last : batches.map (·.last) = replicate (batches.length - 1) false ++ [true]
  band : ∀ batch ∈ batches, (ratePowerBandId batch.band).isSome ∧ batch.channels.length ≤ 8 ∧
    ∀ channel ∈ batch.channels, channel.1 = batch.band ∧ channel.2 < 256

variable {capability : NicCapability} {expected : List (PhysicalBand × UInt16)}

theorem expected_paged (h : expectedRatePowerChannels capability = .ok expected) :
    Paged expected (ratePowerBatches expected expected.length expected) := by
  unfold expectedRatePowerChannels at h
  split at h
  · cases h
  next phy _ =>
    split at h
    · cases h
    · cases h
      cases phy.has5ghz
      · exact ⟨by decide +kernel, by decide +kernel, by decide +kernel⟩
      · exact ⟨by decide +kernel, by decide +kernel, by decide +kernel⟩

theorem mapM_related {α β : Type} {f : α → Option β} {R : α → β → Prop} {l : List α}
    (h : ∀ a ∈ l, ∃ b, f a = some b ∧ R a b) : ∃ l', l.mapM f = some l' ∧ l.Forall₂ R l' := by
  induction l with
  | nil => exact ⟨[], rfl, .nil⟩
  | cons a l ih =>
    obtain ⟨b, hb, hab⟩ := h a mem_cons_self
    obtain ⟨l', hl', hr⟩ := ih fun a' ha' => h a' (mem_cons_of_mem a ha')
    refine ⟨b :: l', ?_, .cons hab hr⟩
    rw [mapM_cons, hb, hl']
    rfl

theorem ratePowerEntry_bounded (hval : Validated snapshot channel)
    (hsorted : SarOrdered snapshot.sarRanges) :
    ∃ entry, ratePowerEntry snapshot channel = some entry ∧ entry.1 = channel.2.toUInt8 ∧
      ∀ input ∈ snapshot.channels, input.isFor channel = true → input.present = true →
        input.disabled = false → RateBounded snapshot input entry.2 := by
  obtain ⟨input, hinp, hvalid⟩ := hval
  obtain ⟨target, htarget, hbound⟩ := snapshotChannelTarget_bounded hsorted hvalid
  have hfind : snapshot.channels.find? (·.isFor channel) = some input := by
    rw [← head?_filter, hinp]
    rfl
  refine ⟨(channel.2.toUInt8, target), ?_, rfl, fun other hother hfor hpres hdis => ?_⟩
  · simp [ratePowerEntry, hfind, htarget]
  · -- the input of the channel is the only one
    have hmem : other ∈ snapshot.channels.filter (·.isFor channel) := mem_filter.mpr ⟨hother, hfor⟩
    rw [hinp] at hmem
    obtain rfl := mem_singleton.mp hmem
    exact hbound hpres hdis

/-- A command is the page of a batch. -/
def Lists (snapshot : RegulatoryRatePowerSnapshot) (batch : RatePowerBatch) (command : Bytes) :
    Prop :=
  (readRatePowerPage command).last = batch.last.toUInt8 ∧
    batch.channels.Forall₂ (Listed snapshot) (readRatePowerPage command).listings

theorem regulatoryPage_listed {sequence : UInt8} {batch : RatePowerBatch}
    (hband : (ratePowerBandId batch.band).isSome) (hlen : batch.channels.length ≤ 8)
    (hchans : ∀ channel ∈ batch.channels, channel.1 = batch.band ∧ channel.2 < 256)
    (hval : ∀ channel ∈ batch.channels, Validated snapshot channel)
    (hsorted : SarOrdered snapshot.sarRanges) :
    ∃ command, regulatoryPage snapshot sequence batch = some command ∧
      Lists snapshot batch command := by
  obtain ⟨band, hid⟩ := Option.isSome_iff_exists.mp hband
  obtain ⟨entries, hents, hlisted⟩ : ∃ entries,
      batch.channels.mapM (ratePowerEntry snapshot) = some entries ∧
        batch.channels.Forall₂ (fun channel entry => Listed snapshot channel
          ⟨band, entry.1, mt7921UniformRatePowerSku band entry.2⟩) entries := by
    refine mapM_related fun channel hchan => ?_
    obtain ⟨entry, hent, hnum, hbound⟩ := ratePowerEntry_bounded (hval channel hchan) hsorted
    obtain ⟨hsame, hsmall⟩ := hchans channel hchan
    refine ⟨entry, hent, hsame ▸ hid, ?_, length_sku .., ?_⟩
    · rw [hnum, UInt16.toNat_toUInt8]
      exact Nat.mod_eq_of_lt (UInt16.lt_iff_toNat_lt.mp hsmall)
    · intro input hinp hfor hpres hdis i rate hrate hresv hcck
      have hband : cckRate i = true → band = 1 := by
        intro hi
        rw [← hsame, hcck hi] at hid
        exact (Option.some.inj hid).symm
      rw [getElem_sku hrate hresv hband]
      exact hbound input hinp hfor hpres hdis
  have hshort : entries.length < 256 := by
    have hsame := hlisted.length_eq
    omega
  refine ⟨ratePowerPage sequence band batch.last snapshot.alpha2 entries, ?_, ?_⟩
  · simp [regulatoryPage, hid, hents]
  · rw [Lists, read_ratePowerPage _ _ _ _ hshort]
    exact ⟨rfl, forall₂_map_right_iff.mpr hlisted⟩

/-- The pages list every expected channel once and in order, the last one
and no other is marked, and every rate of a channel in use that is not
reserved (and not CCK at 5 GHz) is within its limits. -/
theorem rate_power_within_limits {capability : NicCapability}
    {snapshot : RegulatoryRatePowerSnapshot} {generation : UInt64} {firstSequence : UInt8}
    {answer : Option (List Bytes)}
    (h : encodeRegulatoryRateTxPowerCommands capability snapshot generation firstSequence =
      .ok answer) :
    ∃ expected commands, expectedRatePowerChannels capability = .ok expected ∧
      answer = some commands ∧
      expected.Forall₂ (Listed snapshot)
        (commands.flatMap fun command => (readRatePowerPage command).listings) ∧
      commands.map (fun command => (readRatePowerPage command).last) =
        replicate (commands.length - 1) 0 ++ [1] := by
  obtain ⟨expected, hvali, h⟩ := bind_eq_ok.mp h
  obtain ⟨-, ⟨⟩⟩ := guard_eq_ok.mp h
  obtain ⟨-, hvali⟩ := guard_eq_ok.mp hvali
  obtain ⟨-, hvali⟩ := guard_eq_ok.mp hvali
  obtain ⟨expected, hexp, hvali⟩ := bind_eq_ok.mp hvali
  obtain ⟨-, hvali⟩ := guard_eq_ok.mp hvali
  obtain ⟨⟨⟩, hvalid, hvali⟩ := bind_eq_ok.mp hvali
  obtain ⟨⟨⟩, hranges, ⟨⟩⟩ := bind_eq_ok.mp hvali
  have hsorted := (validateSarRanges_ok hranges).2
  have hpaged := expected_paged hexp
  generalize ratePowerBatches expected expected.length expected = batches at hpaged ⊢
  obtain ⟨commands, hcmds, hrelated⟩ : ∃ commands,
      (batches.zipIdx.mapM fun page =>
        regulatoryPage snapshot (firstSequence + UInt8.ofNat page.2) page.1) = some commands ∧
      batches.zipIdx.Forall₂ (fun page => Lists snapshot page.1) commands := by
    refine mapM_related fun page hpage => ?_
    have hbatch : page.1 ∈ batches := fst_mem_of_mem_zipIdx hpage
    obtain ⟨hband, hlen, hchans⟩ := hpaged.band page.1 hbatch
    refine regulatoryPage_listed hband hlen hchans (fun channel hchan => ?_) hsorted
    refine validateRatePowerChannel_ok (forM_ok hvalid channel ?_)
    rw [← hpaged.channels]
    exact mem_flatMap.mpr ⟨page.1, hbatch, hchan⟩
  have hpgs : batches.Forall₂ (Lists snapshot) commands := by
    rw [← zipIdx_map_fst 0 batches]
    exact forall₂_map_left_iff.mpr hrelated
  refine ⟨expected, commands, hexp, hcmds, ?_, ?_⟩
  · rw [← hpaged.channels]
    exact rel_flatMap hpgs fun _ _ hpage => hpage.2
  · have hl : (batches.map (·.last)).map Bool.toUInt8 =
        commands.map fun command => (readRatePowerPage command).last := by
      rw [map_map, ← forall₂_eq_eq_eq]
      exact forall₂_map_left_iff.mpr (forall₂_map_right_iff.mpr
        (hpgs.imp fun _ _ hpage => hpage.1.symm))
    rw [← hl, hpaged.last, hpgs.length_eq, map_append, map_replicate]
    rfl

/-- All channels in use with the same regulatory power. -/
def uniformSnapshot (channels : List (PhysicalBand × UInt16)) (power : Int8) :
    RegulatoryRatePowerSnapshot where
  generation := 0
  alpha2 := .world
  sourceSha256 := Vector.replicate 32 0
  channels := channels.map fun channel =>
    ⟨channel.1, channel.2, (ratePowerFrequency channel.1 channel.2).getD 0, true, false, some power⟩
  sarRanges := [⟨2400, 2500, 30⟩]
  externalCapHalfDbm := some 35

/-- Both bands, without 6 GHz. -/
def exampleCapability : NicCapability := ⟨some ⟨true⟩, some false⟩

def exampleSnapshot : RegulatoryRatePowerSnapshot :=
  uniformSnapshot (ratePowerChannels2Ghz.map (PhysicalBand.ghz2, ·) ++
    ratePowerChannels5Ghz.map (PhysicalBand.ghz5, ·)) 20

def exampleAnswer : Except RateTxPowerError (Option (List Bytes)) :=
  encodeRegulatoryRateTxPowerCommands exampleCapability exampleSnapshot 0 4

theorem rate_power_within_limits_uniform : ∃ answer, exampleAnswer = .ok answer ∧
    ∃ expected commands, expectedRatePowerChannels exampleCapability = .ok expected ∧
      answer = some commands ∧
      expected.Forall₂ (Listed exampleSnapshot)
        (commands.flatMap fun command => (readRatePowerPage command).listings) ∧
      commands.map (fun command => (readRatePowerPage command).last) =
        replicate (commands.length - 1) 0 ++ [1] := by
  have hok : exampleAnswer.isOk := by decide +kernel
  cases h : exampleAnswer with
  | error =>
    rw [h] at hok
    cases hok
  | ok answer => exact ⟨answer, rfl, rate_power_within_limits h⟩

/-- The first CCK entry of a 5 GHz channel in use is above its limits. -/
theorem cck_unlimited : ∃ commands, exampleAnswer = .ok (some commands) ∧
    ∃ listing ∈ commands.flatMap fun command => (readRatePowerPage command).listings,
      ∃ input ∈ exampleSnapshot.channels, ratePowerBandId input.band = some listing.band ∧
        input.channel.toNat = listing.channel.toNat ∧ input.present = true ∧
        input.disabled = false ∧ reservedRate 0 = false ∧
        ∃ rate ∈ listing.rates[0]?, ¬ RateBounded exampleSnapshot input rate.toInt8 := by
  have hlisted : exampleAnswer.toOption.join.any (fun commands =>
      decide (∃ listing ∈ commands.flatMap fun command => (readRatePowerPage command).listings,
        listing.band = 2 ∧ listing.channel = 36 ∧ listing.rates[0]? = some 127)) = true := by
    decide +kernel
  obtain ⟨commands, hjoin, hlisted⟩ := (Option.any_eq_true _ _).mp hlisted
  have hcmds : exampleAnswer = .ok (some commands) := by
    have hans := Option.join_eq_some_iff.mp hjoin
    cases henc : exampleAnswer with
    | error =>
      rw [henc] at hans
      cases hans
    | ok =>
      rw [henc] at hans
      cases hans
      rfl
  obtain ⟨listing, hlisting, hband, hchan, hrate⟩ := of_decide_eq_true hlisted
  refine ⟨commands, hcmds, listing, hlisting, ⟨.ghz5, 36, 5180, true, false, some 20⟩,
    mem_map.mpr ⟨(.ghz5, 36), by decide, rfl⟩, by rw [hband]; rfl, by rw [hchan]; rfl,
    rfl, rfl, rfl, 127, hrate, fun hbound => ?_⟩
  obtain ⟨power, hpow, hle⟩ := hbound.regulatory
  cases hpow
  revert hle
  decide

end Drv.Mt7921
