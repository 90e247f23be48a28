import Drv.Base.Vec
import Drv.Mt7921.Encode

/-!
# Rate power tables

The commands that limit the transmit power of every channel and rate. The
channels are written in pages of eight, band by band, with 161 limits in
half dBm for each channel.

There are two encoders: one takes a whole regulatory snapshot, the other
one conservative limit for all channels. A value that the source expects
after its validation is an `Option` here: `none` stands for a stop of the
program.
-/

namespace Drv.Mt7921

def mt7921SkuRateCount : Nat := 161

/-! ## Inputs -/

structure NicPhyCapability where
  has5ghz : Bool

structure NicCapability where
  phy : Option NicPhyCapability
  has6ghz : Option Bool

abbrev Alpha2 := Vector UInt8 2

/-- The world domain, `00`. -/
def Alpha2.world : Alpha2 := #v[0x30, 0x30]

structure RegulatoryRatePowerChannel where
  band : PhysicalBand
  channel : UInt16
  frequencyMhz : UInt16
  present : Bool
  disabled : Bool
  maxRegPowerDbm : Option Int8

structure SarFrequencyRange where
  startMhz : UInt16
  endMhz : UInt16
  maxPowerHalfDbm : Int8

structure RegulatoryRatePowerSnapshot where
  generation : UInt64
  alpha2 : Alpha2
  sourceSha256 : Vector UInt8 32
  channels : List RegulatoryRatePowerChannel
  sarRanges : List SarFrequencyRange
  externalCapHalfDbm : Option Int8

structure ConservativePowerLimits where
  alpha2 : Alpha2
  maxRegPowerDbm : UInt8
  sarLimitHalfDbm : Option Int8
  externalSafetyCapHalfDbm : Option Int8

inductive RateTxPowerError where
  | nonWorldDomain | missingBandCapabilities | missingLimit | invalidRegulatoryLimit
  | invalidSequence | unsupported6Ghz | staleSnapshot | incompleteSnapshot | duplicateChannel
  | invalidChannelFrequency | invalidSarRange | sourceHashMismatch

/-! ## Channels -/

def ratePowerChannels2Ghz : List UInt16 := [1, 2, 3, 4, 5, 6, 7, 8, 9, 10, 11, 12, 13, 14]

def ratePowerChannels5Ghz : List UInt16 :=
  [36, 38, 40, 42, 44, 46, 48, 50, 52, 54, 56, 58, 60, 62, 64, 100, 102, 104, 106, 108, 110, 112,
    114, 116, 118, 120, 122, 124, 126, 128, 132, 134, 136, 138, 140, 142, 144, 149, 151, 153, 155,
    157, 159, 161, 165, 169, 173, 177]

def expectedRatePowerChannels (capability : NicCapability) :
    Except RateTxPowerError (List (PhysicalBand × UInt16)) :=
  match capability.phy with
  | none => .error .missingBandCapabilities
  | some phy =>
    if capability.has6ghz ≠ some false then .error .unsupported6Ghz
    else .ok (ratePowerChannels2Ghz.map (PhysicalBand.ghz2, ·) ++
      if phy.has5ghz then ratePowerChannels5Ghz.map (PhysicalBand.ghz5, ·) else [])

/-- `base + 5 * channel`, unless it overflows. -/
def frequencyFrom (base : Nat) (channel : UInt16) : Option UInt16 :=
  if base + channel.toNat * 5 < 65536 then some (UInt16.ofNat (base + channel.toNat * 5)) else none

def ratePowerFrequency (band : PhysicalBand) (channel : UInt16) : Option UInt16 :=
  match band with
  | .ghz2 => if channel = 14 then some 2484 else frequencyFrom 2407 channel
  | .ghz5 => frequencyFrom 5000 channel
  | .ghz6 => none

/-! ## Validation -/

variable (input : RegulatoryRatePowerChannel)

def RegulatoryRatePowerChannel.stateIsValid : Bool :=
  match input.present, input.disabled, input.maxRegPowerDbm with
  | false, false, none | true, true, none => true
  | true, false, some power => 0 ≤ power && power ≤ 63
  | _, _, _ => false

/-- The inputs for a channel. -/
def RegulatoryRatePowerChannel.isFor (channel : PhysicalBand × UInt16) : Bool :=
  input.band = channel.1 && input.channel = channel.2

variable (snapshot : RegulatoryRatePowerSnapshot)

def validateRatePowerChannel (channel : PhysicalBand × UInt16) : Except RateTxPowerError Unit :=
  match snapshot.channels.filter (·.isFor channel) with
  | [] => .error .incompleteSnapshot
  | _ :: _ :: _ => .error .duplicateChannel
  | [input] =>
    if ratePowerFrequency channel.1 channel.2 ≠ some input.frequencyMhz then
      .error .invalidChannelFrequency
    else if input.stateIsValid then .ok ()
    else .error .invalidRegulatoryLimit

/-- The ranges are in order and do not overlap. -/
def validateSarRanges (previousEnd : Option UInt16) :
    List SarFrequencyRange → Except RateTxPowerError Unit
  | [] => .ok ()
  | range :: rest =>
    if range.startMhz ≥ range.endMhz ∨
        previousEnd.any fun previous => range.startMhz < previous then
      .error .invalidSarRange
    else validateSarRanges (some range.endMhz) rest

def validateRatePowerSnapshot (capability : NicCapability) (snapshot : RegulatoryRatePowerSnapshot)
    (expectedGeneration : UInt64) : Except RateTxPowerError (List (PhysicalBand × UInt16)) :=
  if snapshot.generation ≠ expectedGeneration then .error .staleSnapshot
  else if snapshot.alpha2 ≠ .world then .error .nonWorldDomain
  else do
    let expected ← expectedRatePowerChannels capability
    if snapshot.channels.length ≠ expected.length then .error .incompleteSnapshot
    else do
      expected.forM (validateRatePowerChannel snapshot)
      validateSarRanges none snapshot.sarRanges
      return expected

/-! ## Limits -/

def SarFrequencyRange.covers (range : SarFrequencyRange) (frequencyMhz : UInt16) : Bool :=
  range.startMhz ≤ frequencyMhz && frequencyMhz < range.endMhz

/-- The smaller of a limit and another one, if there is one. -/
def capped (target : Int8) (limit : Option Int8) : Int8 := limit.elim target (min target)

/-- `none`: a channel that is present has a regulatory power. -/
def snapshotChannelTarget (snapshot : RegulatoryRatePowerSnapshot) : Option Int8 :=
  if ¬ input.present ∨ input.disabled then some 127
  else do
    let power ← input.maxRegPowerDbm
    let range := snapshot.sarRanges.find? (·.covers input.frequencyMhz)
    return capped (capped (power * 2) (range.map (·.maxPowerHalfDbm))) snapshot.externalCapHalfDbm

/-- The limits of one channel: CCK, OFDM, HT for one and two streams, HT MCS
32, ten VHT rates and two reserved entries for each of four streams, HE. -/
def mt7921UniformRatePowerSku (band : UInt8) (target : Int8) : Bytes :=
  let value := target.toUInt8
  let vht := List.replicate 10 value ++ List.replicate 2 127
  List.replicate 4 (if band = 1 then value else 127) ++ List.replicate 8 value ++
    List.replicate 8 value ++ List.replicate 8 value ++ [value] ++ (vht ++ vht ++ vht ++ vht) ++
    List.replicate 84 value

/-! ## Pages -/

/-- A page with the channels and limits of one band. -/
def ratePowerPage (sequence band : UInt8) (last : Bool) (alpha2 : Alpha2)
    (entries : List (UInt8 × Int8)) : Bytes :=
  let request := [0, 0, 0, 0, UInt8.ofNat entries.length, band, last.toUInt8, 0] ++ alpha2.toList ++
    List.replicate 34 0 ++
    entries.flatMap fun entry => entry.1 :: mt7921UniformRatePowerSku band entry.2
  let bytes := mcuHeader connac2McuTxdBytes request
  patch (patch bytes 34 (Bytes.ofNatLE 2 0x8000)) 36 [0x5d, 0xa0, 1, sequence]

/-- The channels of one page. -/
structure RatePowerBatch where
  band : PhysicalBand
  last : Bool
  channels : List (PhysicalBand × UInt16)

/-- The loop over the bands of the channels that are left. -/
def ratePowerBatches (expected : List (PhysicalBand × UInt16)) :
    Nat → List (PhysicalBand × UInt16) → List RatePowerBatch
  | 0, _ | _, [] => []
  | fuel + 1, (band, channel) :: rest =>
    let run := ((band, channel) :: rest).takeWhile (·.1 = band)
    let after := ((band, channel) :: rest).dropWhile (·.1 = band)
    (chunks 8 run).map (fun batch =>
      ⟨band, after.isEmpty && batch.getLast? = expected.getLast?, batch⟩) ++
      ratePowerBatches expected fuel after

/-- The source stops at 6 GHz, which has no expected channel. -/
def ratePowerBandId : PhysicalBand → Option UInt8
  | .ghz2 => some 1
  | .ghz5 => some 2
  | .ghz6 => none

/-- `none`: a validated snapshot has every channel. -/
def ratePowerEntry (channel : PhysicalBand × UInt16) : Option (UInt8 × Int8) := do
  let input ← snapshot.channels.find? (·.isFor channel)
  return (channel.2.toUInt8, ← snapshotChannelTarget input snapshot)

def regulatoryPage (sequence : UInt8) (batch : RatePowerBatch) : Option Bytes := do
  let band ← ratePowerBandId batch.band
  let entries ← batch.channels.mapM (ratePowerEntry snapshot)
  return ratePowerPage sequence band batch.last snapshot.alpha2 entries

def encodeRegulatoryRateTxPowerCommands (capability : NicCapability)
    (snapshot : RegulatoryRatePowerSnapshot) (expectedGeneration : UInt64) (firstSequence : UInt8) :
    Except RateTxPowerError (Option (List Bytes)) := do
  let expected ← validateRatePowerSnapshot capability snapshot expectedGeneration
  let commandCount := (expected.length + 7) / 8
  if firstSequence = 0 ∨ firstSequence.toNat + commandCount - 1 > 15 then .error .invalidSequence
  else
    return (ratePowerBatches expected expected.length expected).zipIdx.mapM fun (batch, index) =>
      regulatoryPage snapshot (firstSequence + UInt8.ofNat index) batch

/-! ## One limit for all channels -/

/-- The least of the three limits. -/
def ConservativePowerLimits.target (limits : ConservativePowerLimits) (sar safetyCap : Int8) :
    Int8 :=
  min (min (limits.maxRegPowerDbm.toInt8 * 2) sar) safetyCap

def encodeConservativeRateTxPowerCommands (capability : NicCapability)
    (limits : ConservativePowerLimits) (firstSequence : UInt8) :
    Except RateTxPowerError (List Bytes) :=
  if limits.alpha2 ≠ .world then .error .nonWorldDomain
  else if limits.maxRegPowerDbm > 20 then .error .invalidRegulatoryLimit
  else
    match limits.sarLimitHalfDbm, limits.externalSafetyCapHalfDbm, capability.phy with
    | none, _, _ | some _, none, _ => .error .missingLimit
    | some _, some _, none => .error .missingBandCapabilities
    | some sar, some safetyCap, some phy =>
      if capability.has6ghz ≠ some false then .error .unsupported6Ghz
      else
        let bands : List (UInt8 × List UInt8) :=
          (1, ratePowerChannels2Ghz.map (·.toUInt8)) ::
            if phy.has5ghz then [(2, ratePowerChannels5Ghz.map (·.toUInt8))] else []
        let commandCount := (bands.map fun band => (band.2.length + 7) / 8).sum
        let final := bands.getLast?
        if firstSequence = 0 ∨ firstSequence.toNat + commandCount - 1 > 15 then
          .error .invalidSequence
        else
          let batches := bands.flatMap fun band => (chunks 8 band.2).map (band.1, ·)
          .ok (batches.zipIdx.map fun (batch, index) =>
            ratePowerPage (firstSequence + UInt8.ofNat index) batch.1
              (final.map (·.1) = some batch.1 && batch.2.getLast? = final.bind (·.2.getLast?))
              limits.alpha2 (batch.2.map (·, limits.target sar safetyCap)))

end Drv.Mt7921
