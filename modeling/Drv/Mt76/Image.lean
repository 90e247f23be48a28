import Drv.Base.Slices

/-!
# Firmware images

A patch lists its payloads in a table behind its header. A firmware image
has its payloads first, then a table of regions and a trailer. Both are
checked as a whole when they are parsed, and walked again by an iterator
that does not check: a read out of range, an error without a reason here,
would be a panic.
-/

namespace Drv.Mt76

def fwTrailerLen : Nat := 36
def fwRegionLen : Nat := 40
def patchHeaderLen : Nat := 96
def patchSectionLen : Nat := 64

inductive FirmwareError where
  | missingTrailer
  | regionTableTooLarge
  | payloadLengthOverflow
  | payloadOverlapsMetadata

inductive PatchError where
  | missingHeader
  | regionTableTooLarge
  | unsupportedSectionType
  | payloadOutOfBounds

abbrev Parse (ε α : Type) := Except (Option ε) α

section
variable {ε : Type} (b : Bytes)

def slice (first last : Nat) : Parse ε Bytes := (b.between first last).mapError fun _ => none

def byte (i : Nat) : Parse ε UInt8 := (b.byte i).mapError fun _ => none

def leU32 (first : Nat) : Parse ε Nat := do return (← slice b first (first + 4)).toNatLE

def beU32 (first : Nat) : Parse ε Nat := do
  return Bytes.toNatLE (← slice b first (first + 4)).reverse

def beU16 (first : Nat) : Parse ε Nat := do
  return Bytes.toNatLE (← slice b first (first + 2)).reverse

end

/-! ## Patches -/

structure PatchHeader where
  buildDate : Bytes
  platform : Bytes
  hardwareSoftwareVersion : Nat
  patchVersion : Nat
  checksum : Nat
  descriptorPatchVersion : Nat
  subsystem : Nat
  feature : Nat
  crc : Nat

def PatchHeader.read (header : Bytes) : Parse PatchError PatchHeader := do
  return {
    buildDate := ← slice header 0 16
    platform := ← slice header 16 20
    hardwareSoftwareVersion := ← beU32 header 20
    patchVersion := ← beU32 header 24
    checksum := ← beU16 header 28
    descriptorPatchVersion := ← beU32 header 32
    subsystem := ← beU32 header 36
    feature := ← beU32 header 40
    crc := ← beU32 header 48 }

structure PatchSection where
  address : Nat
  securityInfo : Nat
  payload : Bytes

structure Patch where
  bytes : Bytes
  regionCount : Nat
  header : PatchHeader

/-- The loop of `parse` over the sections from `index` on. -/
def Patch.check (bytes : Bytes) (tableLen : Nat) : Nat → Nat → Parse PatchError Unit
  | _, 0 => return ()
  | index, rest + 1 => do
    let start := patchHeaderLen + index * patchSectionLen
    let entry ← slice bytes start (start + patchSectionLen)
    if (← beU32 entry 0) % 2 ^ 16 ≠ 2 then .error (some .unsupportedSectionType)
    else do
      let offset ← beU32 entry 4
      let length ← beU32 entry 16
      if offset + length ≥ 2 ^ 64 ∨ offset < tableLen ∨ offset + length > bytes.length then
        .error (some .payloadOutOfBounds)
      else check bytes tableLen (index + 1) rest

def Patch.parse (bytes : Bytes) : Parse PatchError Patch :=
  if bytes.length < patchHeaderLen then .error (some .missingHeader)
  else do
    let header := bytes.take patchHeaderLen
    let regionCount ← beU32 header 44
    let tableLen := patchHeaderLen + regionCount * patchSectionLen
    if tableLen ≥ 2 ^ 64 ∨ tableLen > bytes.length then .error (some .regionTableTooLarge)
    else do
      check bytes tableLen 0 regionCount
      return { bytes, regionCount, header := ← PatchHeader.read header }

/-- `PatchSections::next`, from a place in the table. -/
def Patch.next (p : Patch) (index : Nat) : Parse PatchError (Option (PatchSection × Nat)) :=
  if index = p.regionCount then return none
  else do
    let start := patchHeaderLen + index * patchSectionLen
    let entry ← slice p.bytes start (start + patchSectionLen)
    let offset ← beU32 entry 4
    let length ← beU32 entry 16
    return some (⟨← beU32 entry 12, ← beU32 entry 20,
      ← slice p.bytes offset (offset + length)⟩, index + 1)

/-! ## Firmware -/

structure FirmwareTrailer where
  chipId : UInt8
  ecoCode : UInt8
  formatVersion : UInt8
  formatFlag : UInt8
  firmwareVersion : Bytes
  buildDate : Bytes
  crc : Nat

def FirmwareTrailer.read (trailer : Bytes) : Parse FirmwareError FirmwareTrailer := do
  return {
    chipId := ← byte trailer 0
    ecoCode := ← byte trailer 1
    formatVersion := ← byte trailer 3
    formatFlag := ← byte trailer 4
    firmwareVersion := ← slice trailer 7 17
    buildDate := ← slice trailer 17 32
    crc := ← leU32 trailer 32 }

structure FirmwareRegion where
  address : Nat
  featureSet : UInt8
  regionType : UInt8
  payload : Bytes

structure Firmware where
  bytes : Bytes
  metadataStart : Nat
  regionCount : UInt8
  trailer : FirmwareTrailer

namespace Firmware

def regionRecord (f : Firmware) (index : Nat) : Parse FirmwareError Bytes :=
  let start := f.metadataStart + index * fwRegionLen
  slice f.bytes start (start + fwRegionLen)

/-- The loop of `parse` over the regions from `index` on. -/
def check (f : Firmware) : Nat → Nat → Nat → Parse FirmwareError Unit
  | _, _, 0 => return ()
  | payloadEnd, index, rest + 1 => do
    let payloadEnd := payloadEnd + (← leU32 (← f.regionRecord index) 20)
    if payloadEnd ≥ 2 ^ 64 then .error (some .payloadLengthOverflow)
    else if payloadEnd > f.metadataStart then .error (some .payloadOverlapsMetadata)
    else check f payloadEnd (index + 1) rest

def parse (bytes : Bytes) : Parse FirmwareError Firmware :=
  if bytes.length < fwTrailerLen then .error (some .missingTrailer)
  else do
    let trailerStart := bytes.length - fwTrailerLen
    let trailer ← slice bytes trailerStart bytes.length
    let regionCount ← byte trailer 2
    let tableLen := regionCount.toNat * fwRegionLen
    if trailerStart < tableLen then .error (some .regionTableTooLarge)
    else do
      let parsed : Firmware := {
        bytes
        metadataStart := trailerStart - tableLen
        regionCount
        trailer := ← FirmwareTrailer.read trailer }
      parsed.check 0 0 regionCount.toNat
      return parsed

/-- `FirmwareRegions::next`, from a region and the end of the payload before. -/
def next (f : Firmware) : Nat × Nat → Parse FirmwareError (Option (FirmwareRegion × Nat × Nat))
  | (index, payloadOffset) =>
    if index = f.regionCount.toNat then return none
    else do
      let record ← f.regionRecord index
      let payloadEnd := payloadOffset + (← leU32 record 20)
      return some (⟨← leU32 record 16, ← byte record 24, ← byte record 25,
        ← slice f.bytes payloadOffset payloadEnd⟩, index + 1, payloadEnd)

end Firmware

end Drv.Mt76
