import Drv.Base.Slices

/-!
# The wire of the local resolver

A request and a response of fixed size. A request holds a name; a response
holds a status and up to 64 addresses in slots of 17 bytes. Bytes that
carry nothing are zero.

Every slice of the source is checked, so that a read out of bounds would
be an error here, where the source would panic.
-/

namespace Drv.Net.DnsWire

open Bytes

def requestLen : Nat := 264
def maxAddresses : Nat := 64
def responseLen : Nat := 8 + maxAddresses * 17
def ok : UInt8 := 0
def notFound : UInt8 := 1
def temporary : UInt8 := 2
def unavailable : UInt8 := 3

/-- The ASCII of `DRD1`. -/
def magic : Bytes := [0x44, 0x52, 0x44, 0x31]

abbrev Request := List.Vector UInt8 requestLen
abbrev Response := List.Vector UInt8 responseLen

inductive IpAddr where
  | v4 (octets : List.Vector UInt8 4)
  | v6 (octets : List.Vector UInt8 16)

def asBytes (name : String) : Bytes := name.toUTF8.data.toList

def fromUtf8 (b : Bytes) : Option String := String.fromUTF8? ⟨b.toArray⟩

abbrev Checked (α : Type) := Except OutOfBounds α

def request (name : String) : Checked (Option Request) :=
  let bytes := asBytes name
  if bytes = [] ∨ bytes.length > 254 ∨ 0 ∈ bytes then return none
  else do
    let out : Request := List.Vector.replicate requestLen 0
    let out ← overwrite out 0 4 magic
    let out ← overwrite out 4 6 (ofNatLE 2 bytes.length)
    let out ← overwrite out 8 (8 + bytes.length) bytes
    return some out

/-- The name in a request whose fixed bytes were checked. -/
def readName (input : Request) (len : Nat) : Checked (Option String) := do
  let padding ← after input.toList (8 + len)
  if padding.any (· ≠ 0) then return none
  else do
    let bytes ← between input.toList 8 (8 + len)
    match fromUtf8 bytes with
    | none => return none
    | some name => if 0 ∈ asBytes name then return none else return some name

def name (input : Request) : Checked (Option String) := do
  let len := toNatLE (← between input.toList 4 6)
  let start ← between input.toList 0 4
  let zeros ← between input.toList 6 8
  if start ≠ magic ∨ len = 0 ∨ len > 254 ∨ zeros ≠ [0, 0] then return none
  else readName input len

/-- One address in the slot that starts at `first`. -/
def fillSlot (out : Response) (first : Nat) : IpAddr → Checked Response
  | .v4 octets => do
    let out ← overwrite out first (first + 1) [4]
    overwrite out (first + 1) (first + 5) octets.toList
  | .v6 octets => do
    let out ← overwrite out first (first + 1) [6]
    overwrite out (first + 1) (first + 17) octets.toList

/-- The slots from the one at `first` on, as long as there are any. -/
def fillSlots : Nat → List IpAddr → Response → Checked Response
  | _, [], out => return out
  | first, ip :: rest, out =>
    if first + 17 ≤ responseLen then do
      let out ← fillSlot out first ip
      fillSlots (first + 17) rest out
    else return out

def response (status : UInt8) (addresses : List IpAddr) : Checked Response := do
  let out : Response := List.Vector.replicate responseLen 0
  let out ← overwrite out 0 4 magic
  let out ← overwrite out 4 5 [status]
  if status ≠ ok then return out
  else do
    let out ← overwrite out 5 6 [UInt8.ofNat (min addresses.length maxAddresses)]
    fillSlots 8 addresses out

def readSlot (slot : Bytes) : Checked (Option IpAddr) := do
  let family ← slot.byte 0
  if family = 4 then do
    let padding ← slot.after 5
    if padding.all (· = 0) then do
      let octets ← slot.between 1 5
      return (toArray 4 octets).map .v4
    else return none
  else if family = 6 then do
    let octets ← slot.after 1
    return (toArray 16 octets).map .v6
  else return none

def readSlots : List Bytes → Checked (Option (List IpAddr))
  | [] => return some []
  | slot :: rest => do
    match ← readSlot slot with
    | none => return none
    | some ip => do
      match ← readSlots rest with
      | none => return none
      | some ips => return some (ip :: ips)

/-- The addresses of a response whose fixed bytes were checked, or the
status of a failure. -/
def readAddresses (input : Response) (status : UInt8) (count : Nat) :
    Checked (Option (Except UInt8 (List IpAddr))) := do
  let padding ← after input.toList (8 + count * 17)
  if padding.any (· ≠ 0) then return none
  else if status ≠ ok then return if count = 0 then some (.error status) else none
  else do
    let slots ← between input.toList 8 (8 + count * 17)
    let ips ← readSlots (chunksExact 17 (slots.length / 17) slots)
    return ips.map .ok

def addresses (input : Response) : Checked (Option (Except UInt8 (List IpAddr))) := do
  let count := (← byte input.toList 5).toNat
  let start ← between input.toList 0 4
  let status ← byte input.toList 4
  let zeros ← between input.toList 6 8
  if start ≠ magic ∨ status > unavailable ∨ count > maxAddresses ∨ zeros ≠ [0, 0] then return none
  else readAddresses input status count

end Drv.Net.DnsWire
