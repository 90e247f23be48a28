import Drv.Base.Bytes

/-!
# The answer cache of the DNS service

The forwarder keeps whole answers of its upstreams under the bytes of the
request with its id set to zero. An answer is kept for its smallest TTL,
a negative one for no longer than its SOA record says, and is handed out
with its TTLs aged.

The DNS library writes a message to bytes and parses it back; `Codec` is
what is assumed of it, and only of messages of the shape that it parses
itself: there are others, such as a code of more than four bits without
EDNS, that it does not write faithfully. Instants and durations are in nanoseconds. Fields
of a message that nothing reads are one byte string.
-/

namespace Drv.Net.DnsCache

def entriesLimit : Nat := 256
def bytesLimit : Nat := 4 * 1024 * 1024
def maxMessage : Nat := 65535
def second : Nat := 1000000000

inductive MessageType where
  | query | response
  deriving DecidableEq

inductive ResponseCode where
  | noError | formErr | servFail | nxDomain | notImp | refused | badVers
  | other (code : UInt16)
  deriving DecidableEq

inductive RData where
  | soa (minimum : UInt32) (rest : Bytes)
  | other (rest : Bytes)
  deriving DecidableEq

structure Record where
  name : Bytes
  recordType : UInt16
  ttl : UInt32
  data : RData
  deriving DecidableEq

structure Query where
  name : Bytes
  queryType : UInt16
  deriving DecidableEq

structure Edns where
  version : UInt8
  dnssecOk : Bool
  options : List Bytes
  rest : Bytes
  deriving DecidableEq

structure Message where
  id : UInt16
  messageType : MessageType
  opCode : UInt8
  responseCode : ResponseCode
  truncation : Bool
  authenticData : Bool
  queries : List Query
  answers : List Record
  authorities : List Record
  additionals : List Record
  edns : Option Edns
  signature : Option Bytes
  rest : Bytes
  deriving DecidableEq

def Record.bare (rr : Record) : Record := { rr with ttl := 0 }

/-- A message without what the service sets in one: the id, the AD bit and
the TTLs. -/
def Message.bare (m : Message) : Message :=
  { m with
    id := 0
    authenticData := false
    answers := m.answers.map Record.bare
    authorities := m.authorities.map Record.bare
    additionals := m.additionals.map Record.bare }

/-- A message as some bytes are parsed to, but for what the service sets. -/
def Formed (fromVec : Bytes → Option Message) (m : Message) : Prop :=
  ∃ b parsed, fromVec b = some parsed ∧ m.bare = parsed.bare

/-- What is written of such a message is parsed to the same message. -/
structure Codec where
  toVec : Message → Option Bytes
  fromVec : Bytes → Option Message
  faithful : ∀ m b, Formed fromVec m → toVec m = some b → fromVec b = some m

structure Entry where
  key : Bytes
  wire : Bytes
  inserted : Nat
  lifetime : Nat

namespace Entry

def size (e : Entry) : Nat := e.key.length + e.wire.length

end Entry

structure Cache where
  entries : List Entry
  bytes : Nat

def eligible (m : Message) : Bool :=
  m.signature.isNone && m.additionals.isEmpty && m.edns.all fun e => e.options.isEmpty

def Message.records (m : Message) : List Record := m.answers ++ m.authorities ++ m.additionals

def saturatingSub (a b : UInt32) : UInt32 := if b ≤ a then a - b else 0

def Record.age (seconds : UInt32) (rr : Record) : Record :=
  { rr with ttl := saturatingSub rr.ttl seconds }

def age (m : Message) (seconds : UInt32) : Message :=
  { m with
    answers := m.answers.map (Record.age seconds)
    authorities := m.authorities.map (Record.age seconds)
    additionals := m.additionals.map (Record.age seconds) }

/-- Whole seconds, as far as 32 bits count them. -/
def asSecs (elapsed : Nat) : UInt32 := UInt32.ofNat (min (elapsed / second) (2 ^ 32 - 1))

variable (codec : Codec) (c : Cache)

namespace Cache

def new : Cache := ⟨[], 0⟩

/-- The entry at an index, and the others. -/
def remove (i : Nat) (e : Entry) : Cache := ⟨c.entries.eraseIdx i, c.bytes - e.size⟩

def pushBack (e : Entry) : Cache := ⟨c.entries ++ [e], c.bytes + e.size⟩

def position (key : Bytes) : Option (Nat × Entry) := do
  let i ← c.entries.findIdx? fun e => e.key = key
  let e ← c.entries[i]?
  return (i, e)

def get (key : Bytes) (now : Nat) : Option Message × Cache :=
  match c.position key with
  | none => (none, c)
  | some (i, e) =>
    -- an instant before the insertion counts as the insertion
    let elapsed := now - e.inserted
    if elapsed ≥ e.lifetime then (none, c.remove i e)
    else
      match codec.fromVec e.wire with
      | none => (none, c.remove i e)
      | some m => (some (age m (asSecs elapsed)), (c.remove i e).pushBack e)

variable (response : Message)

/-- An answer that is never kept. -/
def unfit : Bool :=
  response.truncation || response.signature.isSome ||
    response.edns.any (fun e => !e.options.isEmpty) ||
    !(response.responseCode = .noError ∨ response.responseCode = .nxDomain)

def smallestTtl : UInt32 := ((response.records.map Record.ttl).min?).getD 0

def negative : Bool :=
  response.responseCode = .nxDomain ∨
    !response.answers.any fun rr => response.queries.head?.any fun q => rr.recordType = q.queryType

/-- The time to live of the first SOA record. -/
def soaTtl (httpAge : UInt32) : Option UInt32 :=
  response.authorities.findSome? fun rr =>
    match rr.data with
    | .soa minimum _ => some (min rr.ttl (saturatingSub minimum httpAge))
    | .other _ => none

/-- How long an answer is kept, if at all. -/
def timeToLive (httpAge : UInt32) : Option UInt32 :=
  if negative response then (soaTtl response httpAge).map (min (smallestTtl response))
  else some (smallestTtl response)

/-- Drop entries from the front until one of this size has room; `none` is
the panic when there is none left to drop. -/
def evict (size : Nat) : List Entry → Nat → Option Cache
  | entries, bytes =>
    if entries.length ≥ entriesLimit ∨ bytes + size > bytesLimit then
      match entries with
      | [] => none
      | old :: rest => evict size rest (bytes - old.size)
    else some ⟨entries, bytes⟩

/-- The place of an entry with the key is given up first. -/
def vacate (key : Bytes) : Cache :=
  match c.position key with
  | none => c
  | some (i, e) => c.remove i e

/-- `none` is a panic. -/
def insert (key : Bytes) (response : Message) (httpAge : UInt32) (now : Nat) : Option Cache :=
  if unfit response then some c
  else
    match timeToLive response httpAge with
    | none => some c
    | some ttl =>
      if ttl = 0 then some c
      else
        match codec.toVec response with
        | none => some c
        | some wire =>
          let e : Entry := ⟨key, wire, now, ttl.toNat * second⟩
          if e.size > bytesLimit then some c
          else
            let c := c.vacate key
            (evict e.size c.entries c.bytes).map (·.pushBack e)

end Cache

/-! ## The forwarder -/

variable (request : Message)

/-- A request that is refused without an upstream, and how. -/
def refusal : Option ResponseCode :=
  if request.messageType ≠ .query ∨ request.queries.length ≠ 1 ∨ request.answers ≠ [] ∨
      request.authorities ≠ [] then some .formErr
  else if request.opCode ≠ 0 then some .notImp
  else if request.signature.isSome ∨
      request.queries.any fun q => q.queryType = 252 ∨ q.queryType = 251
  then some .refused
  else if request.edns.any fun e => e.version ≠ 0 then some .badVers
  else none

/-- The bytes of the request without its id. -/
def upstreamBytes : Option Bytes :=
  (codec.toVec { request with id := 0 }).filter fun b => b.length ≤ maxMessage

/-- `exchange` up to the upstreams: a cached answer under the request's id. -/
def lookup (now : Nat) : Option Message × Cache :=
  match refusal request, upstreamBytes codec request with
  | none, some bytes =>
    if eligible request then
      let (hit, c) := c.get codec bytes now
      (hit.map fun m => { m with id := request.id }, c)
    else (none, c)
  | _, _ => (none, c)

variable (response : Message)

/-- The answer to a request that is made of what an upstream answers. -/
def reply : Message :=
  { response with
    id := request.id
    authenticData := response.authenticData &&
      (request.authenticData || request.edns.any (·.dnssecOk)) }

/-- What an upstream answers is not an answer to the request. -/
def mismatched : Bool :=
  response.messageType ≠ .response ∨ response.id ≠ 0 ∨ response.opCode ≠ request.opCode ∨
    response.queries ≠ request.queries ∨ response.signature.isSome

/-- `exchange` from an upstream's answer on; `none` is a panic. -/
def answered (httpAge : UInt32) (now : Nat) : Option (Option Message × Cache) :=
  match refusal request, upstreamBytes codec request with
  | none, some bytes =>
    if mismatched request response then some (none, c)
    else if eligible request then
      (c.insert codec bytes (reply request response) httpAge now).map
        fun c => (some (reply request response), c)
    else some (some (reply request response), c)
  | _, _ => some (none, c)

end Drv.Net.DnsCache
