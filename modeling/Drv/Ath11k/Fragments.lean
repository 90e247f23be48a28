import Drv.Ath11k.Queues

/-!
# Reassembly of fragments

Each fragment comes with a link descriptor of the hardware, which has to
be handed back exactly once. The link of the first fragment is kept with
the fragments collected so far; every other link is returned with the
call that brought it.
-/

namespace Drv.Ath11k

structure FragmentInput where
  key : PeerKey
  tid : UInt8
  sequence : UInt16
  fragmentNumber : UInt8
  moreFragments : Bool
  multicastBroadcast : Bool
  sequenceControlValid : Bool
  frameControlValid : Bool
  encryption : FragmentEncryption
  decrypted : Bool
  packetNumber : Option UInt64
  bytes : List UInt8
  linkDescriptor : FragmentLinkDescriptor

structure CompletedFragmentChain where
  key : PeerKey
  tid : UInt8
  sequence : UInt16
  fragments : List FragmentPart
  firstLinkDescriptor : FragmentLinkDescriptor
  needsCryptoNormalization : Bool

structure FragmentOutcome where
  chain : Except DpError (Option CompletedFragmentChain)
  returnLinks : List FragmentLinkDescriptor

/-- `saturating_add` on milliseconds. -/
def saturatingAdd (a b : UInt64) : UInt64 := UInt64.ofNat (min (a.toNat + b.toNat) (2 ^ 64 - 1))

/-- Whether each fragment carries the packet number after the one before. -/
def packetNumbersAreConsecutive : List StoredFragment → Bool
  | first :: second :: rest =>
    (match first.packetNumber, second.packetNumber with
      | some previous, some current => previous.toNat + 1 = current.toNat
      | _, _ => false) && packetNumbersAreConsecutive (second :: rest)
  | _ => true

namespace FragmentState

/-- Nothing collected yet. -/
def fresh (input : FragmentInput) : FragmentState where
  key := input.key
  tid := input.tid
  currentSequence := input.sequence
  lastFragment := 0
  bitmap := 0
  frames := []
  firstLink := none
  deadlineMs := 0
  timerArmed := false

def expired (nowMs : UInt64) (state : FragmentState) : Bool :=
  state.timerArmed ∧ state.deadlineMs ≤ nowMs

def isFor (key : PeerKey) (tid : UInt8) (state : FragmentState) : Bool :=
  state.key = key ∧ state.tid = tid

/-- The bit of a fragment number. -/
def bit (number : UInt8) : BitVec 16 := 1#16 <<< number.toNat

variable (state : FragmentState)

/-- Add a fragment in the order of the numbers; the first one leaves its
link here. -/
def add (input : FragmentInput) : FragmentState :=
  let insertAt :=
    (state.frames.findIdx? fun fragment => input.fragmentNumber < fragment.number).getD
      state.frames.length
  { state with
    frames := state.frames.insertIdx insertAt
      ⟨input.fragmentNumber, input.encryption, input.decrypted, input.packetNumber, input.bytes⟩
    bitmap := state.bitmap ||| bit input.fragmentNumber
    firstLink :=
      if input.fragmentNumber = 0 then some input.linkDescriptor else state.firstLink
    lastFragment := if input.moreFragments then state.lastFragment else input.fragmentNumber }

/-- The bitmap of a chain that ends with the last fragment. -/
def completeMask : BitVec 16 :=
  if state.lastFragment = 15 then BitVec.allOnes 16
  else (1#16 <<< (state.lastFragment + 1).toNat) - 1

def isComplete : Prop := state.lastFragment ≠ 0 ∧ state.bitmap = state.completeMask

instance (state : FragmentState) : Decidable state.isComplete := inferInstanceAs (Decidable (_ ∧ _))

/-- Whether the cipher of the first fragment numbers its packets. -/
def numbersPackets : Bool :=
  match state.frames.head?.map StoredFragment.encryption with
  | some .ccmp128 | some .ccmp256 | some .gcmp128 | some .aesGcmp256 => true
  | _ => false

def needsCryptoNormalization : Bool :=
  state.frames.any fun fragment => fragment.decrypted ∧ fragment.encryption ≠ .open

def parts : List FragmentPart :=
  state.frames.map fun fragment =>
    ⟨fragment.number, fragment.encryption, fragment.decrypted, fragment.packetNumber,
      fragment.bytes⟩

/-- The chain of a complete state, or the links that an incomplete or
forged one leaves. -/
def chain (returnLinks : List FragmentLinkDescriptor) : FragmentOutcome :=
  match state.firstLink with
  | none => ⟨.error .invalidFrame, returnLinks⟩
  | some firstLinkDescriptor =>
    if state.numbersPackets ∧ ¬ packetNumbersAreConsecutive state.frames then
      ⟨.error .invalidFrame, returnLinks ++ [firstLinkDescriptor]⟩
    else
      ⟨.ok (some ⟨state.key, state.tid, state.currentSequence, state.parts, firstLinkDescriptor,
        state.needsCryptoNormalization⟩), returnLinks⟩

end FragmentState

open FragmentState

namespace PeerRxTids

/-- Whether a fragment is turned away before it meets any other. -/
def rejects (s : PeerRxTids) (input : FragmentInput) : Prop :=
  input.multicastBroadcast ∨ ¬ input.sequenceControlValid ∨ ¬ input.frameControlValid ∨
    16 < input.tid ∨ 15 < input.fragmentNumber ∨
    (input.fragmentNumber = 0 ∧ ¬ input.moreFragments) ∨
    input.key ∉ s.peers ∨ input.key ∈ s.tearingDown

instance (s : PeerRxTids) (input : FragmentInput) : Decidable (s.rejects input) :=
  inferInstanceAs (Decidable (_ ∨ _))

section
variable (input : FragmentInput)

/-- Drop fragments of the peer and TID whose time is over; the link they
held. -/
def discardExpired (nowMs : UInt64) : Rx (List FragmentLinkDescriptor) := do
  match extract (fun state => state.isFor input.key input.tid && state.expired nowMs)
      (← Eff.look fragments) with
  | none => return []
  | some (state, fragments) => do
    Eff.modify fun s => { s with fragments := fragments }
    return state.firstLink.toList

/-- Drop the fragments of the peer and TID if they are of another
sequence; the link they held. -/
def discardReplaced : Rx (List FragmentLinkDescriptor) := do
  match extract (FragmentState.isFor input.key input.tid) (← Eff.look PeerRxTids.fragments) with
  | none => return []
  | some (state, fragments) =>
    if state.currentSequence = input.sequence then return []
    else do
      Eff.modify fun s => { s with fragments := fragments }
      return state.firstLink.toList

/-- The fragments collected for a peer and TID, or a place for them. -/
def fragmentStateIndex (fragments : List FragmentState) (input : FragmentInput) :
    Nat × List FragmentState :=
  match fragments.findIdx? (FragmentState.isFor input.key input.tid) with
  | some index => (index, fragments)
  | none => (fragments.length, fragments ++ [.fresh input])

/-- Meet the fragments collected so far. -/
def collectFragment (nowMs : UInt64)
    (returnLinks : List FragmentLinkDescriptor) : Rx FragmentOutcome := do
  let (index, fragments) := fragmentStateIndex (← Eff.look fragments) input
  let state := fragments.getD index (.fresh input)
  if state.bitmap &&& bit input.fragmentNumber ≠ 0 then do
    Eff.modify fun s => { s with fragments := fragments }
    return ⟨.error .invalidFrame, returnLinks ++ [input.linkDescriptor]⟩
  else do
    let returnLinks :=
      if input.fragmentNumber = 0 then returnLinks else returnLinks ++ [input.linkDescriptor]
    let state := state.add input
    if state.isComplete then do
      Eff.modify fun s => { s with fragments := swapRemove (fragments.set index state) index }
      return state.chain returnLinks
    else do
      let state := { state with
        timerArmed := true
        deadlineMs := saturatingAdd nowMs rxFragmentTimeoutMs }
      Eff.modify fun s => { s with fragments := fragments.set index state }
      return ⟨.ok none, returnLinks⟩

def rxFragHMpdu (nowMs : UInt64) : Rx FragmentOutcome := do
  let expired ← discardExpired input nowMs
  let s ← Eff.look fun s => s
  if s.rejects input then
    return ⟨.error .invalidFrame, expired ++ [input.linkDescriptor]⟩
  else do
    let replaced ← discardReplaced input
    collectFragment input nowMs (expired ++ replaced)

end

/-! ## Links handed back later -/

/-- Drop a peer's fragments, for one TID or all; the links they hold are
kept for the peer. -/
def queueFragmentCleanup (key : PeerKey) (tid : Option UInt8) : Rx Unit :=
  Eff.modify fun s =>
    let (dropped, fragments) := drain
      (fun state => decide (state.key = key ∧ ∀ t ∈ tid, state.tid = t)) s.fragments
    { s with
      fragments := fragments
      pendingFragmentLinks := s.pendingFragmentLinks ++
        (dropped.filterMap firstLink).map (⟨key, ·⟩) }

def peerFragsFlush (key : PeerKey) : Rx Unit := queueFragmentCleanup key none

def takePendingFragmentLinkReturns (key : PeerKey) : Rx (List FragmentLinkDescriptor) := do
  let (links, kept) := drain (fun entry => decide (entry.key = key))
    (← Eff.look pendingFragmentLinks)
  Eff.modify fun s => { s with pendingFragmentLinks := kept }
  tryRetireTeardown key
  return links.map PendingFragmentLink.link

def expireIncompleteFragments (nowMs : UInt64) : Rx (List FragmentLinkDescriptor) := do
  let (expired, kept) := drain (expired nowMs) (← Eff.look PeerRxTids.fragments)
  Eff.modify fun s => { s with fragments := kept }
  return expired.filterMap firstLink

end PeerRxTids

end Drv.Ath11k
