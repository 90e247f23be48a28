import Drv.Ath11k.Peers

/-!
# Where the links of fragments go

`heldLinks` are the links kept with the collected fragments. Each part of
the reassembly hands back or keeps what it is given (`Passes`): nothing is
lost, since the link of a first fragment is only stored while there is
none, which the bitmap shows (`Marked`).

The ciphers of a chain are not compared: its first fragment alone decides
whether the packet numbers are checked. `completed_chain_bound` says for
which fragments that is enough, over any run of the operations: those that
agree with the ones they meet (`Agrees`). It says nothing of who sent a
fragment, or of one that the hardware decrypted under a wrong key.
-/

namespace Drv.Ath11k

open List FragmentState PendingFragmentLink StoredFragment

/-- The links kept with collected fragments. -/
def heldLinks (fragments : List FragmentState) : List FragmentLinkDescriptor :=
  fragments.filterMap firstLink

theorem heldLinks_cons (state : FragmentState) (fragments : List FragmentState) :
    heldLinks (state :: fragments) = state.firstLink.toList ++ heldLinks fragments := by
  cases h : state.firstLink <;> simp [heldLinks, h]

theorem heldLinks_append (a b : List FragmentState) :
    heldLinks (a ++ b) = heldLinks a ++ heldLinks b :=
  filterMap_append

theorem heldLinks_perm {a b : List FragmentState} (h : a.Perm b) :
    (heldLinks a).Perm (heldLinks b) :=
  h.filterMap _

/-- Only a state that has seen the first fragment keeps a link. -/
def Marked (fragments : List FragmentState) : Prop :=
  ∀ state ∈ fragments, state.firstLink ≠ none → state.bitmap[0] = true

/-- From some fragments and links to others: the links are all there, the
states stay marked, and each state is of a peer and TID that had one, or
is of this one. -/
structure Passes (key : PeerKey) (tid : UInt8) (given : List FragmentLinkDescriptor)
    (fragments : List FragmentState) (back : List FragmentLinkDescriptor)
    (fragments' : List FragmentState) : Prop where
  links : Marked fragments → (back ++ heldLinks fragments').Perm (given ++ heldLinks fragments)
  marked : Marked fragments → Marked fragments'
  keys : ∀ state ∈ fragments', (∃ old ∈ fragments, old.key = state.key ∧ old.tid = state.tid) ∨
    (state.key = key ∧ state.tid = tid)

namespace Passes

variable {key : PeerKey} {tid : UInt8} {fragments fragments' fragments'' : List FragmentState}
  {given back back' : List FragmentLinkDescriptor}

theorem trans (h : Passes key tid given fragments back fragments')
    (h' : Passes key tid back fragments' back' fragments'') :
    Passes key tid given fragments back' fragments'' where
  links hmarked := (h'.links (h.marked hmarked)).trans (h.links hmarked)
  marked hmarked := h'.marked (h.marked hmarked)
  keys state hstate := by
    rcases h'.keys state hstate with ⟨old, hold, heq⟩ | heq
    · rcases h.keys old hold with ⟨older, holder, heq'⟩ | heq'
      · exact .inl ⟨older, holder, heq'.1.trans heq.1, heq'.2.trans heq.2⟩
      · exact .inr ⟨heq.1.symm.trans heq'.1, heq.2.symm.trans heq'.2⟩
    · exact .inr heq

theorem of_perm (h : back.Perm given) : Passes key tid given fragments back fragments where
  links _ := h.append_right _
  marked := id
  keys state hstate := .inl ⟨state, hstate, rfl, rfl⟩

theorem dropped {state : FragmentState} (h : (state :: fragments').Perm fragments) :
    Passes key tid given fragments (given ++ state.firstLink.toList) fragments' where
  links _ := by
    have hheld := heldLinks_perm h
    rw [heldLinks_cons] at hheld
    rw [append_assoc]
    exact hheld.append_left given
  marked hmarked other hother := hmarked other (h.subset (mem_cons_of_mem _ hother))
  keys other hother := .inl ⟨other, h.subset (mem_cons_of_mem _ hother), rfl, rfl⟩

end Passes

/-! ## The parts of the reassembly -/

variable (input : FragmentInput) (nowMs : UInt64) (s : PeerRxTids)

variable (given : List FragmentLinkDescriptor)

namespace PeerRxTids

theorem discardExpired_passes :
    ∃ links fragments, discardExpired input nowMs s =
        ⟨.ok links, { s with fragments := fragments }, []⟩ ∧
      Passes input.key input.tid given s.fragments (given ++ links) fragments ∧
      fragments ⊆ s.fragments := by
  rw [discardExpired, Eff.look_bind]
  cases hextr : extract (fun state =>
      state.isFor input.key input.tid && state.expired nowMs) s.fragments with
  | none =>
    exact ⟨[], s.fragments, rfl, .of_perm (.of_eq (append_nil given)), Subset.refl _⟩
  | some found =>
    obtain ⟨state, fragments⟩ := found
    obtain ⟨-, hp⟩ := extract_some hextr
    exact ⟨state.firstLink.toList, fragments, rfl, .dropped hp,
      Subset.trans (subset_cons_self state fragments) hp.subset⟩

theorem discardReplaced_passes :
    ∃ links fragments, discardReplaced input s =
        ⟨.ok links, { s with fragments := fragments }, []⟩ ∧
      Passes input.key input.tid given s.fragments (given ++ links) fragments ∧
      fragments ⊆ s.fragments := by
  have hk : Passes input.key input.tid given s.fragments (given ++ []) s.fragments :=
    .of_perm (.of_eq (append_nil given))
  rw [discardReplaced, Eff.look_bind]
  cases hextr : extract (FragmentState.isFor input.key input.tid) s.fragments with
  | none => exact ⟨[], s.fragments, rfl, hk, List.Subset.refl _⟩
  | some found =>
    obtain ⟨state, fragments⟩ := found
    dsimp only
    split
    · exact ⟨[], s.fragments, rfl, hk, List.Subset.refl _⟩
    · obtain ⟨-, hp⟩ := extract_some hextr
      exact ⟨state.firstLink.toList, fragments, rfl, .dropped hp,
        List.Subset.trans (subset_cons_self state fragments) hp.subset⟩

/-- The place for a fragment: a list with the same links, in which it is
found. -/
theorem fragmentStateIndex_spec (fragments : List FragmentState) (input : FragmentInput)
    (given : List FragmentLinkDescriptor) :
    let found := fragmentStateIndex fragments input
    ∃ h : found.1 < found.2.length,
      found.2[found.1].key = input.key ∧ found.2[found.1].tid = input.tid ∧
        Passes input.key input.tid given fragments given found.2 := by
  unfold fragmentStateIndex
  cases hf : fragments.findIdx? (FragmentState.isFor input.key input.tid) with
  | some =>
    obtain ⟨hlt, hfor, -⟩ := findIdx?_eq_some_iff_getElem.mp hf
    simp only [FragmentState.isFor, decide_eq_true_eq] at hfor
    exact ⟨hlt, hfor.1, hfor.2, .of_perm (.refl given)⟩
  | none =>
    refine ⟨by simp, ?_, ?_, ?_, ?_, ?_⟩
    · simp [FragmentState.fresh]
    · simp [FragmentState.fresh]
    · intro _
      rw [heldLinks_append]
      simp [heldLinks, FragmentState.fresh]
    · exact fun hmarked => forall_mem_concat hmarked fun hl => absurd rfl hl
    · exact forall_mem_concat (fun state hstate => .inl ⟨state, hstate, rfl, rfl⟩) (.inr ⟨rfl, rfl⟩)

end PeerRxTids

namespace FragmentState

theorem bit_zero : bit 0 = 1#16 := by decide

variable {state : FragmentState}

section
variable (hmarked : state.firstLink ≠ none → state.bitmap[0] = true)
include hmarked

theorem firstLink_none_of_bit (hbit : state.bitmap &&& bit 0 = 0) : state.firstLink = none := by
  by_contra hl
  have hclear := congrArg (fun b : BitVec 16 => b[0]) hbit
  rw [bit_zero] at hclear
  simp [hmarked hl] at hclear

theorem add_links {input : FragmentInput} (hbit : state.bitmap &&& bit input.fragmentNumber = 0) :
    ((if input.fragmentNumber = 0 then [] else [input.linkDescriptor]) ++
      (state.add input).firstLink.toList).Perm
        (input.linkDescriptor :: state.firstLink.toList) := by
  by_cases hz : input.fragmentNumber = 0
  · rw [hz] at hbit
    simp [add, hz, firstLink_none_of_bit hmarked hbit]
  · simp [add, hz]

theorem add_marked {input : FragmentInput} :
    (state.add input).firstLink ≠ none → (state.add input).bitmap[0] = true := by
  intro hl
  by_cases hz : input.fragmentNumber = 0
  · simp [add, hz, bit_zero]
  · simp only [add, hz, if_false] at hl
    simp [add, hmarked hl]

end

end FragmentState

/-- The links in an outcome. -/
def FragmentOutcome.links (outcome : FragmentOutcome) : List FragmentLinkDescriptor :=
  outcome.returnLinks ++
    match outcome.chain with
    | .ok (some chain) => [chain.firstLinkDescriptor]
    | _ => []

theorem FragmentState.chain_links (state : FragmentState)
    (returnLinks : List FragmentLinkDescriptor) :
    (state.chain returnLinks).links = returnLinks ++ state.firstLink.toList := by
  unfold chain
  cases h : state.firstLink with
  | none => rfl
  | some =>
    dsimp only
    split
    · simp [FragmentOutcome.links]
    · rfl

namespace PeerRxTids

variable {key : PeerKey} {tid : UInt8}

theorem passes_set {fragments : List FragmentState} {index : Nat}
    {given back : List FragmentLinkDescriptor} (h : index < fragments.length)
    (state : FragmentState) (hkey : state.key = key) (htid : state.tid = tid)
    (hlinks : Marked fragments →
      (back ++ state.firstLink.toList).Perm (given ++ fragments[index].firstLink.toList))
    (hmarked : Marked fragments → state.firstLink ≠ none → state.bitmap[0] = true) :
    Passes key tid given fragments back (fragments.set index state) where
  links hall := by
    have hset := heldLinks_perm (set_perm_cons_eraseIdx h state)
    have hget := heldLinks_perm (getElem_cons_eraseIdx_perm h)
    rw [heldLinks_cons] at hset hget
    calc back ++ heldLinks (fragments.set index state)
        _ |>.Perm (back ++ state.firstLink.toList ++ heldLinks (fragments.eraseIdx index)) := by
          rw [append_assoc]
          exact hset.append_left back
        _ |>.Perm (given ++ fragments[index].firstLink.toList ++
            heldLinks (fragments.eraseIdx index)) := (hlinks hall).append_right _
        _ |>.Perm (given ++ heldLinks fragments) := by
          rw [append_assoc]
          exact hget.append_left given
  marked hall other hother := by
    rcases mem_or_eq_of_mem_set hother with hother | rfl
    · exact hall other hother
    · exact hmarked hall
  keys other hother := by
    rcases mem_or_eq_of_mem_set hother with hother | rfl
    · exact .inl ⟨other, hother, rfl, rfl⟩
    · exact .inr ⟨hkey, htid⟩

theorem collectFragment_passes :
    ∃ outcome fragments, collectFragment input nowMs given s =
        ⟨.ok outcome, { s with fragments := fragments }, []⟩ ∧
      Passes input.key input.tid (given ++ [input.linkDescriptor]) s.fragments outcome.links
        fragments := by
  obtain ⟨hlt, hkey, htid, hplace⟩ :=
    fragmentStateIndex_spec s.fragments input (given ++ [input.linkDescriptor])
  rw [collectFragment, Eff.look_bind]
  dsimp only
  generalize fragmentStateIndex s.fragments input = found at hlt hkey htid hplace
  obtain ⟨index, fragments⟩ := found
  rw [getD_eq_getElem?_getD, getElem?_eq_getElem hlt, Option.getD_some]
  have hmarked : Marked fragments → fragments[index].firstLink ≠ none →
      fragments[index].bitmap[0] = true := fun h => h _ (getElem_mem hlt)
  split
  next =>
    -- a duplicate: its link goes back
    refine ⟨_, fragments, rfl, ?_⟩
    simpa [FragmentOutcome.links] using hplace
  next hbit =>
    simp only [not_not] at hbit
    -- the links handed back now and the one kept, for the state with the fragment added
    have hlinks : Marked fragments →
        ((if input.fragmentNumber = 0 then given else given ++ [input.linkDescriptor]) ++
          (fragments[index].add input).firstLink.toList).Perm
          (given ++ [input.linkDescriptor] ++ fragments[index].firstLink.toList) := by
      intro hall
      have hadd := (add_links (hmarked hall) hbit).append_left given
      by_cases hz : input.fragmentNumber = 0 <;> simpa [hz] using hadd
    split
    next =>
      -- complete: the state goes, with its link
      refine ⟨_, _, rfl, ?_⟩
      have hset := passes_set hlt (fragments[index].add input) hkey htid hlinks
        (fun hall => add_marked (hmarked hall))
      have hlen : index < (fragments.set index (fragments[index].add input)).length := by
        rw [length_set]
        exact hlt
      have hrem := swapRemove_perm hlen
      rw [getElem_set_self] at hrem
      rw [chain_links]
      exact hplace.trans (hset.trans (.dropped hrem))
    next =>
      generalize saturatingAdd nowMs rxFragmentTimeoutMs = deadlineMs
      refine ⟨_, _, rfl, ?_⟩
      have hset := passes_set hlt
        { fragments[index].add input with timerArmed := true, deadlineMs := deadlineMs }
        hkey htid hlinks (fun hall => add_marked (hmarked hall))
      simpa [FragmentOutcome.links] using hplace.trans hset

/-- A fragment that comes in: its link is handed back or kept, and so is
every link that was kept before; a new state is of a registered peer. -/
theorem rxFragHMpdu_passes :
    ∃ outcome fragments, rxFragHMpdu input nowMs s =
        ⟨.ok outcome, { s with fragments := fragments }, []⟩ ∧
      Passes input.key input.tid [input.linkDescriptor] s.fragments outcome.links fragments ∧
      ∀ state ∈ fragments, (∃ old ∈ s.fragments, old.key = state.key ∧ old.tid = state.tid) ∨
        (state.key ∈ s.peers ∧ state.key ∉ s.tearingDown ∧ state.tid ≤ 16) := by
  obtain ⟨expired, fragments, hexp, hd, hsub⟩ :=
    discardExpired_passes input nowMs s [input.linkDescriptor]
  rw [rxFragHMpdu, Eff.bind_of_silent hexp, Eff.look_bind]
  split
  next =>
    refine ⟨_, fragments, rfl, ?_, ?_⟩
    · have hswap : (expired ++ [input.linkDescriptor]).Perm ([input.linkDescriptor] ++ expired) :=
        perm_append_comm
      simpa [FragmentOutcome.links] using hd.trans (.of_perm hswap)
    · exact fun state hstate => .inl ⟨state, hsub hstate, rfl, rfl⟩
  next haccepts =>
    obtain ⟨replaced, fragments', hrepl, hd', hsub'⟩ := discardReplaced_passes input
      { s with fragments := fragments } ([input.linkDescriptor] ++ expired)
    obtain ⟨outcome, fragments'', hcollect, hpass⟩ := collectFragment_passes input nowMs
      { s with fragments := fragments' } (expired ++ replaced)
    rw [Eff.bind_of_silent hrepl]
    refine ⟨outcome, fragments'', hcollect, ?_, ?_⟩
    · have hswap : (expired ++ replaced ++ [input.linkDescriptor]).Perm
          ([input.linkDescriptor] ++ expired ++ replaced) :=
        perm_append_comm
      exact hd.trans (hd'.trans ((Passes.of_perm hswap).trans hpass))
    · intro state hstate
      rcases hpass.keys state hstate with ⟨old, hold, heq⟩ | ⟨hkey, htid⟩
      · exact .inl ⟨old, hsub (hsub' hold), heq⟩
      · simp only [rejects, not_or, not_not] at haccepts
        obtain ⟨-, -, -, htid', -, -, hpeer, htear⟩ := haccepts
        rw [hkey, htid]
        exact .inr ⟨hpeer, htear, UInt8.not_lt.mp htid'⟩

/-! ## Links handed back later -/

/-- The links kept with fragments and for peers. -/
def links (s : PeerRxTids) : List FragmentLinkDescriptor :=
  heldLinks s.fragments ++ s.pendingFragmentLinks.map link

theorem queueFragmentCleanup_links (key : PeerKey) (tid : Option UInt8) (s : PeerRxTids) :
    (queueFragmentCleanup key tid s).state.links.Perm s.links := by
  have hdrain := heldLinks_perm (drain_perm (fun state : FragmentState =>
    decide (state.key = key ∧ ∀ t ∈ tid, state.tid = t)) s.fragments)
  rw [heldLinks_append] at hdrain
  show (heldLinks (drain _ s.fragments).2 ++ (s.pendingFragmentLinks ++
    (heldLinks (drain _ s.fragments).1).map _).map link).Perm _
  generalize drain _ s.fragments = drained at hdrain ⊢
  have hmap : ((heldLinks drained.1).map fun link => (⟨key, link⟩ : PendingFragmentLink)).map
      link = heldLinks drained.1 := by
    rw [map_map]
    exact map_id _
  rw [map_append, hmap, ← append_assoc]
  apply perm_append_comm.trans
  rw [← append_assoc]
  exact hdrain.append_right _

theorem queueFragmentCleanup_marked {key : PeerKey} {tid : Option UInt8} {s : PeerRxTids}
    (h : Marked s.fragments) : Marked (queueFragmentCleanup key tid s).state.fragments := by
  intro state hstate
  exact h state ((drain_perm _ s.fragments).subset (mem_append_right _ hstate))

theorem takePendingFragmentLinkReturns_links (key : PeerKey) (s : PeerRxTids) :
    ∃ links kept, takePendingFragmentLinkReturns key s =
        ⟨.ok links, retire key { s with pendingFragmentLinks := kept }, []⟩ ∧
      (links ++ kept.map link).Perm
        (s.pendingFragmentLinks.map link) ∧
      kept ⊆ s.pendingFragmentLinks ∧
      ∀ entry ∈ s.pendingFragmentLinks, entry.key ≠ key → entry ∈ kept := by
  have hdrain := drain_perm (fun entry : PendingFragmentLink => decide (entry.key = key))
    s.pendingFragmentLinks
  refine ⟨_, _, rfl, ?_, ?_, ?_⟩
  · rw [← map_append]
    exact hdrain.map _
  · exact Subset.trans (subset_append_right _ _) hdrain.subset
  · intro entry hent hkey
    rcases mem_append.mp (hdrain.symm.subset hent) with hout | hk
    · have hout := drain_out hout
      rw [decide_eq_true_eq] at hout
      exact absurd hout hkey
    · exact hk

theorem expireIncompleteFragments_links :
    ∃ links fragments, expireIncompleteFragments nowMs s =
        ⟨.ok links, { s with fragments := fragments }, []⟩ ∧
      (links ++ heldLinks fragments).Perm (heldLinks s.fragments) ∧ fragments ⊆ s.fragments := by
  have hdrain := drain_perm (expired nowMs) s.fragments
  refine ⟨_, _, rfl, ?_, ?_⟩
  · have hheld := heldLinks_perm hdrain
    rw [heldLinks_append] at hheld
    exact hheld
  · exact Subset.trans (subset_append_right _ _) hdrain.subset

end PeerRxTids

/-! ## Ciphers of a chain -/

/-- Whether a cipher numbers its packets. -/
def FragmentEncryption.numbered : FragmentEncryption → Bool
  | .ccmp128 | .ccmp256 | .gcmp128 | .aesGcmp256 => true
  | _ => false

/-- One packet number comes after another. -/
def Follows (a b : Option UInt64) : Prop := ∃ n m, a = some n ∧ b = some m ∧ n.toNat + 1 = m.toNat

/-- A fragment under such a cipher binds the whole chain to it. -/
def CompletedFragmentChain.Bound (chain : CompletedFragmentChain) : Prop :=
  ∀ part ∈ chain.fragments, part.encryption.numbered →
    (∀ other ∈ chain.fragments, other.encryption = part.encryption) ∧
      chain.fragments.IsChain fun a b => Follows a.packetNumber b.packetNumber

theorem isChain_of_consecutive : ∀ {frames : List StoredFragment},
    packetNumbersAreConsecutive frames →
      frames.IsChain fun a b => Follows a.packetNumber b.packetNumber
  | [], _ => .nil
  | [a], _ => .singleton a
  | a :: b :: rest, h => by
    rw [packetNumbersAreConsecutive, Bool.and_eq_true] at h
    refine .cons_cons ?_ (isChain_of_consecutive h.2)
    split at h
    next n m hn hm => exact ⟨n, m, hn, hm, of_decide_eq_true h.1⟩
    next => cases h.1

/-- A cipher that numbers its packets has no other beside it. -/
def Uniform (ciphers : List FragmentEncryption) : Prop :=
  ∀ cipher ∈ ciphers, cipher.numbered → ∀ other ∈ ciphers, other = cipher

instance (ciphers : List FragmentEncryption) : Decidable (Uniform ciphers) :=
  inferInstanceAs (Decidable (∀ cipher ∈ ciphers, _ → ∀ other ∈ ciphers, other = cipher))

variable {chain : CompletedFragmentChain} {given links : List FragmentLinkDescriptor}

/-- The first fragment decides whether the numbers are checked. -/
theorem FragmentState.chain_bound {state : FragmentState}
    (h : state.chain given = ⟨.ok (some chain), links⟩) :
    chain.Bound ↔ Uniform (state.frames.map encryption) := by
  unfold FragmentState.chain at h
  split at h
  · cases h
  split at h
  · cases h
  next hchk =>
    cases h
    constructor
    · intro hbound cipher hcipher hnum other hother
      obtain ⟨fragment, hmem, rfl⟩ := mem_map.mp hcipher
      obtain ⟨fragment', hmem', rfl⟩ := mem_map.mp hother
      exact (hbound _ (mem_map_of_mem hmem) hnum).1 _ (mem_map_of_mem hmem')
    · intro huniform part hpart hnum
      obtain ⟨fragment, hmem, rfl⟩ := mem_map.mp hpart
      have hsame : ∀ other ∈ state.frames, other.encryption = fragment.encryption :=
        fun other hother => huniform _ (mem_map_of_mem hmem) hnum _ (mem_map_of_mem hother)
      refine ⟨fun other hother => ?_, (isChain_map _).mpr (isChain_of_consecutive ?_)⟩
      · obtain ⟨fragment', hmem', rfl⟩ := mem_map.mp hother
        exact hsame fragment' hmem'
      · by_contra hcons
        refine hchk ⟨?_, hcons⟩
        have hne := ne_nil_of_mem hmem
        rw [numbersPackets, head?_eq_some_head hne, Option.map_some, hsame _ (head_mem hne)]
        revert hnum
        cases fragment.encryption <;> simp [FragmentEncryption.numbered]

theorem FragmentState.mem_add {state : FragmentState} {input : FragmentInput}
    {cipher : FragmentEncryption} :
    cipher ∈ (state.add input).frames.map encryption ↔
      cipher ∈ input.encryption :: state.frames.map encryption := by
  have hplace : (state.frames.findIdx? fun fragment => input.fragmentNumber < fragment.number).getD
      state.frames.length ≤ state.frames.length := by
    cases h : state.frames.findIdx? fun fragment => input.fragmentNumber < fragment.number with
    | none => exact Nat.le_refl _
    | some => exact (findIdx?_eq_some_iff_getElem.mp h).1.le
  exact ((perm_insertIdx _ state.frames hplace).map encryption).mem_iff

namespace PeerRxTids

/-- The fragments that are held for the peer and TID of one. -/
def heldFor (fragments : List FragmentState) (input : FragmentInput) : List StoredFragment :=
  ((fragments.find? (FragmentState.isFor input.key input.tid)).map FragmentState.frames).getD []

/-- The fragments that one meets: what is out of time, or of another
sequence, is dropped before. -/
def met (s : PeerRxTids) (input : FragmentInput) (nowMs : UInt64) : List StoredFragment :=
  heldFor (discardReplaced input (discardExpired input nowMs s).state).state.fragments input

/-- The cipher of a fragment goes with those of the fragments it meets. -/
def Agrees (s : PeerRxTids) (input : FragmentInput) (nowMs : UInt64) : Prop :=
  Uniform (input.encryption :: (s.met input nowMs).map encryption)

theorem fragmentStateIndex_frames (fragments : List FragmentState) (input : FragmentInput) :
    ((fragmentStateIndex fragments input).2.getD (fragmentStateIndex fragments input).1
      (.fresh input)).frames = heldFor fragments input := by
  unfold fragmentStateIndex heldFor
  split
  next hf =>
    obtain ⟨hlt, hfor, hfirst⟩ := findIdx?_eq_some_iff_getElem.mp hf
    have hfind : fragments.find? (FragmentState.isFor input.key input.tid) = some _ :=
      find?_eq_some_iff_getElem.mpr ⟨hfor, _, hlt, rfl, fun j hj => by simpa using hfirst j hj⟩
    rw [getD_eq_getElem?_getD, getElem?_eq_getElem hlt, hfind]
    rfl
  next hf =>
    have hnone : fragments.find? (FragmentState.isFor input.key input.tid) = none := by
      rw [find?_eq_none]
      simpa using hf
    rw [hnone]
    simp [fresh]

theorem collectFragment_bound {input : FragmentInput} {nowMs : UInt64} {s : PeerRxTids}
    (h : (collectFragment input nowMs given s).result = .ok ⟨.ok (some chain), links⟩) :
    chain.Bound ↔ Uniform (input.encryption :: (heldFor s.fragments input).map encryption) := by
  rw [collectFragment, Eff.look_bind] at h
  have hheld := fragmentStateIndex_frames s.fragments input
  dsimp only at h
  generalize (fragmentStateIndex s.fragments input).2.getD _ _ = state at h hheld
  split at h
  · cases h
  split at h
  · rw [chain_bound (Except.ok.inj h), ← hheld]
    simp only [Uniform, mem_add]
  · cases h

theorem rxFragHMpdu_bound {input : FragmentInput} {nowMs : UInt64} {s : PeerRxTids}
    (h : (rxFragHMpdu input nowMs s).result = .ok ⟨.ok (some chain), links⟩) :
    chain.Bound ↔ s.Agrees input nowMs := by
  obtain ⟨expired, fragments, hexp, -⟩ := discardExpired_passes input nowMs s []
  rw [rxFragHMpdu, Eff.bind_of_silent hexp, Eff.look_bind] at h
  split at h
  · cases h
  · obtain ⟨replaced, fragments', hrepl, -⟩ :=
      discardReplaced_passes input { s with fragments := fragments } []
    rw [Eff.bind_of_silent hrepl] at h
    rw [collectFragment_bound h, Agrees, met, hexp, hrepl]

theorem mem_run {P : Platform} {ops : List Op} {s : PeerRxTids} {step : Step}
    (h : step ∈ (s.run P ops).1) : step.result = (step.op.exec P step.before).result := by
  induction ops generalizing s with
  | nil => cases h
  | cons op rest ih =>
    rcases mem_cons.mp h with rfl | h
    · rfl
    · exact ih h

/-- In every run, from every state: a chain is bound to one cipher exactly
when the fragment that completed it agreed with those it met. -/
theorem completed_chain_bound (P : Platform) (s : PeerRxTids) (ops : List Op)
    (before after : PeerRxTids) (input : FragmentInput) (nowMs : UInt64)
    (chain : CompletedFragmentChain) (links : List FragmentLinkDescriptor)
    (h : ⟨before, .rxFragHMpdu input nowMs, .ok ⟨.ok (some chain), links⟩, after⟩ ∈
      (s.run P ops).1) : chain.Bound ↔ before.Agrees input nowMs :=
  rxFragHMpdu_bound (mem_run h).symm

/-- A fragment of one frame of a peer. -/
def piece (number : UInt8) (encryption : FragmentEncryption) (packetNumber : Option UInt64) :
    FragmentInput :=
  ⟨⟨1, .replicate 6 2⟩, 0, 5, number, number = 0, false, true, true, encryption, true, packetNumber,
    [], ⟨0⟩⟩

/-- The peer is registered, and fragments of it are presented. -/
def presenting (fragments : List FragmentInput) : List Step :=
  (new.run ⟨fun _ => true, fun _ _ => true, fun _ _ => true, fun _ _ _ => true, fun _ _ => none,
    fun _ _ => none⟩ (.registerPeerAfterFirmwareCreate ⟨1, .replicate 6 2⟩ ::
      fragments.map fun fragment => .rxFragHMpdu fragment 1)).1

/-- An open fragment of another sequence, and a frame under CCMP. -/
def ccmpFrame : List FragmentInput :=
  [{ piece 0 .open none with sequence := 4 }, piece 0 .ccmp128 (some 7), piece 1 .ccmp128 (some 8)]

theorem completed_chain_bound_ccmp : ∃ before input chain links after,
    ⟨before, .rxFragHMpdu input 1, .ok ⟨.ok (some chain), links⟩, after⟩ ∈ presenting ccmpFrame ∧
      before.Agrees input 1 ∧ chain.Bound := by
  have hmem := getElem_mem (l := presenting ccmpFrame) (n := 3) (by decide)
  have hagrees : (presenting ccmpFrame)[3].before.Agrees (piece 1 .ccmp128 (some 8)) 1 := by
    unfold Agrees
    decide +kernel
  exact ⟨_, _, _, _, _, hmem, hagrees, (completed_chain_bound _ _ _ _ _ _ _ _ _ hmem).mpr hagrees⟩

/-- An open fragment and one under CCMP make a chain. -/
theorem mixed_chain_completed : ∃ before input chain links after,
    ⟨before, .rxFragHMpdu input 1, .ok ⟨.ok (some chain), links⟩, after⟩ ∈
        presenting [piece 0 .open none, piece 1 .ccmp128 none] ∧ ¬ chain.Bound := by
  refine ⟨_, _, _, _, _, mem_of_getElem? (i := 2) rfl, fun h => ?_⟩
  have hsame := (h _ (mem_cons_of_mem _ mem_cons_self) rfl).1 _ mem_cons_self
  cases hsame

end PeerRxTids
end Drv.Ath11k
