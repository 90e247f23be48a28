import Drv.Laws.Ath11k.Links
import Drv.Laws.Ath11k.Custody

/-!
# Teardown is neither premature nor stuck

A peer that is neither registered nor in teardown has left nothing
behind, a peer in teardown still has something to wait for, and no peer
is both registered and in teardown (`teardown_exact`). The invariant is
`Settled`; during an operation it may be open for one peer, and the end of
a teardown closes it again (`Settled.retire`).

No time is bounded: a status that never comes keeps a peer in teardown.
-/

namespace Drv.Ath11k

open Relation (ReflTransGen)
open List PeerRxTids

variable {P : Platform}

namespace PeerRxTids

/-- The peers that own a queue. -/
def ownerKeys (s : PeerRxTids) : List PeerKey := (s.exposed ++ s.retired).map Owner.key

/-- The firmware names a peer. -/
def Mapped (s : PeerRxTids) (key : PeerKey) : Prop :=
  ∃ peer ∈ s.security, peer.key = key ∧ peer.state.peerId ≠ none

/-- Something of a peer is left besides its fragments. -/
def Held (s : PeerRxTids) (key : PeerKey) : Prop :=
  key ∈ s.ownerKeys ∨ (∃ entry ∈ s.pendingFragmentLinks, entry.key = key) ∨ s.Mapped key

theorem mem_ownerKeys {s : PeerRxTids} {key : PeerKey} : key ∈ s.ownerKeys ↔
    (∃ e ∈ s.tids, e.key = key) ∨ (∃ e ∈ s.pendingDelete ++ s.pendingFlush, e.key = key) ∨
      (∃ e ∈ s.cachedDelete, e.key = key) ∨
      ∃ e ∈ s.uncertainSetup ++ s.failedDelete, e.key = key := by
  simp only [ownerKeys, exposed, retired, map_append, map_map, mem_append,
    mem_map, Function.comp_apply, Owner.of]
  grind

theorem blocked_iff {s : PeerRxTids} {key : PeerKey} :
    s.Blocked key ↔ s.Held key ∨ ∃ state ∈ s.fragments, state.key = key := by
  rw [Held, mem_ownerKeys]
  unfold Blocked Mapped
  grind

end PeerRxTids

/-- Peers and what they leave behind, open for some of them. -/
structure Settled (exempt : PeerKey → Prop) (s : PeerRxTids) : Prop where
  known : ∀ key, s.Blocked key → key ∈ s.peers ∨ key ∈ s.tearingDown
  waits : ∀ key ∈ s.tearingDown, ¬ exempt key → s.Held key
  bare : ∀ state ∈ s.fragments, state.key ∈ s.tearingDown → exempt state.key
  apart : ∀ key ∈ s.peers, key ∉ s.tearingDown
  small : ∀ state ∈ s.fragments, state.tid ≤ 16

/-- Nobody is exempt. -/
abbrev nobody : PeerKey → Prop := fun _ => False

section
variable {exempt : PeerKey → Prop} {s s' : PeerRxTids}

theorem Settled.mono {exempt' : PeerKey → Prop} (h : Settled exempt s)
    (hexempt : ∀ key, exempt key → exempt' key) : Settled exempt' s :=
  { h with
    waits := fun key hkey hnot => h.waits key hkey fun hex => hnot (hexempt key hex)
    bare := fun state hst hmem => hexempt _ (h.bare state hst hmem) }

/-! ## The end of a teardown -/

variable {key : PeerKey}

theorem Settled.retire (h : Settled (· = key) s)
    (hbare : key ∈ s.tearingDown → ∀ state ∈ s.fragments, state.key ≠ key) :
    Settled nobody (retire key s) := by
  have hn : ∀ state ∈ s.fragments, state.key ∉ s.tearingDown := by
    intro state hst htear
    have heq := h.bare state hst htear
    exact hbare (heq ▸ htear) state hst heq
  unfold PeerRxTids.retire
  split
  next hblock =>
    refine { h with waits := fun other hother _ => ?_, bare := hn }
    by_cases heq : other = key
    · subst heq
      rcases blocked_iff.mp hblock with hheld | ⟨state, hst, hkey⟩
      · exact hheld
      · exact absurd hkey (hbare hother state hst)
    · exact h.waits other hother heq
  next hfree =>
    have hmem : ∀ {other : PeerKey}, other ∈ s.tearingDown.filter (fun t => t ≠ key) ↔
        other ∈ s.tearingDown ∧ other ≠ key := by
      simp
    refine ⟨?_, ?_, ?_, ?_, h.small⟩
    · intro other hblock
      by_cases heq : other = key
      · rw [heq] at hblock
        exact absurd hblock hfree
      · exact (h.known other hblock).imp_right fun hother => hmem.mpr ⟨hother, heq⟩
    · intro other hother _
      obtain ⟨hother, heq⟩ := hmem.mp hother
      exact h.waits other hother heq
    · exact fun state hst htear => hn state hst (hmem.mp htear).1
    · exact fun other hother htear => h.apart other hother (hmem.mp htear).1

/-! ## Queues -/

/-- Queues come only to registered peers, and only exempt ones lose any. -/
theorem Settled.queues (h : Settled exempt s) (hsame : SamePeers s s')
    (hcome : ∀ key ∈ s'.ownerKeys, key ∈ s.ownerKeys ∨ key ∈ s.peers)
    (hgo : ∀ key ∈ s.ownerKeys, key ∈ s'.ownerKeys ∨ exempt key) : Settled exempt s' := by
  obtain ⟨hpeers, htear, hsec, hfrags, hlinks⟩ := hsame
  have hmapped : ∀ key, s'.Mapped key ↔ s.Mapped key := by
    intro key
    unfold Mapped
    rw [hsec]
  refine ⟨?_, ?_, ?_, ?_, ?_⟩
  · intro key hblock
    rw [blocked_iff, Held, hlinks, hmapped, hfrags] at hblock
    rw [hpeers, htear]
    by_cases hp : key ∈ s.peers
    · exact .inl hp
    · apply h.known
      exact blocked_iff.mpr (hblock.imp_left (.imp_left fun hk => (hcome key hk).resolve_right hp))
  · intro key hkey hnot
    rw [htear] at hkey
    rw [Held, hlinks, hmapped]
    exact (h.waits key hkey hnot).imp_left fun hkey => (hgo key hkey).resolve_right hnot
  · rw [hfrags, htear]
    exact h.bare
  · rw [hpeers, htear]
    exact h.apart
  · rw [hfrags]
    exact h.small

theorem mem_of_cons_perm {α : Type} {a : α} {rest l : List α} (h : (a :: rest).Perm l) (x : α) :
    x ∈ l ↔ x = a ∨ x ∈ rest := by
  rw [← h.mem_iff, mem_cons]

variable {tid : UInt8}

theorem setBaWindowSize_keys {k : PeerKey} {baWindowSize : UInt32} {tids : List ActiveTid} :
    (∃ e ∈ setBaWindowSize key tid baWindowSize tids, e.key = k) ↔ ∃ e ∈ tids, e.key = k := by
  have hmap : (setBaWindowSize key tid baWindowSize tids).map ActiveTid.key =
      tids.map ActiveTid.key := map_modifyFirst fun _ => rfl
  rw [← mem_map, ← mem_map, hmap]

theorem Admission.keys (h : Admission s s') : ∀ other,
    (other ∈ s.ownerKeys → other ∈ s'.ownerKeys) ∧
      (other ∈ s'.ownerKeys → other ∈ s.ownerKeys ∨ other ∈ s.peers) := by
  intro other
  cases h with
  | refused | unsent | unallocated | scrapped | withdrawn => exact ⟨id, .inl⟩
  | updated =>
    simp only [mem_ownerKeys, setBaWindowSize_keys]
    exact ⟨id, .inl⟩
  | created _ hp | doubted _ hp =>
    simp only [mem_ownerKeys, logged, mem_append, mem_singleton]
    grind

theorem Deletion.keys (h : Deletion key tid s s') (other : PeerKey) :
    other ∈ s'.ownerKeys ↔ other ∈ s.ownerKeys := by
  cases h with
  | absent => exact Iff.rfl
  | sent _ _ hperm _ | stranded _ _ hperm _ =>
    simp only [mem_ownerKeys, PeerRxTids.sent, mem_append, mem_singleton, mem_of_cons_perm hperm]
    grind

theorem Admission.settled (h : Admission s s') (hs : Settled exempt s) : Settled exempt s' :=
  hs.queues h.samePeers (fun key => (h.keys key).2) fun key hkey => .inl ((h.keys key).1 hkey)

theorem Settled.moved (hs : Settled exempt s) (hsame : SamePeers s s')
    (hks : ∀ other, other ∈ s'.ownerKeys ↔ other ∈ s.ownerKeys) : Settled exempt s' :=
  hs.queues hsame (fun k hk => .inl ((hks k).mp hk)) fun k hk => .inl ((hks k).mpr hk)

theorem Deletion.settled (h : Deletion key tid s s') (hs : Settled exempt s) : Settled exempt s' :=
  hs.moved h.samePeers h.keys

theorem Command.settled (h : Command s s') (hs : Settled exempt s) : Settled exempt s' := by
  cases h
  exact hs.moved ⟨rfl, rfl, rfl, rfl, rfl⟩ fun _ => Iff.rfl

theorem Settled.lost (hs : Settled nobody s) (hsame : SamePeers s s')
    (hks : ∀ other, other ∈ s.ownerKeys ↔ other = key ∨ other ∈ s'.ownerKeys) :
    Settled nobody (PeerRxTids.retire key s') := by
  have hopen : Settled (· = key) s' := (hs.mono fun _ => False.elim).queues hsame
    (fun k hk => .inl ((hks k).mpr (.inr hk))) fun k hk => ((hks k).mp hk).symm
  apply hopen.retire
  rw [hsame.tearingDown, hsame.fragments]
  intro htear state hst heq
  exact hs.bare state hst (heq ▸ htear)

theorem Delivery.settled {status : ReoStatus} (h : Delivery status s s') (hs : Settled nobody s) :
    Settled nobody s' := by
  cases h with
  | ignored => exact hs.moved ⟨rfl, rfl, rfl, rfl, rfl⟩ fun _ => Iff.rfl
  | cached hperm | denied hperm =>
    refine hs.moved ⟨rfl, rfl, rfl, rfl, rfl⟩ fun other => ?_
    simp only [mem_ownerKeys, logged, mem_append, mem_singleton, mem_of_cons_perm hperm]
    grind
  | released _ hperm =>
    refine hs.lost ⟨rfl, rfl, rfl, rfl, rfl⟩ fun other => ?_
    simp only [mem_ownerKeys, logged, mem_append, mem_of_cons_perm hperm]
    grind

theorem Flush.settled (h : Flush s s') (hs : Settled nobody s) : Settled nobody s' := by
  cases h with
  | sent hperm =>
    refine hs.moved ⟨rfl, rfl, rfl, rfl, rfl⟩ fun other => ?_
    simp only [mem_ownerKeys, logged, mem_append, mem_singleton, mem_of_cons_perm hperm]
    grind
  | unsent hperm =>
    refine hs.lost ⟨rfl, rfl, rfl, rfl, rfl⟩ fun other => ?_
    simp only [mem_ownerKeys, logged, mem_append, mem_of_cons_perm hperm]
    grind

theorem queueings_settled (h : ReflTransGen Queueing s s') (hs : Settled nobody s) :
    Settled nobody s' := by
  refine moves_keep (fun _ _ hq hs => ?_) h hs
  cases hq with
  | admission h | delivery h | deletion h | flush h | command h => exact h.settled hs

/-! ## Registration -/

/-- Names of peers come only to registered peers, and only exempt ones
lose theirs. -/
theorem Settled.names {peers : List PeerKey}
    {security : List SecurityPeer} (h : Settled exempt s) (hpeers : s.peers ⊆ peers)
    (hapart : ∀ key ∈ peers, key ∉ s.tearingDown)
    (hcome : ∀ key, Mapped { s with security := security } key → s.Mapped key ∨ key ∈ peers)
    (hgo : ∀ key, s.Mapped key → Mapped { s with security := security } key ∨ exempt key) :
    Settled exempt { s with peers := peers, security := security } := by
  refine ⟨?_, ?_, h.bare, hapart, h.small⟩
  · intro key hblock
    by_cases hp : key ∈ peers
    · exact .inl hp
    · refine (h.known key ?_).imp_left fun hold => hpeers hold
      refine blocked_iff.mpr ((blocked_iff.mp hblock).imp_left (.imp_right (.imp_right ?_)))
      exact fun hmapped => (hcome key hmapped).resolve_right hp
  · intro key hkey hnot
    refine (h.waits key hkey hnot).imp_right (.imp_right ?_)
    exact fun hmapped => (hgo key hmapped).resolve_right hnot

variable {other : PeerKey}

theorem mapped_new : Mapped { s with
    security := s.security ++ [⟨key, ⟨none, 0, 0, none, none⟩⟩] } other ↔ s.Mapped other := by
  simp only [Mapped, mem_append, mem_singleton]
  grind

theorem Registration.settled (h : Registration key s s') (hs : Settled nobody s) :
    Settled nobody s' := by
  cases h with
  | refused | known => exact hs
  | new htear =>
    apply hs.names (subset_append_left ..)
    · exact forall_mem_concat hs.apart htear
    · exact fun other hmapped => .inl (mapped_new.mp hmapped)
    · exact fun other hmapped => .inl (mapped_new.mpr hmapped)

theorem Registration.mem_peers (h : Registration key s s') (htear : key ∉ s.tearingDown) :
    key ∈ s'.peers := by
  cases h with
  | refused hmem => exact absurd hmem htear
  | known _ hp => exact hp
  | new => exact mem_append_right _ (mem_singleton_self key)

theorem mapped_named {map : PeerMap} (other : PeerKey) :
    (Mapped { s with security := named map s.security } other → s.Mapped other ∨ other = map.key) ∧
    (s.Mapped other → Mapped { s with security := named map s.security } other) := by
  unfold Mapped named
  rcases modifyFirst_cases (fun peer : SecurityPeer => decide (peer.key = map.key))
    (fun peer => { peer with state := { peer.state with peerId := some map.peerId } }) s.security
    with ⟨-, hsame⟩ | ⟨front, a, rest, -, ha, hl, hmod⟩
  · rw [hsame]
    exact ⟨.inl, id⟩
  · rw [decide_eq_true_eq] at ha
    rw [hmod, hl]
    simp only [mem_append, mem_cons]
    constructor
    · rintro ⟨peer, hfront | rfl | hr, hkey, hid⟩
      · exact .inl ⟨peer, .inl hfront, hkey, hid⟩
      · exact .inr (hkey.symm.trans ha)
      · exact .inl ⟨peer, .inr (.inr hr), hkey, hid⟩
    · rintro ⟨peer, hfront | rfl | hr, hkey, hid⟩
      · exact ⟨peer, .inl hfront, hkey, hid⟩
      · exact ⟨_, .inr (.inl rfl), hkey, Option.some_ne_none _⟩
      · exact ⟨peer, .inr (.inr hr), hkey, hid⟩

theorem Mapping.settled {map : PeerMap} (h : Mapping map s s') (hs : Settled nobody s) :
    Settled nobody s' := by
  cases h with
  | refused => exact hs
  | mapped _ htear hreg =>
    have hregi := hreg.settled hs
    have hp := hreg.mem_peers htear
    apply hregi.names (fun _ => id) hregi.apart
    · intro other hmapped
      exact ((mapped_named other).1 hmapped).imp_right fun heq : other = map.key => heq ▸ hp
    · exact fun other hmapped => .inl ((mapped_named other).2 hmapped)

theorem Unmapping.settled (h : Unmapping s s') (hs : Settled nobody s) : Settled nobody s' := by
  cases h with
  | refused => exact hs
  | @unmapped peer security hperm htear =>
    have hmem := mem_of_cons_perm hperm
    have hopen : Settled (· = peer.key) { s with security := security } := by
      apply (hs.mono fun _ => False.elim).names (fun _ => id) hs.apart
      · rintro other ⟨entry, hent, hr⟩
        exact .inl ⟨entry, (hmem entry).mpr (.inr hent), hr⟩
      · rintro other ⟨entry, hent, hkey, hid⟩
        rcases (hmem entry).mp hent with rfl | hent
        · exact .inr hkey.symm
        · exact .inl ⟨entry, hent, hkey, hid⟩
    apply hopen.retire
    intro _ state hst heq
    exact hs.bare state hst (heq ▸ htear)

theorem mapped_keyed {pairwise : Bool} {keyIndex : UInt8} {securityType : PeerSecurityType}
    (other : PeerKey) :
    Mapped { s with
      security := keyed key pairwise keyIndex securityType s.security } other ↔
      s.Mapped other := by
  have hid : (keyed key pairwise keyIndex securityType s.security).map
      (fun peer => (peer.key, peer.state.peerId)) =
      s.security.map fun peer => (peer.key, peer.state.peerId) := by
    apply map_modifyFirst
    intro peer
    unfold publishKey
    split <;> rfl
  have hiff : ∀ l : List SecurityPeer, (∃ peer ∈ l, peer.key = other ∧ peer.state.peerId ≠ none) ↔
      ∃ id ∈ l.map (fun peer => (peer.key, peer.state.peerId)), id.1 = other ∧ id.2 ≠ none := by
    intro l
    simp
  unfold Mapped
  rw [hiff, hiff, hid]

theorem Keying.settled (h : Keying s s') (hs : Settled nobody s) : Settled nobody s' := by
  cases h with
  | refused => exact hs
  | doubted => exact { hs with }
  | installed =>
    apply hs.names (fun _ => id) hs.apart
    · exact fun other hmapped => .inl ((mapped_keyed other).mp hmapped)
    · exact fun other hmapped => .inl ((mapped_keyed other).mpr hmapped)

/-! ## Fragments -/

/-- Fragments come only to registered peers that are not in teardown. -/
theorem Settled.fragments {fragments : List FragmentState} (h : Settled nobody s)
    (hcome : ∀ state ∈ fragments,
      (∃ old ∈ s.fragments, old.key = state.key ∧ old.tid = state.tid) ∨
        (state.key ∈ s.peers ∧ state.key ∉ s.tearingDown ∧ state.tid ≤ 16)) :
    Settled nobody { s with fragments := fragments } := by
  refine ⟨?_, h.waits, ?_, h.apart, ?_⟩
  · intro key hblock
    rcases blocked_iff.mp hblock with hheld | ⟨state, hst, rfl⟩
    · exact h.known key (blocked_iff.mpr (.inl hheld))
    · rcases hcome state hst with ⟨old, hold, hkey, -⟩ | ⟨hp, -, -⟩
      · exact h.known _ (blocked_iff.mpr (.inr ⟨old, hold, hkey⟩))
      · exact .inl hp
  · intro state hst htear
    rcases hcome state hst with ⟨old, hold, hkey, -⟩ | ⟨-, hnot, -⟩
    · exact h.bare old hold (hkey ▸ htear)
    · exact hnot htear
  · intro state hst
    rcases hcome state hst with ⟨old, hold, -, htid⟩ | ⟨-, -, hsmall⟩
    · rw [← htid]
      exact h.small old hold
    · exact hsmall

theorem Settled.gathered (h : Settled exempt s) (key : PeerKey) (tid : Option UInt8) :
    Settled exempt (s.gathered key tid) := by
  have hsub : (s.gathered key tid).fragments ⊆ s.fragments :=
    Subset.trans (subset_append_right _ _) (drain_perm _ s.fragments).subset
  -- a link gathered for the peer was kept with one of its fragments
  have hlinks : ∀ entry ∈ (s.gathered key tid).pendingFragmentLinks,
      entry ∈ s.pendingFragmentLinks ∨ ∃ state ∈ s.fragments, state.key = entry.key := by
    intro entry hent
    rcases mem_append.mp hent with hent | hent
    · exact .inl hent
    · obtain ⟨link, hlink, rfl⟩ := mem_map.mp hent
      obtain ⟨state, hst, -⟩ := mem_filterMap.mp hlink
      have hout := drain_out hst
      rw [decide_eq_true_eq] at hout
      exact .inr ⟨state, (drain_perm _ s.fragments).subset (mem_append_left _ hst), hout.1⟩
  refine ⟨?_, ?_, ?_, h.apart, fun state hst => h.small state (hsub hst)⟩
  · intro other hblock
    apply h.known other
    rcases blocked_iff.mp hblock with
      (hkey | ⟨entry, hent, rfl⟩ | hmapped) | ⟨state, hst, hkey⟩
    · exact blocked_iff.mpr (.inl (.inl hkey))
    · rcases hlinks entry hent with hent | hfrag
      · exact blocked_iff.mpr (.inl (.inr (.inl ⟨entry, hent, rfl⟩)))
      · exact blocked_iff.mpr (.inr hfrag)
    · exact blocked_iff.mpr (.inl (.inr (.inr hmapped)))
    · exact blocked_iff.mpr (.inr ⟨state, hsub hst, hkey⟩)
  · intro other hother hnot
    refine (h.waits other hother hnot).imp_right (.imp_left ?_)
    exact fun ⟨entry, hent, hkey⟩ => ⟨entry, mem_append_left _ hent, hkey⟩
  · exact fun state hst htear => h.bare state (hsub hst) htear

theorem Settled.taken {kept : List PendingFragmentLink} (h : Settled nobody s)
    (hsub : kept ⊆ s.pendingFragmentLinks)
    (hkept : ∀ entry ∈ s.pendingFragmentLinks, entry.key ≠ key → entry ∈ kept) :
    Settled (· = key) { s with pendingFragmentLinks := kept } := by
  refine ⟨?_, ?_, fun state hst hother => (h.bare state hst hother).elim, h.apart, h.small⟩
  · intro other hblock
    apply h.known other
    refine blocked_iff.mpr ((blocked_iff.mp hblock).imp_left (.imp_right (.imp_left ?_)))
    exact fun ⟨entry, hent, hkey⟩ => ⟨entry, hsub hent, hkey⟩
  · intro other hother hne
    refine (h.waits other hother id).imp_right (.imp_left ?_)
    exact fun ⟨entry, hent, hkey⟩ => ⟨entry, hkept entry hent (hkey ▸ hne), hkey⟩

/-! ## Teardown -/

theorem mem_torn_tearingDown :
    other ∈ (s.torn key).tearingDown ↔ other ∈ s.tearingDown ∨ other = key := by
  show other ∈ (if key ∈ s.tearingDown then _ else _) ↔ _
  split
  next hmem => exact ⟨.inl, fun h => h.elim id fun heq => heq ▸ hmem⟩
  next => simp

theorem mem_torn_peers : other ∈ (s.torn key).peers ↔ other ∈ s.peers ∧ other ≠ key := by
  simp [torn]

theorem torn_apart (h : ∀ other ∈ s.peers, other ∉ s.tearingDown) :
    ∀ other ∈ (s.torn key).peers, other ∉ (s.torn key).tearingDown := by
  intro other hother hmem
  obtain ⟨hp, hne⟩ := mem_torn_peers.mp hother
  rcases mem_torn_tearingDown.mp hmem with hmem | heq
  · exact h other hp hmem
  · exact hne heq

theorem Settled.torn (h : Settled nobody s) (key : PeerKey) : Settled (· = key) (s.torn key) := by
  refine ⟨?_, ?_, ?_, torn_apart h.apart, h.small⟩
  · intro other hblock
    by_cases heq : other = key
    · exact .inr (mem_torn_tearingDown.mpr (.inr heq))
    · exact (h.known other hblock).imp (fun hp => mem_torn_peers.mpr ⟨hp, heq⟩)
        fun hold => mem_torn_tearingDown.mpr (.inl hold)
  · intro other hother hnot
    exact h.waits other ((mem_torn_tearingDown.mp hother).resolve_right hnot) id
  · intro state hst hother
    exact (mem_torn_tearingDown.mp hother).resolve_left fun hold => h.bare state hst hold

theorem Purge.settled {tids : List UInt8} (h : Purge key tids s s') (hs : Settled exempt s) :
    Settled exempt s' ∧ s'.fragments ⊆ s.fragments ∧
      ∀ state ∈ s'.fragments, state.key = key → state.tid ∉ tids := by
  induction h with
  | nil => exact ⟨hs, fun _ => id, fun _ _ _ => not_mem_nil⟩
  | @cons tid rest s s' s'' hdel _ ih =>
    have hgath := (hdel.settled hs).gathered key (some tid)
    obtain ⟨hlast, hsub, hr⟩ := ih hgath
    -- what is left after gathering is of another peer or TID
    have hkept : ∀ state ∈ (s'.gathered key (some tid)).fragments,
        state ∈ s.fragments ∧ ¬ (state.key = key ∧ state.tid = tid) := by
      intro state hst
      have hout := drain_rest hst
      rw [decide_eq_false_iff_not] at hout
      refine ⟨?_, fun heq => hout ⟨heq.1, fun t ht => ?_⟩⟩
      · rw [← hdel.samePeers.fragments]
        exact (drain_perm _ s'.fragments).subset (mem_append_right _ hst)
      · rw [Option.mem_some_iff.mp ht] at heq
        exact heq.2
    refine ⟨hlast, fun state hst => (hkept state (hsub hst)).1, ?_⟩
    intro state hst hkey hmem
    rcases mem_cons.mp hmem with htid | hmem
    · exact (hkept state (hsub hst)).2 ⟨hkey, htid⟩
    · exact hr state hst hkey hmem

theorem mem_allTids (h : tid ≤ 16) : tid ∈ allTids := by
  apply mem_map.mpr
  refine ⟨tid.toNat, ?_, UInt8.ofNat_toNat⟩
  rw [mem_range]
  have := UInt8.le_iff_toNat_le.mp h
  simp only [UInt8.reduceToNat] at this
  omega

/-! ## Any operation -/

theorem exec_settled (op : Op) (s : PeerRxTids) (hs : Settled nobody s) :
    Settled nobody (op.exec P s).state := by
  have hqueues := exec_queueing P op s
  cases op with
  | registerPeerAfterFirmwareCreate => exact (register_registration ..).settled hs
  | registerPeerMap => exact (registerPeerMap_mapping ..).settled hs
  | unregisterPeerMap => exact (unregisterPeerMap_unmapping ..).settled hs
  | installPeerKey key pairwise keyIndex securityType =>
    obtain ⟨s', hcmds, -, hkeying⟩ := installPeerKey_cases P key pairwise keyIndex securityType s
    exact hkeying.settled (moves_keep (fun _ _ h => h.settled) hcmds hs)
  | peerRxTidCleanup key =>
    obtain ⟨s', hpurge, hst⟩ := peerRxTidCleanup_cases P key s
    obtain ⟨hpurged, hsub, hgone⟩ := hpurge.settled (hs.torn key)
    rw [show ((Op.peerRxTidCleanup key).exec P s).state = _ from hst]
    apply hpurged.retire
    intro _ state hfrag hkey
    exact hgone state hfrag hkey (mem_allTids (hs.small state (hsub hfrag)))
  | peerFragsFlush key => exact hs.gathered key none
  | takePendingFragmentLinkReturns key =>
    obtain ⟨links, kept, hrun, -, hsub, hkept⟩ := takePendingFragmentLinkReturns_links key s
    rw [Op.exec, hrun]
    apply Settled.retire (hs.taken hsub hkept)
    intro htear state hst hkey
    exact hs.bare state hst (hkey ▸ htear)
  | rxFragHMpdu input nowMs =>
    obtain ⟨outcome, fragments, hrun, -, hcome⟩ := rxFragHMpdu_passes input nowMs s
    rw [Op.exec, hrun]
    exact hs.fragments hcome
  | expireIncompleteFragments nowMs =>
    obtain ⟨links, fragments, hrun, -, hsub⟩ := expireIncompleteFragments_links nowMs s
    rw [Op.exec, hrun]
    exact hs.fragments fun state hst => .inl ⟨state, hsub hst, rfl, rfl⟩
  | _ => exact queueings_settled (hqueues trivial) hs

theorem new_settled : Settled nobody new := by
  refine ⟨?_, ?_, ?_, ?_, ?_⟩
  · intro key hblock
    rcases blocked_iff.mp hblock with (hkey | ⟨_, h, -⟩ | ⟨_, h, -⟩) | ⟨_, h, -⟩
    · exact absurd hkey not_mem_nil
    all_goals exact absurd h not_mem_nil
  all_goals exact fun _ h => absurd h not_mem_nil

/-- After any run, a peer that is neither registered nor being torn down has nothing left: no
queue in any table, no fragment, no link to hand back and no mapped identifier. A peer being torn
down has something left, and is not registered. -/
theorem teardown_exact (P : Platform) (ops : List Op) :
    let s := (new.run P ops).2
    (∀ key, key ∉ s.peers → key ∉ s.tearingDown → ¬ s.Blocked key) ∧
      (∀ key ∈ s.tearingDown, s.Blocked key) ∧ ∀ key ∈ s.peers, key ∉ s.tearingDown := by
  have hs := (run_induct (P := P) exec_settled ops new_settled).2
  refine ⟨?_, ?_, hs.apart⟩
  · intro key hp htear hblock
    exact (hs.known key hblock).elim hp htear
  · intro key htear
    exact blocked_iff.mpr (.inl (hs.waits key htear id))

end

end Drv.Ath11k
