import Drv.Laws.Ath11k.Owners
import Drv.Laws.Ath11k.Teardown

/-!
# The security table

A registered peer has one entry in the table, mapped peers have different
names, and a newly registered peer starts without keys
(`security_table_exact`). An entry goes only when the firmware withdraws
the name of its peer, so this holds as long as no registered peer is torn
down before it was mapped: the entry of such a peer stays, with its keys,
and is found again when the peer comes back (`keys_survive_reconnect`).
-/

namespace Drv.Ath11k

open Relation (ReflTransGen)
open List PeerRxTids

variable {P : Platform} {s s' s'' : PeerRxTids}

/-! ## The table left alone -/

/-- The table is as it was, and no mapped peer has left its teardown. -/
structure SameTable (s s' : PeerRxTids) : Prop where
  peers : s'.peers = s.peers
  security : s'.security = s.security
  comes : s'.tearingDown ⊆ s.tearingDown
  stays : ∀ key ∈ s.tearingDown, s.Mapped key → key ∈ s'.tearingDown

namespace SameTable

theorem refl (s : PeerRxTids) : SameTable s s := ⟨rfl, rfl, fun _ => id, fun _ h _ => h⟩

theorem trans (h : SameTable s s') (h' : SameTable s' s'') : SameTable s s'' where
  peers := h'.peers.trans h.peers
  security := h'.security.trans h.security
  comes := Subset.trans h'.comes h.comes
  stays key hkey hmapped := by
    apply h'.stays key (h.stays key hkey hmapped)
    unfold Mapped
    rw [h.security]
    exact hmapped

instance : IsPreorder PeerRxTids SameTable where
  refl := refl
  trans _ _ _ := trans

theorem retire (key : PeerKey) (s : PeerRxTids) : SameTable s (retire key s) := by
  unfold PeerRxTids.retire
  split
  next => exact .refl s
  next hfree =>
    refine ⟨rfl, rfl, fun _ h => mem_of_mem_filter h, ?_⟩
    intro other hother hmapped
    apply mem_filter.mpr
    refine ⟨hother, decide_eq_true ?_⟩
    rintro rfl
    exact hfree (blocked_iff.mpr (.inl (.inr (.inr hmapped))))

end SameTable

theorem SamePeers.sameTable (h : SamePeers s s') : SameTable s s' := by
  refine ⟨h.peers, h.security, ?_, ?_⟩
  · rw [h.tearingDown]
    exact fun _ => id
  · intro key hkey _
    rw [h.tearingDown]
    exact hkey

theorem queueings_sameTable (h : ReflTransGen Queueing s s') : SameTable s s' :=
  queueings_frame SamePeers.sameTable SameTable.retire h

theorem commands_sameTable (h : ReflTransGen Command s s') : SameTable s s' :=
  queueings_sameTable (ReflTransGen.mono (fun _ _ => .command) _ _ h)

variable {key : PeerKey}

theorem Purge.sameTable {tids : List UInt8} (h : Purge key tids s s') : SameTable s s' := by
  induction h with
  | nil s => exact .refl s
  | @cons tid _ _ s' _ hdel _ ih =>
    have hgath : SameTable s' (s'.gathered key (some tid)) :=
      ⟨rfl, rfl, fun _ => id, fun _ h _ => h⟩
    exact hdel.samePeers.sameTable.trans (hgath.trans ih)

/-! ## The invariant -/

/-- The names the firmware gave. -/
def peerIds (security : List SecurityPeer) : List UInt16 :=
  security.filterMap fun peer => peer.state.peerId

theorem peerIds_eq (security : List SecurityPeer) :
    peerIds security = (security.map fun peer => peer.state.peerId).filterMap id := by
  rw [filterMap_map]
  rfl

/-- One entry for a registered peer; an entry of any other is of one that is torn down and
mapped. -/
structure Registry (s : PeerRxTids) : Prop where
  keys : (s.security.map SecurityPeer.key).Nodup
  ids : (peerIds s.security).Nodup
  entry : ∀ key ∈ s.peers, key ∈ s.security.map SecurityPeer.key
  known : ∀ peer ∈ s.security, peer.key ∈ s.peers ∨
    peer.key ∈ s.tearingDown ∧ peer.state.peerId ≠ none
  apart : ∀ key ∈ s.peers, key ∉ s.tearingDown

theorem Registry.same (hs : Registry s) (h : SameTable s s') : Registry s' := by
  obtain ⟨hpeers, hsec, hcomes, hstays⟩ := h
  refine ⟨?_, ?_, ?_, ?_, ?_⟩
  · rw [hsec]
    exact hs.keys
  · rw [hsec]
    exact hs.ids
  · rw [hsec, hpeers]
    exact hs.entry
  · rw [hsec, hpeers]
    intro peer hp
    exact (hs.known peer hp).imp_right fun ⟨htear, hid⟩ =>
      ⟨hstays _ htear ⟨peer, hp, rfl, hid⟩, hid⟩
  · rw [hpeers]
    exact fun key hkey htear => hs.apart key hkey (hcomes htear)

theorem Registry.absent (hs : Registry s) (htear : key ∉ s.tearingDown) (hp : key ∉ s.peers) :
    ∀ peer ∈ s.security, peer.key ≠ key := by
  rintro peer hmem rfl
  rcases hs.known peer hmem with h | ⟨h, -⟩
  · exact hp h
  · exact htear h

/-! ## Registration -/

theorem Registration.registry (h : Registration key s s') (hs : Registry s) : Registry s' := by
  cases h with
  | refused => exact hs
  | known => exact hs
  | new htear hp =>
    have habs := hs.absent htear hp
    refine ⟨?_, ?_, ?_, ?_, ?_⟩
    · rw [map_append, map_singleton, nodup_append]
      refine ⟨hs.keys, nodup_singleton _, ?_⟩
      intro a ha b hb
      obtain ⟨peer, hmem, rfl⟩ := mem_map.mp ha
      rw [mem_singleton.mp hb]
      exact habs peer hmem
    · have hids : peerIds (s.security ++ [⟨key, ⟨none, 0, 0, none, none⟩⟩]) =
          peerIds s.security := by
        simp [peerIds]
      rw [hids]
      exact hs.ids
    · intro other hother
      rw [map_append, mem_append]
      exact (mem_append.mp hother).imp (hs.entry other) id
    · refine forall_mem_concat (fun peer hmem => ?_) (.inl mem_concat_self)
      exact (hs.known peer hmem).imp_left fun h => mem_append_left _ h
    · exact forall_mem_concat hs.apart htear

theorem Registry.changed {p : SecurityPeer → Bool} {f : SecurityPeer → SecurityPeer}
    (hs : Registry s) (hkey : ∀ peer, (f peer).key = peer.key)
    (hid : ∀ peer, peer.state.peerId ≠ none → (f peer).state.peerId ≠ none)
    (hids : (peerIds (modifyFirst p f s.security)).Nodup) :
    Registry { s with security := modifyFirst p f s.security } := by
  have hks : (modifyFirst p f s.security).map SecurityPeer.key =
      s.security.map SecurityPeer.key := map_modifyFirst hkey
  refine ⟨?_, hids, ?_, ?_, hs.apart⟩
  · rw [hks]
    exact hs.keys
  · rw [hks]
    exact hs.entry
  · rcases modifyFirst_cases p f s.security with ⟨-, hsame⟩ | ⟨front, a, rest, -, -, hl, hmod⟩
    · rw [hsame]
      exact hs.known
    · have hknown := hs.known
      rw [hl, forall_mem_append, forall_mem_cons] at hknown
      rw [hmod, forall_mem_append, forall_mem_cons, hkey]
      refine ⟨hknown.1, ?_, hknown.2.2⟩
      exact hknown.2.1.imp_right fun h => ⟨h.1, hid a h.2⟩

variable {map : PeerMap} {security : List SecurityPeer}

theorem named_ids (hks : (security.map SecurityPeer.key).Nodup) (hids : (peerIds security).Nodup)
    (hother : ∀ peer ∈ security, peer.key ≠ map.key → peer.state.peerId ≠ some map.peerId) :
    (peerIds (named map security)).Nodup := by
  unfold named
  rcases modifyFirst_cases _ _ security with ⟨-, hsame⟩ | ⟨front, a, rest, -, ha, hl, hmod⟩
  · rw [hsame]
    exact hids
  rw [decide_eq_true_eq] at ha
  rw [hmod]
  subst hl
  rw [map_append, map_cons, nodup_middle, nodup_cons] at hks
  -- the others keep their names, which are different and not the new one
  have hfree : ∀ peer ∈ front ++ rest, peer.state.peerId ≠ some map.peerId := by
    intro peer hp
    apply hother peer
    · exact ((sublist_cons_self a rest).append_left front).subset hp
    · rintro heq
      apply hks.1
      rw [ha, ← heq, ← map_append]
      exact mem_map.mpr ⟨peer, hp, rfl⟩
  have hr : (peerIds (front ++ rest)).Nodup := by
    refine Nodup.sublist ?_ hids
    exact ((Sublist.refl front).append (sublist_cons_self a rest)).filterMap _
  unfold peerIds at hr ⊢
  rw [filterMap_append] at hr
  rw [filterMap_append, filterMap_cons, nodup_middle, nodup_cons]
  refine ⟨?_, hr⟩
  rw [← filterMap_append]
  intro hmem
  obtain ⟨peer, hp, hid⟩ := mem_filterMap.mp hmem
  exact hfree peer hp hid

theorem Mapping.registry (h : Mapping map s s') (hs : Registry s) : Registry s' := by
  cases h with
  | refused => exact hs
  | mapped hconf _ hreg =>
    have hregi := hreg.registry hs
    apply hregi.changed
    · exact fun _ => rfl
    · exact fun _ _ => Option.some_ne_none _
    · apply named_ids hregi.keys hregi.ids
      intro peer hp hkey hid
      cases hreg with
      | refused | known => exact hconf peer hp (.inr ⟨hkey, hid⟩)
      | new =>
        rcases mem_append.mp hp with hp | hp
        · exact hconf peer hp (.inr ⟨hkey, hid⟩)
        · exact hkey (mem_singleton.mp hp ▸ rfl)

theorem Unmapping.registry (h : Unmapping s s') (hs : Registry s) : Registry s' := by
  cases h with
  | refused => exact hs
  | @unmapped peer security hperm htear =>
    refine .same ?_ (.retire _ _)
    have hks : (security.map SecurityPeer.key).Nodup :=
      (nodup_cons.mp ((hperm.map SecurityPeer.key).nodup_iff.mpr hs.keys)).2
    refine ⟨hks, ?_, ?_, ?_, hs.apart⟩
    · refine Nodup.sublist ?_ ((hperm.filterMap _).nodup_iff.mpr hs.ids)
      exact (sublist_cons_self peer security).filterMap _
    · intro key hkey
      rcases mem_cons.mp ((hperm.map SecurityPeer.key).symm.subset (hs.entry key hkey)) with
        rfl | hmem
      · exact absurd htear (hs.apart _ hkey)
      · exact hmem
    · exact fun other hother => hs.known other (hperm.subset (mem_cons_of_mem _ hother))

theorem Keying.registry (h : Keying s s') (hs : Registry s) : Registry s' := by
  cases h with
  | refused => exact hs
  | doubted => exact { hs with }
  | installed key pairwise keyIndex securityType =>
    have hid : ∀ peer : SecurityPeer,
        (publishKey pairwise keyIndex securityType peer.state).peerId =
          peer.state.peerId := by
      intro peer
      cases pairwise <;> rfl
    apply hs.changed
    · exact fun _ => rfl
    · intro peer hp
      rw [hid]
      exact hp
    · rw [peerIds_eq, map_modifyFirst hid, ← peerIds_eq]
      exact hs.ids

/-- A registered peer is torn down only after it was mapped. -/
def Op.Mapped (s : PeerRxTids) : Op → Prop
  | .peerRxTidCleanup key => key ∈ s.peers → s.Mapped key
  | _ => True

theorem Registry.torn (hs : Registry s) (hmapped : key ∈ s.peers → s.Mapped key) :
    Registry (s.torn key) := by
  refine ⟨hs.keys, hs.ids, ?_, ?_, torn_apart hs.apart⟩
  · exact fun other hother => hs.entry other (mem_torn_peers.mp hother).1
  · intro peer hmem
    rcases hs.known peer hmem with hp | ⟨htear, hid⟩
    · by_cases heq : peer.key = key
      · -- its only entry is the mapped one
        obtain ⟨other, hother, hkey, hid⟩ := hmapped (heq ▸ hp)
        have hsame : peer = other := inj_on_of_nodup_map hs.keys hmem hother (heq.trans hkey.symm)
        exact .inr ⟨mem_torn_tearingDown.mpr (.inr heq), hsame ▸ hid⟩
      · exact .inl (mem_torn_peers.mpr ⟨hp, heq⟩)
    · exact .inr ⟨mem_torn_tearingDown.mpr (.inl htear), hid⟩

/-! ## Any operation -/

/-- The peers and the table after an operation: as they were, or changed by the operations on
peers. -/
inductive Tabling (s : PeerRxTids) : Op → PeerRxTids → Prop
  | registered {key : PeerKey} {s' : PeerRxTids} : Registration key s s' →
    Tabling s (.registerPeerAfterFirmwareCreate key) s'
  | mapped {map : PeerMap} {s' : PeerRxTids} : Mapping map s s' →
    Tabling s (.registerPeerMap map) s'
  | unmapped {peerId : UInt16} {s' : PeerRxTids} : Unmapping s s' →
    Tabling s (.unregisterPeerMap peerId) s'
  | keyed {op : Op} {s' s'' : PeerRxTids} : SameTable s s' → Keying s' s'' → Tabling s op s''
  | torn {key : PeerKey} {s' : PeerRxTids} : SameTable (s.torn key) s' →
    Tabling s (.peerRxTidCleanup key) s'
  | same {op : Op} {s' : PeerRxTids} : SameTable s s' → Tabling s op s'

theorem exec_tabling (op : Op) (s : PeerRxTids) : Tabling s op (op.exec P s).state := by
  have hqueues := exec_queueing P op s
  cases op with
  | registerPeerAfterFirmwareCreate => exact .registered (register_registration ..)
  | registerPeerMap => exact .mapped (registerPeerMap_mapping ..)
  | unregisterPeerMap => exact .unmapped (unregisterPeerMap_unmapping ..)
  | installPeerKey key pairwise keyIndex securityType =>
    obtain ⟨s', hcmds, -, hkeying⟩ := installPeerKey_cases P key pairwise keyIndex securityType s
    exact .keyed (commands_sameTable hcmds) hkeying
  | peerRxTidCleanup key =>
    obtain ⟨s', hpurge, hst⟩ := peerRxTidCleanup_cases P key s
    rw [show ((Op.peerRxTidCleanup key).exec P s).state = _ from hst]
    exact .torn (hpurge.sameTable.trans (.retire key s'))
  | peerFragsFlush key | expireIncompleteFragments nowMs =>
    exact .same ⟨rfl, rfl, fun _ => id, fun _ h _ => h⟩
  | takePendingFragmentLinkReturns key =>
    obtain ⟨links, kept, hrun, -⟩ := takePendingFragmentLinkReturns_links key s
    have hk : SameTable s { s with pendingFragmentLinks := kept } :=
      ⟨rfl, rfl, fun _ => id, fun _ h _ => h⟩
    rw [Op.exec, hrun]
    exact .same (hk.trans (.retire key _))
  | rxFragHMpdu input nowMs =>
    obtain ⟨outcome, fragments, hrun, -⟩ := rxFragHMpdu_passes input nowMs s
    rw [Op.exec, hrun]
    exact .same ⟨rfl, rfl, fun _ => id, fun _ h _ => h⟩
  | _ => exact .same (queueings_sameTable (hqueues trivial))

theorem Tabling.registry {op : Op} (h : Tabling s op s') (hmapped : op.Mapped s) (hs : Registry s) :
    Registry s' := by
  cases h with
  | registered h | mapped h | unmapped h => exact h.registry hs
  | keyed hsame hkeying => exact hkeying.registry (hs.same hsame)
  | torn hsame => exact (hs.torn hmapped).same hsame
  | same hsame => exact hs.same hsame

/-! ## A peer that comes -/

/-- A peer without keys. -/
def PeerRxTids.Keyless (s : PeerRxTids) (key : PeerKey) : Prop :=
  ∃ state, s.peerSecurity key = some state ∧ state.unicastType = none ∧
    state.multicastType = none ∧ state.unicastKeyIndex = 0 ∧ state.multicastKeyIndex = 0

theorem Registration.keyless (h : Registration key s s') (hs : Registry s) :
    ∀ other ∈ s'.peers, other ∉ s.peers → s'.Keyless other := by
  intro other hother hnew
  cases h with
  | refused | known => exact absurd hother hnew
  | new htear hp =>
    obtain rfl : other = key := mem_singleton.mp ((mem_append.mp hother).resolve_left hnew)
    refine ⟨⟨none, 0, 0, none, none⟩, ?_, rfl, rfl, rfl, rfl⟩
    show Option.map _ (find? _ (s.security ++ [_])) = _
    rw [find?_append, find?_eq_none.mpr, Option.none_or, find?_singleton,
      if_pos (decide_eq_true rfl)]
    · rfl
    intro peer hpeer
    rw [decide_eq_true_eq]
    exact hs.absent htear hp peer hpeer

theorem named_keyless (h : s.Keyless key) :
    Keyless { s with security := named map s.security } key := by
  obtain ⟨state, hst, huni, hmulti, hunicastIndex, hmulticastIndex⟩ := h
  obtain ⟨peer, hf, rfl⟩ := Option.map_eq_some_iff.mp hst
  rcases find?_modifyFirst (p := fun peer => peer.key = map.key)
    (f := fun peer => { peer with state := { peer.state with peerId := some map.peerId } })
    (fun _ => rfl) hf with hnamed | hnamed <;>
  exact ⟨_, Option.map_eq_some_iff.mpr ⟨_, hnamed, rfl⟩, huni, hmulti, hunicastIndex,
    hmulticastIndex⟩

theorem Tabling.keyless {op : Op} (h : Tabling s op s') (hs : Registry s) :
    ∀ key ∈ s'.peers, key ∉ s.peers → s'.Keyless key := by
  intro key hkey hnew
  cases h with
  | registered h => exact h.keyless hs key hkey hnew
  | mapped h =>
    cases h with
    | refused => exact absurd hkey hnew
    | mapped _ _ hreg => exact named_keyless (hreg.keyless hs key hkey hnew)
  | unmapped h =>
    cases h with
    | refused => exact absurd hkey hnew
    | unmapped =>
      rw [(SameTable.retire _ _).peers] at hkey
      exact absurd hkey hnew
  | keyed hsame hkeying =>
    have hpeers : s'.peers = s.peers := by
      rw [← hsame.peers]
      cases hkeying <;> rfl
    rw [hpeers] at hkey
    exact absurd hkey hnew
  | torn hsame =>
    rw [hsame.peers] at hkey
    exact absurd (mem_torn_peers.mp hkey).1 hnew
  | same hsame =>
    rw [hsame.peers] at hkey
    exact absurd hkey hnew

/-! ## Runs -/

theorem new_registry : Registry new where
  keys := nodup_nil
  ids := nodup_nil
  entry _ h := absurd h not_mem_nil
  known _ h := absurd h not_mem_nil
  apart _ h := absurd h not_mem_nil

theorem run_registry (ops : List Op) {s : PeerRxTids} (hs : Registry s)
    (hmapped : ∀ step ∈ (s.run P ops).1, step.op.Mapped step.before) :
    Registry (s.run P ops).2 ∧ ∀ step ∈ (s.run P ops).1,
      ∀ key ∈ step.after.peers, key ∉ step.before.peers → step.after.Keyless key := by
  induction ops generalizing s with
  | nil => exact ⟨hs, fun _ h => absurd h not_mem_nil⟩
  | cons op rest ih =>
    have htabling : Tabling s op (op.exec P s).state := exec_tabling op s
    obtain ⟨hlast, hsteps⟩ := ih (htabling.registry (hmapped _ mem_cons_self) hs)
      fun step hstep => hmapped step (mem_cons_of_mem _ hstep)
    exact ⟨hlast, forall_mem_cons.mpr ⟨htabling.keyless hs, hsteps⟩⟩

/-- In every run that tears down registered peers only when they are
mapped: a registered peer has one entry in the table, no two peers have
one name, and whenever a peer is registered anew it has no keys. -/
theorem security_table_exact (P : Platform) (ops : List Op)
    (hmapped : ∀ step ∈ (new.run P ops).1, step.op.Mapped step.before) :
    let s := (new.run P ops).2
    (∀ key ∈ s.peers, s.security.countP (fun peer => peer.key = key) = 1) ∧
      (peerIds s.security).Nodup ∧
      ∀ step ∈ (new.run P ops).1,
        ∀ key ∈ step.after.peers, key ∉ step.before.peers → step.after.Keyless key := by
  obtain ⟨hs, hkeyless⟩ := run_registry ops new_registry hmapped
  refine ⟨?_, hs.ids, hkeyless⟩
  intro key hkey
  have hcnt := count_eq_one_of_mem hs.keys (hs.entry key hkey)
  rw [count_eq_countP, countP_map] at hcnt
  rw [← hcnt]
  apply countP_congr
  intro peer _
  simp

/-- A peer that was mapped, got a group key, left and comes back. -/
def returning : List Op :=
  [.registerPeerAfterFirmwareCreate peer, .registerPeerMap ⟨0, 7, peer.peerAddr⟩,
    .installPeerKey peer false 1 .ccmp128, .peerRxTidCleanup peer, .unregisterPeerMap 7,
    .registerPeerAfterFirmwareCreate peer]

theorem mapped_peer_returns :
    let run := new.run obliging returning
    run.2.security.countP (fun other => other.key = peer) = 1 ∧
      ∀ step ∈ run.1, peer ∈ step.after.peers → peer ∉ step.before.peers →
        step.after.Keyless peer := by
  have hmapped : ∀ step ∈ (new.run obliging returning).1, step.op.Mapped step.before := by
    refine forall_mem_cons.mpr ⟨trivial, forall_mem_cons.mpr ⟨trivial,
      forall_mem_cons.mpr ⟨trivial, forall_mem_cons.mpr ⟨fun _ => ?_,
        forall_mem_cons.mpr ⟨trivial, forall_mem_cons.mpr ⟨trivial, ?_⟩⟩⟩⟩⟩⟩
    · exact ⟨⟨peer, ⟨some 7, 0, 1, none, some .ccmp128⟩⟩, by decide, rfl, by decide⟩
    · exact fun _ h => absurd h not_mem_nil
  obtain ⟨hone, -, hkeyless⟩ := security_table_exact obliging returning hmapped
  exact ⟨hone peer (by decide +kernel), fun step hstep => hkeyless step hstep peer⟩

/-- A peer that was never mapped, got a group key, left and comes back:
it has two entries, and the table still shows the old key. -/
theorem keys_survive_reconnect :
    let s := (new.run obliging [.registerPeerAfterFirmwareCreate peer,
      .installPeerKey peer false 1 .ccmp128, .peerRxTidCleanup peer]).2
    let last := (s.run obliging [.registerPeerAfterFirmwareCreate peer]).2
    (peer ∉ s.peers ∧ peer ∉ s.tearingDown) ∧ peer ∈ last.peers ∧
      last.security.countP (fun other => other.key = peer) = 2 ∧
      last.peerSecurity peer = some ⟨none, 0, 1, none, some .ccmp128⟩ := by
  decide +kernel

/-! ## Keys as a whole -/

section
variable (P : Platform) (key : PeerKey) (pairwise : Bool) (keyIndex : UInt8)
  (securityType : PeerSecurityType) (s : PeerRxTids)

/-- A key is published only when all updates of the replay counters went
well; after one that failed the peer is in doubt, and nothing is taken from
it. -/
structure AllOrNothing (o : Outcome PeerRxTids Empty DpError Unit) : Prop where
  published : ¬ (s.Takes key pairwise ∧ (replayUpdates P key pairwise s).result = .ok ()) →
    o.result ≠ .ok () ∧ o.state.security = s.security
  quarantined : s.Takes key pairwise → (replayUpdates P key pairwise s).result ≠ .ok () →
    key ∈ o.state.uncertainSecurity ∧ ∀ input, input.key = key → o.state.rejects input

/-- What comes from a registered peer in doubt is not turned away. -/
theorem keys_all_or_nothing_iff :
    AllOrNothing P key pairwise s (installPeerKey P key pairwise keyIndex securityType s) ↔
      (s.Takes key pairwise → key ∈ s.peers →
        (replayUpdates P key pairwise s).result = .ok ()) := by
  have hsame : SameTable s (replayUpdates P key pairwise s).state := by
    cases pairwise with
    | false => exact .refl s
    | true => exact commands_sameTable (configurePn_commands P key allTids s).1
  obtain ⟨hno, hr, hst⟩ | ⟨htakes, ⟨e, hres, hr, hst⟩ | ⟨hres, -⟩⟩ :=
    installPeerKey_ends P key pairwise keyIndex securityType s
  · refine ⟨fun _ h => absurd h hno, fun _ => ⟨fun _ => ?_, fun h => absurd h hno⟩⟩
    rw [hr, hst]
    exact ⟨by simp, rfl⟩
  · constructor
    · intro h _ hpeer
      by_contra hfailed
      -- a well formed fragment of the peer is not turned away
      have hrej := (h.quarantined htakes hfailed).2 { piece 0 .open none with key := key } rfl
      have htear : key ∉ (replayUpdates P key pairwise s).state.tearingDown :=
        fun h => htakes.2.1 (.inr (hsame.comes h))
      rw [hst] at hrej
      simp [rejects, piece, hsame.peers, hpeer, htear] at hrej
    · intro h
      refine ⟨fun _ => ?_, fun _ hfailed => ?_⟩
      · rw [hr, hst]
        exact ⟨by simp, hsame.security⟩
      · rw [hst]
        refine ⟨mem_append_right _ mem_cons_self, ?_⟩
        rintro input rfl
        have hpeer : input.key ∉ s.peers := fun hpeer => hfailed (h htakes hpeer)
        simp [rejects, hsame.peers, hpeer]
  · exact ⟨fun _ _ _ => hres, fun _ => ⟨fun h => absurd ⟨htakes, hres⟩ h, fun _ h => absurd hres h⟩⟩

end

/-- The second publication of a command fails. -/
def halting : Platform :=
  { obliging with publish := fun trace _ => if attempts trace = 2 then some .noResources else none }

/-- A peer with all its queues gets a key. The second update fails, and the
next fragment of the peer is collected. -/
theorem doubtful_peer_heard :
    let s := (new.run halting (.registerPeerAfterFirmwareCreate peer ::
      allTids.map (.peerRxTidSetup false peer · 1 0))).2
    let o := installPeerKey halting peer true 0 .ccmp128 s
    o.result = .error .noResources ∧ peer ∈ o.state.uncertainSecurity ∧
      (rxFragHMpdu { piece 0 .ccmp128 (some 7) with key := peer } 0 o.state).state.fragments.map
        (·.key) = [peer] := by
  decide +kernel

end Drv.Ath11k
