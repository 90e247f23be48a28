import Drv.Laws.Ath11k.Transitions
import Drv.Laws.Ath11k.Fragments

/-!
# What any operation can do

The operations on peers and fragments leave the queues, the counter and
the trace alone (`SameQueues`). So every operation is a setup, or a chain
of `Move`s after the delivery of some statuses (`exec_cases`), and what
these keep holds in every state of a run (`run_induct`).
-/

namespace Drv.Ath11k

open Relation (ReflTransGen)
open List PeerRxTids

variable {P : Platform}

/-! ## Everything else -/

/-- The queues, the counter and the trace are as they were. -/
structure SameQueues (s s' : PeerRxTids) : Prop where
  tids : s'.tids = s.tids
  pendingDelete : s'.pendingDelete = s.pendingDelete
  cachedDelete : s'.cachedDelete = s.cachedDelete
  pendingFlush : s'.pendingFlush = s.pendingFlush
  uncertainSetup : s'.uncertainSetup = s.uncertainSetup
  failedDelete : s'.failedDelete = s.failedDelete
  nextCommandNumber : s'.nextCommandNumber = s.nextCommandNumber
  trace : s'.trace = s.trace

open SameQueues

theorem SameQueues.refl (s : PeerRxTids) : SameQueues s s :=
  ⟨rfl, rfl, rfl, rfl, rfl, rfl, rfl, rfl⟩

variable (key : PeerKey)

/-- The end of a teardown only opens a peer to registration again. -/
theorem retire_eq (s : PeerRxTids) :
    ∃ tearingDown, retire key s = { s with tearingDown := tearingDown } := by
  unfold retire
  split
  · exact ⟨s.tearingDown, rfl⟩
  · exact ⟨_, rfl⟩

theorem SameQueues.retire {s s' : PeerRxTids} (h : SameQueues s s') :
    SameQueues s (retire key s') := by
  obtain ⟨tearingDown, hretire⟩ := retire_eq key s'
  rw [hretire]
  exact { h with }

theorem retire_sameQueues (s : PeerRxTids) : SameQueues s (retire key s) := (refl s).retire key

/-! ## Peers -/

/-- What registering a peer can do. -/
inductive Registration (key : PeerKey) (s : PeerRxTids) : PeerRxTids → Prop
  | refused : key ∈ s.tearingDown → Registration key s s
  | known : key ∉ s.tearingDown → key ∈ s.peers → Registration key s s
  | new : key ∉ s.tearingDown → key ∉ s.peers →
    Registration key s { s with
      peers := s.peers ++ [key]
      security := s.security ++ [⟨key, ⟨none, 0, 0, none, none⟩⟩] }

theorem register_registration (s : PeerRxTids) :
    Registration key s (registerPeerAfterFirmwareCreate key s).state := by
  rw [registerPeerAfterFirmwareCreate, Eff.look_bind]
  split
  next h => exact .refused h
  next h =>
    split
    next hp => exact .known h hp
    next hp => exact .new h hp

/-- The table with a peer's name in it. -/
def named (map : PeerMap) : List SecurityPeer → List SecurityPeer :=
  modifyFirst (fun peer => peer.key = map.key)
    fun peer => { peer with state := { peer.state with peerId := some map.peerId } }

/-- What mapping a peer can do. -/
inductive Mapping (map : PeerMap) (s : PeerRxTids) : PeerRxTids → Prop
  | refused : Mapping map s s
  | mapped {s' : PeerRxTids} :
    (∀ peer ∈ s.security, ¬ conflicts map peer) → map.key ∉ s.tearingDown →
    Registration map.key s s' → Mapping map s { s' with security := named map s'.security }

theorem registerPeerMap_mapping (map : PeerMap) (s : PeerRxTids) :
    Mapping map s (registerPeerMap map s).state := by
  rw [registerPeerMap, Eff.look_bind]
  split
  · exact .refused
  next hconf =>
  simp only [not_exists, not_and] at hconf
  have hregis := register_registration map.key s
  rw [Eff.bind_apply]
  by_cases h : map.key ∈ s.tearingDown
  · have href : registerPeerAfterFirmwareCreate map.key s = ⟨.error .wrongState, s, []⟩ := by
      rw [registerPeerAfterFirmwareCreate, Eff.look_bind, if_pos h, Eff.fail_apply]
    rw [href]
    exact .refused
  · have hok : (registerPeerAfterFirmwareCreate map.key s).result = .ok () := by
      rw [registerPeerAfterFirmwareCreate, Eff.look_bind, if_neg h]
      split <;> rfl
    rw [hok]
    exact .mapped hconf h hregis

/-- What withdrawing the name of a peer can do. -/
inductive Unmapping (s : PeerRxTids) : PeerRxTids → Prop
  | refused : Unmapping s s
  | unmapped {peer : SecurityPeer} {security : List SecurityPeer} :
    (peer :: security).Perm s.security → peer.key ∈ s.tearingDown →
    Unmapping s (retire peer.key { s with security := security })

theorem unregisterPeerMap_unmapping (peerId : UInt16) (s : PeerRxTids) :
    Unmapping s (unregisterPeerMap peerId s).state := by
  rw [unregisterPeerMap, Eff.look_bind]
  cases hextr : extract (fun peer => decide (peer.state.peerId = some peerId)) s.security with
  | none => exact .refused
  | some found =>
    dsimp only
    split
    next h => exact .unmapped (extract_some hextr).2 h
    next => exact .refused

/-- The table with a peer's key in it. -/
def keyed (key : PeerKey) (pairwise : Bool) (keyIndex : UInt8) (securityType : PeerSecurityType) :
    List SecurityPeer → List SecurityPeer :=
  modifyFirst (fun peer => peer.key = key) fun peer =>
    { peer with state := publishKey pairwise keyIndex securityType peer.state }

/-- What installing a key can do, after its commands. -/
inductive Keying (s : PeerRxTids) : PeerRxTids → Prop
  | refused : Keying s s
  | doubted (uncertainSecurity : List PeerKey) :
    Keying s { s with uncertainSecurity := uncertainSecurity }
  | installed (key : PeerKey) (pairwise : Bool) (keyIndex : UInt8)
    (securityType : PeerSecurityType) :
    Keying s { s with security := keyed key pairwise keyIndex securityType s.security }

section
variable (P : Platform) (key : PeerKey) (pairwise : Bool) (keyIndex : UInt8)
  (securityType : PeerSecurityType) (s : PeerRxTids)

/-- A key may be installed for a peer that is known, in no doubt and has its
queues. -/
def PeerRxTids.Takes : Prop :=
  ¬ (∀ peer ∈ s.security, peer.key ≠ key) ∧ ¬ (key ∈ s.uncertainSecurity ∨ key ∈ s.tearingDown) ∧
    (pairwise → ∀ tid ∈ allTids, s.isActive key tid)

/-- The updates of the replay counters that a key needs. -/
def replayUpdates : Outcome PeerRxTids Empty DpError Unit :=
  if pairwise then configurePn P key allTids s else ⟨.ok (), s, []⟩

/-- A key is published once all updates went well; after one that failed the
peer is in doubt. -/
theorem installPeerKey_ends :
    let o := installPeerKey P key pairwise keyIndex securityType s
    let updates := replayUpdates P key pairwise s
    (¬ s.Takes key pairwise ∧ o.result = .error .wrongState ∧ o.state = s) ∨
      s.Takes key pairwise ∧
        ((∃ e, updates.result = .error e ∧ o.result = .error e ∧ o.state = { updates.state with
            uncertainSecurity := updates.state.uncertainSecurity ++ [key] }) ∨
          updates.result = .ok () ∧ o.result = .ok () ∧ o.state = { updates.state with
            security := keyed key pairwise keyIndex securityType updates.state.security }) := by
  dsimp only
  rw [installPeerKey, Eff.look_bind]
  split
  next h => exact .inl ⟨fun htakes => htakes.1 h, rfl, rfl⟩
  next hknown =>
  split
  next h => exact .inl ⟨fun htakes => htakes.2.1 h, rfl, rfl⟩
  next hsure =>
  cases pairwise with
  | false => exact .inr ⟨⟨hknown, hsure, nofun⟩, .inr ⟨rfl, rfl, rfl⟩⟩
  | true =>
    rw [if_pos rfl, Eff.bind_apply, enablePnCheck, Eff.look_bind]
    by_cases hact : ∀ tid ∈ allTids, s.isActive key tid
    · rw [if_pos hact, Eff.bind_apply, Eff.attempt_apply]
      refine .inr ⟨⟨hknown, hsure, fun _ => hact⟩, ?_⟩
      rw [replayUpdates, if_pos rfl]
      cases (configurePn P key allTids s).result with
      | ok => exact .inr ⟨rfl, rfl, rfl⟩
      | error e => exact .inl ⟨e, rfl, rfl, rfl⟩
    · rw [if_neg hact]
      exact .inl ⟨fun htakes => hact (htakes.2.2 rfl), rfl, rfl⟩

theorem installPeerKey_cases :
    ∃ s', ReflTransGen Command s s' ∧ attempts s'.trace ≤ attempts s.trace + allTids.length ∧
      Keying s' (installPeerKey P key pairwise keyIndex securityType s).state := by
  have hupd : ReflTransGen Command s (replayUpdates P key pairwise s).state ∧
      attempts (replayUpdates P key pairwise s).state.trace ≤
        attempts s.trace + allTids.length := by
    cases pairwise with
    | false => exact ⟨.refl, Nat.le_add_right ..⟩
    | true => exact configurePn_commands P key allTids s
  obtain ⟨-, -, hst⟩ | ⟨-, ⟨e, -, -, hst⟩ | ⟨-, -, hst⟩⟩ :=
    installPeerKey_ends P key pairwise keyIndex securityType s
  · rw [hst]
    exact ⟨s, .refl, Nat.le_add_right .., .refused⟩
  · rw [hst]
    exact ⟨_, hupd.1, hupd.2, .doubted _⟩
  · rw [hst]
    exact ⟨_, hupd.1, hupd.2, .installed key pairwise keyIndex securityType⟩

end

/-! ## Teardown -/

/-- A peer's fragments dropped, their links kept for it. -/
def PeerRxTids.gathered (key : PeerKey) (tid : Option UInt8) (s : PeerRxTids) : PeerRxTids :=
  (queueFragmentCleanup key tid s).state

/-- Deleting some TIDs of a peer and dropping their fragments. -/
inductive Purge (key : PeerKey) : List UInt8 → PeerRxTids → PeerRxTids → Prop
  | nil (s : PeerRxTids) : Purge key [] s s
  | cons {tid : UInt8} {rest : List UInt8} {s s' s'' : PeerRxTids} :
    Deletion key tid s s' → Purge key rest (s'.gathered key (some tid)) s'' →
    Purge key (tid :: rest) s s''

theorem cleanupTids_purge (P : Platform) (key : PeerKey) (tids : List UInt8) (s : PeerRxTids) :
    ∃ error s', Purge key tids s s' ∧ cleanupTids P key tids s = ⟨.ok error, s', []⟩ := by
  induction tids generalizing s with
  | nil => exact ⟨none, s, .nil s, rfl⟩
  | cons tid rest ih =>
    have hdel := peerRxTidDelete_deletion (P := P) key tid s
    have hcs : (peerRxTidDelete P key tid s).calls = [] :=
      eq_nil_iff_forall_not_mem.mpr fun c => c.elim
    generalize hrun : peerRxTidDelete P key tid s = o at hdel hcs
    obtain ⟨result, s', calls⟩ := o
    subst hcs
    obtain ⟨error, s'', hpurge, hr⟩ := ih (s'.gathered key (some tid))
    rw [cleanupTids, Eff.bind_attempt hrun,
      Eff.bind_of_silent (t := s'.gathered key (some tid)) rfl, Eff.bind_of_silent hr]
    cases result with
    | ok => exact ⟨error, s'', .cons hdel hpurge, rfl⟩
    | error e => exact ⟨some e, s'', .cons hdel hpurge, rfl⟩

/-- A peer in teardown, closed to new queues. -/
def PeerRxTids.torn (key : PeerKey) (s : PeerRxTids) : PeerRxTids :=
  { s with
    tearingDown := if key ∈ s.tearingDown then s.tearingDown else s.tearingDown ++ [key]
    peers := s.peers.filter fun peer => peer ≠ key }

theorem peerRxTidCleanup_cases (P : Platform) (key : PeerKey) (s : PeerRxTids) :
    ∃ s', Purge key allTids (s.torn key) s' ∧ (peerRxTidCleanup P key s).state = s'.retire key := by
  obtain ⟨error, s', hpurge, hrun⟩ := cleanupTids_purge P key allTids (s.torn key)
  refine ⟨s', hpurge, ?_⟩
  rw [peerRxTidCleanup, Eff.bind_of_silent (t := s.torn key) rfl,
    Eff.bind_of_silent hrun, tryRetireTeardown, Eff.modify_bind]
  cases error <;> rfl

/-! ## Any operation -/

/-- A change of the queues without a setup or a status. -/
inductive Move (s : PeerRxTids) : PeerRxTids → Prop
  | deletion {key : PeerKey} {tid : UInt8} {s' : PeerRxTids} : Deletion key tid s s' → Move s s'
  | flush {s' : PeerRxTids} : Flush s s' → Move s s'
  | command {s' : PeerRxTids} : Command s s' → Move s s'
  | same {s' : PeerRxTids} : SameQueues s s' → Move s s'

variable {s s' : PeerRxTids}

theorem Registration.sameQueues {key : PeerKey} (h : Registration key s s') : SameQueues s s' := by
  cases h <;> exact { refl s with }

theorem Mapping.sameQueues {map : PeerMap} (h : Mapping map s s') : SameQueues s s' := by
  cases h with
  | refused => exact .refl s
  | mapped _ _ hreg => exact { hreg.sameQueues with }

theorem Unmapping.sameQueues (h : Unmapping s s') : SameQueues s s' := by
  cases h with
  | refused => exact .refl s
  | unmapped => exact retire _ { refl s with }

theorem Keying.sameQueues (h : Keying s s') : SameQueues s s' := by
  cases h <;> exact { refl s with }

theorem takePendingFragmentLinkReturns_sameQueues (s : PeerRxTids) :
    SameQueues s (takePendingFragmentLinkReturns key s).state := by
  obtain ⟨links, kept, hrun, -, -, -⟩ := takePendingFragmentLinkReturns_links key s
  rw [hrun]
  exact retire key { refl s with }

theorem rxFragHMpdu_sameQueues (input : FragmentInput) (nowMs : UInt64) (s : PeerRxTids) :
    SameQueues s (rxFragHMpdu input nowMs s).state := by
  obtain ⟨outcome, fragments, hrun, -, -⟩ := rxFragHMpdu_passes input nowMs s
  rw [hrun]
  exact { refl s with }

theorem Purge.moves {key : PeerKey} {tids : List UInt8}
    (h : Purge key tids s s') : ReflTransGen Move s s' := by
  induction h with
  | nil => exact .refl
  | @cons tid _ _ s' _ hdel _ ih =>
    have hgath : SameQueues s' (s'.gathered key (some tid)) := { refl s' with }
    exact .head (.deletion hdel) (.head (.same hgath) ih)

/-- The statuses that an operation is given. -/
def Op.statuses : Op → List ReoStatus
  | .rxTidDelFunc ring _ => ring.statuses
  | _ => []

/-- An operation sets up a queue, or delivers statuses and then makes
moves. -/
theorem exec_cases (P : Platform) (op : Op) (s : PeerRxTids) :
    Admission s (op.exec P s).state ∨
    ∃ s', ReflTransGen (Delivers op.statuses) s s' ∧ ReflTransGen Move s' (op.exec P s).state := by
  -- every operation but the poll delivers nothing
  have hquiet : ∀ {s' : PeerRxTids}, ReflTransGen Move s s' → Admission s s' ∨
      ∃ s₁, ReflTransGen (Delivers op.statuses) s s₁ ∧ ReflTransGen Move s₁ s' :=
    fun h => .inr ⟨s, .refl, h⟩
  cases op with
  | registerPeerAfterFirmwareCreate =>
    exact hquiet (.single (.same (register_registration ..).sameQueues))
  | registerPeerMap => exact hquiet (.single (.same (registerPeerMap_mapping ..).sameQueues))
  | unregisterPeerMap => exact hquiet (.single (.same (unregisterPeerMap_unmapping ..).sameQueues))
  | installPeerKey key pairwise keyIndex securityType =>
    obtain ⟨s', hcmds, -, hkey⟩ := installPeerKey_cases P key pairwise keyIndex securityType s
    exact hquiet ((ReflTransGen.mono (fun _ _ => .command) _ _ hcmds).tail (.same hkey.sameQueues))
  | rxAmpduStart => exact .inl (rxAmpduStart_admission ..)
  | rxAmpduStop => exact .inl (rxAmpduStop_admission ..)
  | peerRxTidSetup => exact .inl (peerRxTidSetup_admission ..)
  | peerRxTidDelete => exact hquiet (.single (.deletion (peerRxTidDelete_deletion ..)))
  | peerRxTidCleanup key =>
    obtain ⟨s', hpurge, hst⟩ := peerRxTidCleanup_cases P key s
    apply hquiet
    rw [show ((Op.peerRxTidCleanup key).exec P s).state = _ from hst]
    have htorn : SameQueues s (s.torn key) := { refl s with }
    exact .head (.same htorn) (hpurge.moves.tail (.same (retire_sameQueues key s')))
  | peerFragsFlush key | expireIncompleteFragments nowMs =>
    exact hquiet (.single (.same { refl s with }))
  | takePendingFragmentLinkReturns key =>
    exact hquiet (.single (.same (takePendingFragmentLinkReturns_sameQueues key s)))
  | rxFragHMpdu input nowMs => exact hquiet (.single (.same (rxFragHMpdu_sameQueues input nowMs s)))
  | rxTidDelFunc ring nowMs =>
    obtain ⟨s', hdlvs, hflush⟩ := rxTidDelFunc_cases P ring nowMs s
    exact .inr ⟨s', hdlvs, ReflTransGen.mono (fun _ _ => .flush) _ _ hflush⟩
  | flushAged nowMs =>
    exact hquiet (ReflTransGen.mono (fun _ _ => .flush) _ _ (flushAged_flushes P nowMs s))

variable {I : PeerRxTids → Prop} {r : PeerRxTids → PeerRxTids → Prop}

theorem moves_keep (hmove : ∀ s s', r s s' → I s → I s') (h : ReflTransGen r s s') (hs : I s) :
    I s' := by
  induction h with
  | refl => exact hs
  | tail _ hl ih => exact hmove _ _ hl ih

/-- What every setup, delivery and move keeps, an operation keeps. -/
theorem exec_keeps (hadmis : ∀ s s', Admission s s' → I s → I s')
    (hdlv : ∀ status s s', Delivery status s s' → I s → I s')
    (hmove : ∀ s s', Move s s' → I s → I s') (op : Op) (hs : I s) : I (op.exec P s).state := by
  rcases exec_cases P op s with hadm | ⟨s', hdlvs, hmoves⟩
  · exact hadmis _ _ hadm hs
  · exact moves_keep hmove hmoves
      (moves_keep (fun _ _ ⟨status, _, h⟩ => hdlv status _ _ h) hdlvs hs)

/-! ## Operations on queues -/

/-- The operations on queues alone. -/
def Op.Queues : Op → Prop
  | .rxAmpduStart .. | .rxAmpduStop .. | .peerRxTidSetup .. | .peerRxTidDelete ..
  | .rxTidDelFunc .. | .flushAged _ => True
  | _ => False

/-- A change of the queues. -/
inductive Queueing (s : PeerRxTids) : PeerRxTids → Prop
  | admission {s' : PeerRxTids} : Admission s s' → Queueing s s'
  | delivery {status : ReoStatus} {s' : PeerRxTids} : Delivery status s s' → Queueing s s'
  | deletion {key : PeerKey} {tid : UInt8} {s' : PeerRxTids} : Deletion key tid s s' →
    Queueing s s'
  | flush {s' : PeerRxTids} : Flush s s' → Queueing s s'
  | command {s' : PeerRxTids} : Command s s' → Queueing s s'

theorem exec_queueing (P : Platform) (op : Op) (s : PeerRxTids) (hop : op.Queues) :
    ReflTransGen Queueing s (op.exec P s).state := by
  cases op with
  | rxAmpduStart => exact .single (.admission (rxAmpduStart_admission ..))
  | rxAmpduStop => exact .single (.admission (rxAmpduStop_admission ..))
  | peerRxTidSetup => exact .single (.admission (peerRxTidSetup_admission ..))
  | peerRxTidDelete => exact .single (.deletion (peerRxTidDelete_deletion ..))
  | rxTidDelFunc ring nowMs =>
    obtain ⟨s', hdlvs, hflush⟩ := rxTidDelFunc_cases P ring nowMs s
    exact (ReflTransGen.mono (fun _ _ ⟨_, _, h⟩ => .delivery h) _ _ hdlvs).trans
      (ReflTransGen.mono (fun _ _ => .flush) _ _ hflush)
  | flushAged nowMs =>
    exact ReflTransGen.mono (fun _ _ => .flush) _ _ (flushAged_flushes P nowMs s)
  | _ => exact hop.elim

/-- The peers, their fragments and their links are as they were. -/
structure SamePeers (s s' : PeerRxTids) : Prop where
  peers : s'.peers = s.peers
  tearingDown : s'.tearingDown = s.tearingDown
  security : s'.security = s.security
  fragments : s'.fragments = s.fragments
  pendingFragmentLinks : s'.pendingFragmentLinks = s.pendingFragmentLinks

theorem Admission.samePeers (h : Admission s s') : SamePeers s s' := by
  cases h <;> exact ⟨rfl, rfl, rfl, rfl, rfl⟩

theorem Deletion.samePeers {key : PeerKey} {tid : UInt8} (h : Deletion key tid s s') :
    SamePeers s s' := by
  cases h <;> exact ⟨rfl, rfl, rfl, rfl, rfl⟩

/-- Of the peers, a change of the queues can only end a teardown. -/
theorem queueings_frame [IsPreorder PeerRxTids r] (hsame : ∀ {s s'}, SamePeers s s' → r s s')
    (hretire : ∀ key s, r s (retire key s)) (h : ReflTransGen Queueing s s') : r s s' := by
  refine moves_keep (fun s₁ s₂ hq hr => trans_of r hr ?_) h (refl_of r s)
  cases hq with
  | admission h => exact hsame h.samePeers
  | deletion h => exact hsame h.samePeers
  | delivery h | flush h | command h =>
    cases h <;> first
      | exact hsame ⟨rfl, rfl, rfl, rfl, rfl⟩
      | (refine trans_of r (hsame ?_) (hretire _ _); exact ⟨rfl, rfl, rfl, rfl, rfl⟩)

/-! ## Runs -/

/-- What every operation keeps holds around every step of a run. -/
theorem run_induct
    (hexec : ∀ (op : Op) (s : PeerRxTids), I s → I (op.exec P s).state) (ops : List Op) (hs : I s) :
    (∀ step ∈ (s.run P ops).1, I step.before ∧
      step.result = (step.op.exec P step.before).result ∧
      step.after = (step.op.exec P step.before).state) ∧ I (s.run P ops).2 := by
  induction ops generalizing s with
  | nil => exact ⟨fun step hstep => absurd hstep not_mem_nil, hs⟩
  | cons op rest ih =>
    obtain ⟨hsteps, hl⟩ := ih (hexec op s hs)
    exact ⟨forall_mem_cons.mpr ⟨⟨hs, rfl, rfl⟩, hsteps⟩, hl⟩

end Drv.Ath11k
