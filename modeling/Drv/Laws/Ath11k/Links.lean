import Drv.Laws.Ath11k.Operations

/-!
# Fragment links are conserved

Every link handed in with a fragment is handed back once, or is still
held: over a whole run, what went in is what came out together with what
is kept with collected fragments and for peers (`fragment_links_conserved`).

When a link that is held is handed back is not bounded.
-/

namespace Drv.Ath11k

open Relation (ReflTransGen)
open List PeerRxTids

variable {P : Platform}

/-- The collected fragments and the links kept for peers are as they were. -/
def SameLinks (s s' : PeerRxTids) : Prop :=
  s'.fragments = s.fragments ∧ s'.pendingFragmentLinks = s.pendingFragmentLinks

instance : IsPreorder PeerRxTids SameLinks where
  refl _ := ⟨rfl, rfl⟩
  trans _ _ _ h h' := ⟨h'.1.trans h.1, h'.2.trans h.2⟩

theorem retire_sameLinks (key : PeerKey) (s : PeerRxTids) : SameLinks s (retire key s) := by
  obtain ⟨tearingDown, h⟩ := retire_eq key s
  rw [h]
  exact ⟨rfl, rfl⟩

/-! ## The queues have nothing to do with links -/

section Queues
variable {s s' : PeerRxTids}

theorem SamePeers.sameLinks (h : SamePeers s s') : SameLinks s s' :=
  ⟨h.fragments, h.pendingFragmentLinks⟩

theorem queueings_sameLinks (h : ReflTransGen Queueing s s') : SameLinks s s' :=
  queueings_frame SamePeers.sameLinks retire_sameLinks h

theorem Registration.sameLinks {key : PeerKey} (h : Registration key s s') : SameLinks s s' := by
  cases h <;> exact ⟨rfl, rfl⟩

theorem Mapping.sameLinks {map : PeerMap} (h : Mapping map s s') : SameLinks s s' := by
  cases h with
  | refused => exact ⟨rfl, rfl⟩
  | mapped _ _ hreg => exact hreg.sameLinks

theorem Unmapping.sameLinks (h : Unmapping s s') : SameLinks s s' := by
  cases h with
  | refused => exact ⟨rfl, rfl⟩
  | unmapped => exact retire_sameLinks ..

theorem Keying.sameLinks (h : Keying s s') : SameLinks s s' := by
  cases h <;> exact ⟨rfl, rfl⟩

end Queues

/-! ## One operation -/

namespace Op

/-- The links that an operation is given. -/
def linksIn : Op → List FragmentLinkDescriptor
  | rxFragHMpdu input _ => [input.linkDescriptor]
  | _ => []

/-- The links that an operation hands back. -/
def linksOut : (op : Op) → Except DpError op.Ret → List FragmentLinkDescriptor
  | rxFragHMpdu .., .ok outcome => outcome.links
  | takePendingFragmentLinkReturns _, .ok links => links
  | expireIncompleteFragments _, .ok links => links
  | _, _ => []

end Op

/-- No link is lost or handed back twice. -/
def Conserves (op : Op) (s : PeerRxTids) (o : Outcome PeerRxTids Empty DpError op.Ret) : Prop :=
  (op.linksOut o.result ++ o.state.links).Perm (op.linksIn ++ s.links) ∧ Marked o.state.fragments

theorem conserves_of_sameLinks (op : Op) {s : PeerRxTids} (hmark : Marked s.fragments)
    (hin : op.linksIn = []) (hout : ∀ result, op.linksOut result = [])
    (h : SameLinks s (op.exec P s).state) : Conserves op s (op.exec P s) := by
  obtain ⟨hfrags, hlinks⟩ := h
  refine ⟨?_, by rw [hfrags]; exact hmark⟩
  rw [hin, hout, links, hfrags, hlinks]
  exact .refl _

theorem Purge.links {key : PeerKey} {tids : List UInt8} {s s' : PeerRxTids}
    (h : Purge key tids s s') (hmark : Marked s.fragments) :
    s'.links.Perm s.links ∧ Marked s'.fragments := by
  induction h with
  | nil => exact ⟨.refl _, hmark⟩
  | @cons tid _ s s' _ hdel _ ih =>
    obtain ⟨hfrags, hlinks⟩ := hdel.samePeers.sameLinks
    have hsame : s'.links = s.links := by rw [PeerRxTids.links, hfrags, hlinks]; rfl
    rw [← hfrags] at hmark
    obtain ⟨hp, hl⟩ := ih (queueFragmentCleanup_marked hmark)
    refine ⟨?_, hl⟩
    rw [← hsame]
    exact hp.trans (queueFragmentCleanup_links key (some tid) s')

theorem exec_conserves (op : Op) (s : PeerRxTids) (hmark : Marked s.fragments) :
    Conserves op s (op.exec P s) := by
  -- where no link goes in or out, nothing about links changes
  have hsame := conserves_of_sameLinks (P := P) op hmark
  have hqueues := exec_queueing P op s
  cases op with
  | registerPeerAfterFirmwareCreate =>
    exact hsame rfl (fun _ => rfl) (register_registration ..).sameLinks
  | registerPeerMap => exact hsame rfl (fun _ => rfl) (registerPeerMap_mapping ..).sameLinks
  | unregisterPeerMap => exact hsame rfl (fun _ => rfl) (unregisterPeerMap_unmapping ..).sameLinks
  | installPeerKey key pairwise keyIndex securityType =>
    obtain ⟨s', hcmds, -, hkey⟩ := installPeerKey_cases P key pairwise keyIndex securityType s
    have hlinks := queueings_sameLinks (ReflTransGen.mono (fun _ _ => .command) _ _ hcmds)
    exact hsame rfl (fun _ => rfl) (trans_of SameLinks hlinks hkey.sameLinks)
  | peerRxTidCleanup key =>
    obtain ⟨s', hpurge, hst⟩ := peerRxTidCleanup_cases P key s
    obtain ⟨hp, hl⟩ := hpurge.links hmark
    obtain ⟨hfrags, hlinks⟩ := retire_sameLinks key s'
    rw [Op.exec]
    generalize peerRxTidCleanup P key s = o at hst ⊢
    show o.state.links.Perm s.links ∧ Marked o.state.fragments
    rw [hst, links, hfrags, hlinks]
    exact ⟨hp, hl⟩
  | peerFragsFlush key =>
    exact ⟨queueFragmentCleanup_links key none s, queueFragmentCleanup_marked hmark⟩
  | takePendingFragmentLinkReturns key =>
    obtain ⟨links, kept, hrun, hp, -, -⟩ := takePendingFragmentLinkReturns_links key s
    obtain ⟨hfrags, hlinks⟩ := retire_sameLinks key { s with pendingFragmentLinks := kept }
    rw [Op.exec, hrun]
    refine ⟨?_, by rw [hfrags]; exact hmark⟩
    rw [PeerRxTids.links, hfrags, hlinks]
    exact (perm_append_comm_assoc ..).trans (hp.append_left _)
  | rxFragHMpdu input nowMs =>
    obtain ⟨outcome, fragments, hrun, hpass, -⟩ := rxFragHMpdu_passes input nowMs s
    rw [Op.exec, hrun]
    refine ⟨?_, hpass.marked hmark⟩
    show (outcome.links ++ (heldLinks fragments ++ _)).Perm
      ([input.linkDescriptor] ++ (heldLinks s.fragments ++ _))
    rw [← append_assoc, ← append_assoc]
    exact (hpass.links hmark).append_right _
  | expireIncompleteFragments nowMs =>
    obtain ⟨links, fragments, hrun, hp, hsub⟩ := expireIncompleteFragments_links nowMs s
    rw [Op.exec, hrun]
    refine ⟨?_, fun state hst => hmark state (hsub hst)⟩
    show (links ++ (heldLinks fragments ++ _)).Perm (heldLinks s.fragments ++ _)
    rw [← append_assoc]
    exact hp.append_right _
  | _ => exact hsame rfl (fun _ => rfl) (queueings_sameLinks (hqueues trivial))

/-! ## Whole runs -/

def Step.linksIn (step : Step) : List FragmentLinkDescriptor := step.op.linksIn

def Step.linksOut (step : Step) : List FragmentLinkDescriptor := step.op.linksOut step.result

theorem run_conserves (ops : List Op) (s : PeerRxTids) (hmark : Marked s.fragments) :
    ((s.run P ops).1.flatMap Step.linksOut ++ (s.run P ops).2.links).Perm
      ((s.run P ops).1.flatMap Step.linksIn ++ s.links) := by
  induction ops generalizing s with
  | nil => exact .refl _
  | cons op rest ih =>
    obtain ⟨hstep, hnx⟩ := exec_conserves op s hmark
    have hr := ih (op.exec P s).state hnx
    show (op.linksOut (op.exec P s).result ++ ((op.exec P s).state.run P rest).1.flatMap _ ++
      ((op.exec P s).state.run P rest).2.links).Perm
      (op.linksIn ++ ((op.exec P s).state.run P rest).1.flatMap _ ++ s.links)
    generalize ((op.exec P s).state.run P rest).1.flatMap Step.linksOut = out at hr ⊢
    generalize ((op.exec P s).state.run P rest).1.flatMap Step.linksIn = given at hr ⊢
    calc op.linksOut (op.exec P s).result ++ out ++ _
        _ |>.Perm (op.linksOut (op.exec P s).result ++ (given ++ (op.exec P s).state.links)) := by
          rw [append_assoc]
          exact hr.append_left _
        _ |>.Perm (given ++ (op.linksOut (op.exec P s).result ++ (op.exec P s).state.links)) :=
          perm_append_comm_assoc ..
        _ |>.Perm (given ++ (op.linksIn ++ s.links)) := hstep.append_left given
        _ |>.Perm (op.linksIn ++ given ++ s.links) := by
          rw [append_assoc]
          exact perm_append_comm_assoc ..

/-- Over any run, the links handed in are the links handed back and those
still held, each as often. -/
theorem fragment_links_conserved (P : Platform) (ops : List Op) :
    let steps := (new.run P ops).1
    let last := (new.run P ops).2
    (steps.flatMap Step.linksIn : Multiset FragmentLinkDescriptor) =
      steps.flatMap Step.linksOut + last.fragments.filterMap FragmentState.firstLink +
        last.pendingFragmentLinks.map PendingFragmentLink.link := by
  intro steps last
  have hrun := run_conserves (P := P) ops new (fun state hst => nomatch hst)
  have hnew : new.links = [] := rfl
  rw [hnew, append_nil] at hrun
  rw [Multiset.coe_add, Multiset.coe_add, Multiset.coe_eq_coe, append_assoc]
  exact hrun.symm

end Drv.Ath11k
