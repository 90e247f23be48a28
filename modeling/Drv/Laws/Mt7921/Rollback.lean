import Drv.Laws.Mt7921.Footprint
import Drv.Laws.Mt7921.Port

/-!
# Everything that may be held is recorded

An association records its BSS before it submits it, and takes back or
keeps recorded what a failure may have left. Two operations have a failure
after which something is not recorded (`Submitted.slip`): the BSS of a
peer before authentication is recorded only once it was acknowledged and
its station only at the end, and the receive filter only once it was
published.

In a run without these failures everything stays recorded, and a teardown
that succeeds leaves nothing (`footprint_recorded`); each of them is
enough to lose something (`footprint_lost`).
-/

namespace Drv.Mt7921

open List ClientOp ClientFirmwareEffectsState

variable {τ : Type}
variable {x : Except String Unit → LoggingClient τ Unit} {E : String → ClientLog τ → Prop}
  {Q : Unit → ClientLog τ → Prop} {submission : Submission}

namespace Client

variable {L : ClientLink τ}

/-! ## Association -/

/-- The BSS of an association is being programmed. -/
structure Programming (association : LegacyWmeAssociation) (l : Ledger) (f : Footprint) : Prop where
  recorded : Recorded l f
  unassociated : l.association = none
  peer : ∃ peer, l.preauthPeer = some peer ∧ peer.bssIndex = association.bssIndex ∧
    peer.peerWcid = association.peerWcid
  bssProgrammed : l.bssProgrammed = true
  bssBinding : l.bssBinding = some (association.bssIndex, association.negotiatedQos)

variable {association : LegacyWmeAssociation} {l : Ledger}

theorem Programming.held {f : Footprint} (h : Programming association l f) : Held l f :=
  ⟨h.recorded, .of_none h.unassociated⟩

theorem Programming.mono {f f' : Footprint} (h : Programming association l f') (hf : f.Within f') :
    Programming association l f :=
  { h with recorded := h.recorded.mono hf }

theorem submit_plain_on {p : Ledger → Footprint → Prop}
    (h : ∀ f ok, Footprint.submit f ok submission = f) :
    Leads (Of p) (submit L.logged submission) (Of p) := by
  refine submit_adds fun l f ok hp => ?_
  rw [h]
  exact hp

variable {joined : JoinedClientBss}

theorem attempt_on {y : LoggingClient τ Unit} {p c : Ledger → List Submitted → Prop}
    (hy : Triple (On p) y (fun _ => On fun l log => p l log ∧ c l log) (fun _ => On p))
    (h : ∀ rollback, Triple (On fun l log => p l log ∧ (rollback.isOk → c l log)) (x rollback)
      Q E) : Triple (On p) (y.attempt >>= x) Q E := by
  refine .attempt_bind hy (fun _ => ?_) fun e => ?_
  · exact .weaken_pre (h (.ok ())) fun _ h => ⟨h.1, fun _ => h.2⟩
  · exact .weaken_pre (h (.error e)) fun _ h => ⟨h, fun hok => (nomatch hok)⟩

theorem rollbackBss_on {c : List (UInt8 × UInt8) → Prop}
    (h : ∀ rollback, Triple (Of fun l f => (Programming association l f ∧ c f.stations) ∧
      (rollback.isOk → f.bsses = [])) (x rollback) Q E) :
    Triple (Of fun l f => Programming association l f ∧ c f.stations)
      (rollbackBss L.logged association joined >>= x) Q E := by
  refine attempt_on (sendBss_on (p := fun l f => Programming association l f ∧ c f.stations)
    (q := fun l f => (Programming association l f ∧ c f.stations) ∧ f.bsses = []) ?_) h
  rintro l f ⟨hprogr, hc⟩
  refine ⟨⟨hprogr.mono (f.withoutBss_within _), hc⟩, filter_ne_nil fun bss hbss => ?_⟩
  obtain ⟨-, qos, hbind⟩ := hprogr.recorded.bsses bss hbss
  cases hprogr.bssBinding.symm.trans hbind
  rfl

theorem rollbackWcid_on (h : ∀ rollback, Triple (Of fun l f => Programming association l f ∧
      (rollback.isOk → f.stations = [])) (x rollback) Q E) :
    Triple (Of (Programming association))
      ((sendRemoveWcid L.logged association.bssIndex association.peerWcid association.aid
        association.peer association.negotiatedQos).attempt >>= x) Q E := by
  refine attempt_on (sendRemoveWcid_on
    (q := fun l f => Programming association l f ∧ f.stations = []) ?_) h
  intro l f h
  refine ⟨h.mono (f.withoutStation_within _), filter_ne_nil fun station hsta => ?_⟩
  obtain ⟨peer, hpeer, rfl⟩ := h.recorded.stations station hsta
  obtain ⟨peer', hp', hidx, hwcid⟩ := h.peer
  cases hpeer.symm.trans hp'
  rw [hidx, hwcid]

theorem forgetBss {f : Footprint} (h : Recorded l f) (hbsses : f.bsses = []) :
    Recorded { l with bssProgrammed := false, bssBinding := none } f := by
  refine { h with bsses := fun bss hbss => ?_ }
  rw [hbsses] at hbss
  cases hbss

/-- After a failure the BSS is taken back and forgotten, or still recorded. -/
theorem unprogram_on {g : Except String Unit → Effects → Effects}
    {text : Except String Unit → String}
    (hg : ∀ rollback s, (g rollback s).ledger = if rollback.isOk then
      { s.ledger with bssProgrammed := false, bssBinding := none } else s.ledger) :
    Recovers (Programming association) (do
      let rollback ← rollbackBss L.logged association joined
      update (g rollback)
      Eff.fail (text rollback) : LoggingClient τ Unit) (Programming association) := by
  refine .weaken_pre (rollbackBss_on (c := fun _ => True) fun rollback => ?_)
    fun _ h => ⟨h, trivial⟩
  refine .bind (update_on ?_) fun _ => .fail fun _ h => h
  rintro s log ⟨⟨h, -⟩, hbsses⟩
  rw [hg]
  split
  next hok => exact ⟨forgetBss h.recorded (hbsses hok), .of_none h.unassociated⟩
  next => exact h.held

theorem associateBss_on {sequence : UInt8} {qos : Bool} :
    Recovers (Programming association)
      (associateBss L.logged association joined
        (.bss sequence association.bssIndex joined qos true)) (Programming association) := by
  have hadded : ∀ l f ok, Programming association l f → Programming association l
      (f.submit ok (.uni 2 (.bss sequence association.bssIndex joined qos true))) := by
    intro l f ok h
    refine { h with recorded := { h.recorded with
      bsses := forall_mem_cons.mpr ⟨?_, h.recorded.bsses⟩ } }
    exact ⟨h.bssProgrammed, association.negotiatedQos, h.bssBinding⟩
  refine .attempt_bind (submit_adds hadded) (fun _ => update_on fun _ _ h => h) fun error => ?_
  refine unprogram_on fun rollback s => ?_
  split <;> rfl

variable {channel : ClientChannelLease}

theorem associateRlm_on :
    Recovers (Programming association) (associateRlm L.logged association joined channel)
      (Programming association) := by
  refine sequenced_on (fun sequence rlm hrlm => ?_) fun _ _ h => Programming.held h
  obtain ⟨-, ⟨⟩⟩ := guard_eq_ok.mp hrlm
  refine beside_on (fun _ => rfl) ?_
  refine .attempt_bind (submit_plain_on fun _ _ => rfl)
    (fun _ => update_on fun _ _ h => h) fun error => ?_
  refine unprogram_on fun rollback s => ?_
  split <;> rfl

theorem associateBoundary_on :
    Recovers (Programming association) (associateBoundary L.logged association joined)
      (Programming association) := by
  refine .attempt_bind (submit_plain_on fun _ _ => rfl)
    (fun _ => .pure fun _ h => h) fun error => ?_
  refine unprogram_on fun rollback s => ?_
  split <;> rfl

theorem encodeLegacyWmeAddWcidCommand_addWcid {sequence band : UInt8} {command : ClientCommand}
    (h : encodeLegacyWmeAddWcidCommand sequence association band = .ok command) :
    command = .addWcid sequence association band := by
  unfold encodeLegacyWmeAddWcidCommand at h
  repeat' split at h
  all_goals first | (cases h; rfl) | cases h

theorem forgetPreauth_on (rollback : Except String Unit) :
    Recovers (fun l f => (Recorded l f ∧ l.association = none) ∧ (rollback.isOk → f.stations = []))
      (forgetPreauth association rollback : LoggingClient τ Unit) Held := by
  cases rollback with
  | error => exact .pure fun s h => ⟨h.1.1, .of_none h.1.2⟩
  | ok =>
    refine .bind (update_on ?_) fun _ => same_on (release_ledger _)
    rintro s log ⟨⟨h, hassoc⟩, hstas⟩
    refine ⟨{ h with stations := fun station hsta => ?_ }, .of_none hassoc⟩
    rw [hstas rfl] at hsta
    cases hsta

theorem associateStation_on :
    Recovers (Programming association) (associateStation L.logged association joined channel)
      Held := by
  have hadded : ∀ sequence band l f ok, Programming association l f → Programming association l
      (f.submit ok (.uni 3 (.addWcid sequence association band))) := by
    intro sequence band l f ok h
    refine { h with recorded := { h.recorded with
      stations := forall_mem_cons.mpr ⟨?_, h.recorded.stations⟩ } }
    obtain ⟨peer, hpeer, hidx, hwcid⟩ := h.peer
    exact ⟨peer, hpeer, by rw [hidx, hwcid]⟩
  refine sequenced_on (fun sequence command hcmd => ?_) fun _ _ h => Programming.held h
  rw [encodeLegacyWmeAddWcidCommand_addWcid hcmd]
  refine .attempt_bind (submit_adds (hadded _ _)) (fun _ => update_on ?_) fun error => ?_
  · intro s log h
    refine ⟨{ h.recorded with keys := fun key hkey => ?_ }, ?_⟩
    · -- there was no association, so there is no key
      obtain ⟨other, hother, -⟩ := h.recorded.keys key hkey
      cases h.unassociated.symm.trans hother
    · rintro _ ⟨⟩
      exact ⟨h.peer, h.bssProgrammed, _, h.bssBinding⟩
  · refine beside_on (fun _ => rfl) (rollbackWcid_on fun rollbackWcid => ?_)
    refine rollbackBss_on (c := fun stations => rollbackWcid.isOk → stations = [])
      fun rollback => ?_
    refine .bind (R := fun _ => Of fun l f => (Recorded l f ∧ l.association = none) ∧
      (rollbackWcid.isOk → f.stations = [])) (update_on ?_) fun _ => ?_
    · rintro s log ⟨⟨h, hstas⟩, hbsses⟩
      split
      next hok => exact ⟨⟨forgetBss h.recorded (hbsses hok), h.unassociated⟩, hstas⟩
      next =>
        have hsame : { s with bssProgrammed := true }.ledger = s.ledger := by
          have hprog : s.bssProgrammed = true := h.bssProgrammed
          simp only [ledger, hprog]
        rw [hsame]
        exact ⟨⟨h.recorded, h.unassociated⟩, hstas⟩
    · exact .bind (forgetPreauth_on rollbackWcid) fun _ =>
        beside_on (fun _ => rfl) (.fail fun _ h => h)

theorem associate_on : Recovers Held (associate L.logged association channel) Held := by
  refine firmware_on fun state => ?_
  split
  next => exact .fail fun _ h => h.1
  next joined _ =>
    split
    next => exact .fail fun _ h => h.1
    next peer hpeer =>
      obtain ⟨hpeer, hmatch⟩ := Option.filter_eq_some_iff.mp hpeer
      simp only [decide_eq_true_eq] at hmatch
      refine .ite (fun _ => .fail fun _ h => h.1) fun hclean => ?_
      push Not at hclean
      obtain ⟨hassoc, hprog, hbind, -⟩ := hclean
      refine sequenced_on (fun sequence bss hbss => ?_) fun _ _ h => h.1
      obtain ⟨-, ⟨⟩⟩ := guard_eq_ok.mp hbss
      refine .bind (update_on ?_) fun _ =>
        Triple.bind associateBss_on fun _ => .bind associateRlm_on fun _ =>
          Triple.bind associateBoundary_on fun _ => associateStation_on
      rintro s log ⟨h, hled⟩
      have hunass : s.association = none := by
        have hsame : s.association = state.association := congrArg Ledger.association hled
        rw [hsame]
        simpa using hassoc
      have hpre : s.preauthPeer = some peer := (congrArg Ledger.preauthPeer hled).trans hpeer
      have hbound : s.bssBinding = some (association.bssIndex, false) :=
        (congrArg Ledger.bssBinding hled).trans hbind
      refine ⟨{ h.recorded with bsses := fun bss hbss => ?_ },
        hunass, ⟨peer, hpre, hmatch.1, hmatch.2.1⟩, rfl, rfl⟩
      obtain ⟨-, qos, hbss⟩ := h.recorded.bsses bss hbss
      cases hbound.symm.trans hbss
      exact ⟨rfl, _, rfl⟩

end Client

/-! ## Failures after which something is not recorded -/

/-- A failed submission of the BSS before authentication, of the removal of
a station or of the receive filter. -/
def Submitted.slip : Submitted → Bool
  | ⟨.uni _ (.preauthBss ..), .error _⟩ | ⟨.uni _ (.removeWcid ..), .error _⟩
  | ⟨.ceNoAck (.rxFilterBitmap ..), .error _⟩ => true
  | _ => false

/-- One of them was made after the submissions in `base`. -/
def Slipped (base log : List Submitted) : Prop := ∃ more, log = base ++ more ∧ ∃ c ∈ more, c.slip

variable {base log : List Submitted}

theorem Slipped.push (hlog : base <+: log) {c : Submitted} (hc : c.slip) :
    Slipped base (log ++ [c]) := by
  obtain ⟨more, rfl⟩ := hlog
  exact ⟨more ++ [c], append_assoc .., c, by simp, hc⟩

theorem Slipped.grow {base log log' : List Submitted} (h : Slipped base log) (hlog : log <+: log') :
    Slipped base log' := by
  obtain ⟨more, rfl, c, hc, hslip⟩ := h
  obtain ⟨more', rfl⟩ := hlog
  exact ⟨more ++ more', append_assoc .., c, mem_append_left _ hc, hslip⟩

theorem Slipped.of_push (h : Slipped base log) (c : Submitted) : Slipped base (log ++ [c]) :=
  h.grow (prefix_append ..)

namespace Client

variable {L : ClientLink τ} {base : List Submitted}

/-- Everything is recorded, after the submissions in `base`. -/
abbrev HeldSince (base : List Submitted) (l : Ledger) (log : List Submitted) : Prop :=
  Held l (footprint log) ∧ base <+: log

/-- Everything is recorded, or there was a failure of these. -/
def HeldOr (base : List Submitted) (l : Ledger) (log : List Submitted) : Prop :=
  Held l (footprint log) ∨ Slipped base log

theorem completePostAssocInterface_on :
    Leads (On (HeldSince base)) (completePostAssocInterface L.logged) (On (HeldOr base)) := by
  have hplain {submission : Submission} (h : ∀ f ok, Footprint.submit f ok submission = f) :
      Triple (On (HeldSince base)) (submit L.logged submission) (fun _ => On (HeldSince base))
        (fun _ => On (HeldOr base)) := by
    refine submit_on ?_ ?_
    · rintro l log ⟨hheld, hbase⟩
      rw [HeldSince, footprint_push, h]
      exact ⟨hheld, hbase.trans (prefix_append ..)⟩
    · rintro l log e ⟨hheld, hbase⟩
      refine .inl ?_
      rw [footprint_push, h]
      exact hheld
  refine .look_any fun state => ?_
  split
  next => exact .fail fun _ h => .inl h.1
  next => exact .fail fun _ h => .inl h.1
  next association joined _ _ =>
    refine .guard (fun _ h => .inl h.1) ?_
    refine sequenced_on (fun sequence command hcmd => ?_) fun _ _ h => .inl h.1
    obtain ⟨-, ⟨⟩⟩ := guard_eq_ok.mp hcmd
    refine beside_on (fun _ => rfl) (.bind (hplain fun _ _ => rfl) fun _ => ?_)
    refine beside_on (fun _ => rfl) (sequenced_on (fun sequence power hpow => ?_)
      fun _ _ h => .inl h.1)
    obtain ⟨-, ⟨⟩⟩ := guard_eq_ok.mp hpow
    refine .bind (hplain fun _ _ => rfl) fun _ => sequenced_on (fun sequence rxFilter hfilt => ?_)
      fun _ _ h => .inl h.1
    obtain ⟨-, ⟨⟩⟩ := guard_eq_ok.mp hfilt
    refine .bind (submit_on (q := fun l log =>
      Held { l with rxFilterPublished := true } (footprint log)) ?_ ?_)
      fun _ => update_on fun _ _ h => .inl h
    · rintro l log ⟨h, -⟩
      rw [footprint_push]
      exact ⟨{ h.recorded with rxFilter := fun _ => rfl }, h.bound⟩
    · rintro l log e ⟨-, hbase⟩
      exact .inr (.push hbase rfl)

/-- What may be held while a peer is added before authentication. -/
structure Adding (peer : LegacyWmeAssociation) (l : Ledger) (f : Footprint) : Prop where
  stations : ∀ station ∈ f.stations, station = (peer.bssIndex, peer.peerWcid.get)
  bsses : ∀ bss ∈ f.bsses, l.bssProgrammed = true ∧ bss = peer.bssIndex
  bssBinding : l.bssProgrammed = true → l.bssBinding = some (peer.bssIndex, false)
  keys : f.keys = []
  rxFilter : f.rxFilter = true → l.rxFilterPublished = true
  association : l.association = none

variable {peer : LegacyWmeAssociation} {f : Footprint} {l : Ledger}
section
variable (h : Adding peer l f)
include h

theorem Adding.heldWith {preauthPeer : Option LegacyWmeAssociation} (hstas : ∀ station ∈ f.stations,
    ∃ peer, preauthPeer = some peer ∧ station = (peer.bssIndex, peer.peerWcid.get)) :
    Held { l with preauthPeer } f := by
  refine ⟨⟨hstas, fun bss hbss => ?_, fun key hkey => ?_, h.rxFilter⟩, .of_none h.association⟩
  · obtain ⟨hprog, rfl⟩ := h.bsses bss hbss
    exact ⟨hprog, false, h.bssBinding hprog⟩
  · rw [h.keys] at hkey
    cases hkey

theorem Adding.held (hstas : f.stations = []) : Held l f := h.heldWith (by simp [hstas])

end

/-- This, after the submissions in `base`, and something of the ledger. -/
abbrev AddingSince (peer : LegacyWmeAssociation) (base : List Submitted) (k : Ledger → Prop)
    (l : Ledger) (log : List Submitted) : Prop :=
  (Adding peer l (footprint log) ∧ base <+: log) ∧ k l

/-- The same, or there was a failure that is not recorded. -/
def AddingOr (peer : LegacyWmeAssociation) (base : List Submitted) (l : Ledger)
    (log : List Submitted) : Prop :=
  Adding peer l (footprint log) ∧ base <+: log ∨ Slipped base log

theorem submit_adding {k : Ledger → Prop}
    (h : ∀ l f ok, Adding peer l f → Adding peer l (f.submit ok submission)) :
    Triple (On (AddingSince peer base k)) (submit L.logged submission)
      (fun _ => On (AddingSince peer base k)) (fun _ => On (AddingOr peer base)) := by
  refine submit_on ?_ ?_
  · rintro l log ⟨⟨hadd, hbase⟩, hk⟩
    rw [AddingSince, footprint_push]
    exact ⟨⟨h l _ _ hadd, hbase.trans (prefix_append ..)⟩, hk⟩
  · rintro l log e ⟨⟨hadd, hbase⟩, -⟩
    refine .inl ⟨?_, hbase.trans (prefix_append ..)⟩
    rw [footprint_push]
    exact h l _ _ hadd

theorem addPreauthPeer_on {initial rlm command : ClientCommand} {sequence : UInt8}
    {bssid : MacAddress} {channel beaconInterval : UInt16}
    (hinit : ∀ f ok, Footprint.command f ok initial =
      { f with stations := (peer.bssIndex, peer.peerWcid.get) :: f.stations })
    (hrlm : ∀ f ok, Footprint.command f ok rlm = f) (hcmd : ∀ f ok, Footprint.command f ok command =
      { f with stations := (peer.bssIndex, peer.peerWcid.get) :: f.stations }) :
    Triple (On (AddingSince peer base (·.bssProgrammed = false)))
      (addPreauthPeer L.logged peer initial
        (.preauthBss sequence peer.bssIndex bssid channel beaconInterval) rlm command)
      (fun _ => On (AddingSince peer base fun _ => True)) (fun _ => On (AddingOr peer base)) := by
  have hsta {c : ClientCommand} (hc : ∀ f ok, Footprint.command f ok c =
      { f with stations := (peer.bssIndex, peer.peerWcid.get) :: f.stations }) :
      ∀ l f ok, Adding peer l f → Adding peer l (f.submit ok (.uni 3 c)) := by
    intro l f ok h
    show Adding peer l (f.command ok c)
    rw [hc]
    exact { h with stations := forall_mem_cons.mpr ⟨rfl, h.stations⟩ }
  refine .bind (submit_adding (hsta hinit)) fun _ => ?_
  refine .bind (submit_on (q := fun l log => AddingSince peer base (fun _ => True) { l with
      bssProgrammed := true, bssBinding := some (peer.bssIndex, false) } log) ?_ ?_) fun _ => ?_
  · rintro l log ⟨⟨h, hbase⟩, hunprog⟩
    rw [AddingSince, footprint_push]
    refine ⟨⟨{ h with bsses := fun bss hbss => ?_, bssBinding := fun _ => rfl },
      hbase.trans (prefix_append ..)⟩, trivial⟩
    rcases mem_cons.mp hbss with rfl | hbss
    · exact ⟨rfl, rfl⟩
    · cases hunprog.symm.trans (h.bsses bss hbss).1
  · rintro l log e ⟨⟨-, hbase⟩, -⟩
    exact .inr (.push hbase rfl)
  · refine .bind (R := fun _ => On (AddingSince peer base fun _ => True))
      (update_on fun _ _ h => h) fun _ => ?_
    refine .bind (submit_adding fun l f ok h => ?_) fun _ =>
      submit_adding (hsta hcmd)
    show Adding peer l (f.command ok rlm)
    rw [hrlm]
    exact h

/-- The station was taken back, or there was a failure of these. -/
def Unstationed (peer : LegacyWmeAssociation) (base : List Submitted) (l : Ledger)
    (log : List Submitted) : Prop :=
  Adding peer l (footprint log) ∧ (footprint log).stations = [] ∨ Slipped base log

theorem rollbackStation_on {address : MacAddress}
    (h : ∀ rollback, Triple (On (Unstationed peer base)) (x rollback) Q E) :
    Triple (On (AddingOr peer base))
      ((sendRemoveWcid L.logged peer.bssIndex peer.peerWcid 0 address false).attempt >>= x)
      Q E := by
  refine .attempt_bind (send_on (r := fun _ log => Slipped base log) ?_ ?_ ?_) (fun _ => h _)
    fun e => .weaken_pre (h _) fun _ h => .inr h
  · intro sequence command hcmd l log hadd
    obtain ⟨-, ⟨⟩⟩ := guard_eq_ok.mp hcmd
    rcases hadd with ⟨hadd, -⟩ | hslipp
    · refine .inl ?_
      rw [footprint_push]
      exact ⟨{ hadd with stations := fun other h => hadd.stations other (mem_filter.mp h).1 },
        filter_ne_nil hadd.stations⟩
    · exact .inr (hslipp.of_push _)
  · intro sequence command e hcmd l log hadd
    obtain ⟨-, ⟨⟩⟩ := guard_eq_ok.mp hcmd
    rcases hadd with ⟨-, hbase⟩ | hslipp
    · exact .push hbase rfl
    · exact hslipp.of_push _
  · intro sequence e hval href
    unfold encodeRemoveWcidCommand at href
    simp [hval] at href

variable {joined : JoinedClientBss}

theorem rollbackPreauthBss_on
    (h : ∀ rollback, Triple (On fun l log => Unstationed peer base l log ∧ (rollback.isOk → (footprint log).bsses = [] ∨ Slipped base log)) (x rollback) Q E)
    :
    Triple (On (Unstationed peer base))
      ((rollbackPreauthBss L.logged peer joined).attempt >>= x) Q E := by
  have hrollb : Triple (On (Unstationed peer base)) (rollbackPreauthBss L.logged peer joined)
      (fun _ => On fun l log => Unstationed peer base l log ∧
        ((footprint log).bsses = [] ∨ Slipped base log))
      (fun _ => On (Unstationed peer base)) := by
    refine firmware_on fun state => .ite (fun _ => ?_) fun hunprog => ?_
    · refine .and_left (P := On (Unstationed peer base)) ?_
      have hcmd {sequence : UInt8} {command : ClientCommand}
          (h : encodeClientBssCommand sequence peer.bssIndex joined false false = .ok command) :
          command = .bss sequence peer.bssIndex joined false false := by
        obtain ⟨-, ⟨⟩⟩ := guard_eq_ok.mp h
        rfl
      refine send_on (fun sequence command h l log hu => ?_)
        (fun sequence command e h l log hu => ?_)
        fun _ _ _ _ _ _ hu => hu
      · obtain rfl := hcmd h
        rcases hu with ⟨hadd, hstas⟩ | hslipp
        · rw [Unstationed, footprint_push]
          refine ⟨.inl ⟨{ hadd with bsses := fun other h => ?_ }, hstas⟩,
            .inl (filter_ne_nil fun bss hbss => (hadd.bsses bss hbss).2)⟩
          exact hadd.bsses other (mem_filter.mp h).1
        · exact ⟨.inr (hslipp.of_push _), .inr (hslipp.of_push _)⟩
      · obtain rfl := hcmd h
        rcases hu with hadd | hslipp
        · rw [Unstationed, footprint_push]
          exact .inl hadd
        · exact .inr (hslipp.of_push _)
    · refine .pure ?_
      rintro s ⟨hu, hled⟩
      refine ⟨hu, hu.imp (fun hadd => eq_nil_iff_forall_not_mem.mpr fun bss hbss => ?_) id⟩
      have hprog := (hadd.1.bsses bss hbss).1
      rw [hled] at hprog
      exact hunprog hprog
  exact attempt_on hrollb h

theorem rollbackPreauthPeer_on {error : String} :
    Leads (On (AddingOr peer base)) (rollbackPreauthPeer L.logged peer joined error)
      (On (HeldOr base)) := by
  refine rollbackStation_on fun rollback => rollbackPreauthBss_on fun rollbackBss => ?_
  refine beside_on (fun _ => rfl) (.bind (.ite (fun hok => ?_) fun _ => ?_)
    fun _ => .fail fun _ h => h)
  · refine .bind (update_on ?_) fun _ => same_on (release_ledger _)
    rintro s log ⟨⟨hadd, hstas⟩ | hslipp, hbsses⟩
    · refine (hbsses hok.2).imp (fun hbsses => ?_) id
      exact ⟨forgetBss (hadd.held hstas).recorded hbsses, Bound.of_none hadd.association⟩
    · exact .inr hslipp
  · refine .pure ?_
    rintro s ⟨hu, -⟩
    exact hu.imp (fun hadd => hadd.1.held hadd.2) id

/-- The BSS of a peer is recorded once it was acknowledged, and the peer at
the end. -/
theorem preparePreauthPeer_on {channel : ClientChannelLease} :
    Leads (On (HeldSince base)) (preparePreauthPeer L.logged peer channel) (On (HeldOr base)) := by
  refine firmware_on fun state => ?_
  split
  next => exact .fail fun _ h => .inl h.1.1
  next joined _ =>
    refine .ite (fun _ => .fail fun _ h => .inl h.1.1) fun hclean => ?_
    push Not at hclean
    obtain ⟨-, -, -, hassoc, hunprog, -⟩ := hclean
    cases hpre : state.preauthPeer with
    | some => exact .ite (fun _ => .pure fun _ h => .inl h.1.1) fun _ => .fail fun _ h => .inl h.1.1
    | none =>
      refine sequenced_on (fun sequence initial hinit => ?_) fun _ _ h => .inl h.1.1
      refine sequenced_on (fun sequence bss hbss => ?_) fun _ _ h => .inl h.1.1
      refine sequenced_on (fun sequence rlm hrlm => ?_) fun _ _ h => .inl h.1.1
      refine sequenced_on (fun sequence command hcmd => ?_) fun _ _ h => .inl h.1.1
      obtain ⟨-, ⟨⟩⟩ := guard_eq_ok.mp hinit
      obtain ⟨-, ⟨⟩⟩ := guard_eq_ok.mp hbss
      obtain ⟨-, ⟨⟩⟩ := guard_eq_ok.mp hcmd
      obtain ⟨-, ⟨⟩⟩ := guard_eq_ok.mp hrlm
      refine .bind (R := fun _ => On (AddingSince peer base (·.bssProgrammed = false)))
        (update_on ?_) fun _ => ?_
      · rintro s log ⟨⟨h, hbase⟩, hled⟩
        have hn : s.ledger.association = none := by
          rw [hled]
          exact Option.not_isSome_iff_eq_none.mp hassoc
        have hfalse : s.ledger.bssProgrammed = false := by
          rw [hled]
          exact Bool.eq_false_iff.mpr hunprog
        have hnopeer : s.ledger.preauthPeer = none := by
          rw [hled]
          exact hpre
        refine ⟨⟨⟨fun station hsta => ?_, fun bss hbss => ?_, fun hprog => ?_,
          eq_nil_iff_forall_not_mem.mpr fun key hkey => ?_, h.recorded.rxFilter, hn⟩, hbase⟩,
            hfalse⟩
        · obtain ⟨other, hother, -⟩ := h.recorded.stations station hsta
          cases hnopeer.symm.trans hother
        · cases hfalse.symm.trans (h.recorded.bsses bss hbss).1
        · cases hfalse.symm.trans hprog
        · obtain ⟨association, hsome, -⟩ := h.recorded.keys key hkey
          cases hn.symm.trans hsome
      · refine .attempt_bind (addPreauthPeer_on (fun _ _ => rfl) (fun _ _ => rfl)
          fun _ _ => rfl) (fun _ => update_on fun s log h => ?_) fun e => rollbackPreauthPeer_on
        exact .inl (h.1.1.heldWith fun station hsta => ⟨_, rfl, h.1.1.stations station hsta⟩)

/-! ## Every operation -/

theorem programEdca_on {p : Ledger → List Submitted → Prop} {params : ClientEdcaParameters}
    (hp : ∀ l log sequence bssIndex qos params answer, p l log →
      p l (log ++ [⟨.ce (.edca sequence bssIndex qos params), answer⟩])) :
    Leads (On p) (programEdca L.logged params) (On p) := by
  refine .look_any fun state => ?_
  cases state.association with
  | none => exact .fail fun _ h => h
  | some =>
    refine .guard (fun _ h => h) ?_
    refine sequenced_on (fun sequence command hcmd => ?_) fun _ _ h => h
    obtain ⟨-, hcmd⟩ := guard_eq_ok.mp hcmd
    obtain ⟨-, ⟨⟩⟩ := guard_eq_ok.mp hcmd
    refine beside_on (fun _ => rfl) (.bind (submit_on ?_ ?_) fun _ => update_on fun _ _ h => h)
    · exact fun l log h => hp l log _ _ _ _ _ h
    · exact fun l log e h => hp l log _ _ _ _ _ h

end Client

namespace ClientFirmwareEffectsState

variable {s s' : Effects}

theorem setControlledPort_ledger {isOpen : Bool} (h : s.setControlledPort isOpen = .ok s') :
    s'.ledger = s.ledger := by
  unfold setControlledPort at h
  repeat' split at h
  all_goals first | (cases h; rfl) | cases h

theorem publishTx_ledger {token : UInt16} {generation : ClientDataGeneration}
    (h : s.publishTx token generation = .ok s') : s'.ledger = s.ledger := by
  unfold publishTx at h
  simp only [bind, Except.bind] at h
  repeat' split at h
  all_goals first | (cases h; rfl) | cases h

theorem completeTx_ledger {token : UInt16} (h : s.completeTx token = .ok s') :
    s'.ledger = s.ledger := by
  unfold completeTx at h
  split at h
  · cases h
  · cases h
    rfl

variable {rx : ClientRxCandidate}

theorem deliverRx_ledger (h : s.deliverRx rx = .ok s') : s'.ledger = s.ledger := by
  unfold deliverRx at h
  simp only [bind, Except.bind] at h
  repeat' split at h
  all_goals first | (cases h; rfl) | cases h

theorem deliverProtectedManagementRx_ledger (h : s.deliverProtectedManagementRx rx = .ok s') :
    s'.ledger = s.ledger := by
  unfold deliverProtectedManagementRx at h
  simp only [bind, Except.bind] at h
  repeat' split at h
  all_goals first | (cases h; rfl) | cases h

end ClientFirmwareEffectsState

/-- The operations whose record comes after their submissions. -/
def ClientOp.recordsLate : ClientOp → Bool
  | .preparePreauthPeer .. | .completePostAssocInterface => true
  | _ => false

/-- One of them had a failure after which something is not recorded. -/
def ClientStep.Slips (step : ClientStep (τ × List Submitted)) : Prop :=
  step.op.recordsLate ∧ ∃ c ∈ step.submitted, c.slip

instance (step : ClientStep (τ × List Submitted)) : Decidable step.Slips :=
  inferInstanceAs (Decidable (_ ∧ _))

namespace Client

variable {L : ClientLink τ} {base : List Submitted}

/-- What an operation leaves when it started with everything recorded. -/
def After (op : ClientOp) (base : List Submitted) (l : Ledger) (log : List Submitted) : Prop :=
  Held l (footprint log) ∨ op.recordsLate ∧ Slipped base log

abbrev Performs (op : ClientOp) (base : List Submitted) (x : LoggingClient τ Unit) : Prop :=
  Leads (On fun l log => Held l (footprint log) ∧ log = base) x (On (After op base))

variable {op : ClientOp} {x : LoggingClient τ Unit}

theorem After.of_held (hx : Recovers Held x Held) : Performs op base x :=
  Triple.conseq hx (fun _ h => h.1) (fun _ _ h => .inl h) fun _ _ h => .inl h

theorem After.of_step {f : Effects → Except String Effects}
    (h : ∀ s s', f s = .ok s' → s'.ledger = s.ledger) :
    Performs op base (step f : LoggingClient τ Unit) :=
  After.of_held (same_on (step_within fun s s' hf => ⟨h s.state s' hf, rfl⟩))

theorem After.of_late (hop : op.recordsLate)
    (hx : Leads (On (HeldSince base)) x (On (HeldOr base))) : Performs op base x :=
  Triple.conseq hx (fun _ h => ⟨h.1, h.2 ▸ prefix_rfl⟩)
    (fun _ _ h => h.imp id fun h => ⟨hop, h⟩) fun _ _ h => h.imp id fun h => ⟨hop, h⟩

theorem exec_on (op : ClientOp) (base : List Submitted) : Performs op base (op.exec L.logged) := by
  cases op with
  | allocatePeerWcid =>
    refine After.of_step fun s s' h => ?_
    obtain ⟨_, _, rfl⟩ := allocatePeerWcid_eq h
    rfl
  | reserveMcuSequence => exact After.of_held (nextSequence_on fun _ _ => .pure fun _ h => h)
  | bindJoin =>
    refine After.of_step fun s s' h => ?_
    obtain ⟨_, rfl⟩ := bindJoin_eq h
    rfl
  | preparePreauthPeer => exact After.of_late rfl preparePreauthPeer_on
  | associate => exact After.of_held associate_on
  | programEdca =>
    refine After.of_held (programEdca_on fun l log sequence bssIndex qos params answer h => ?_)
    rw [footprint_push]
    exact h
  | completePostAssocInterface => exact After.of_late rfl completePostAssocInterface_on
  | installPtk => exact After.of_held installPtk_on
  | installGtk => exact After.of_held installGtk_on
  | installIgtk => exact After.of_held installIgtk_on
  | setControlledPort => exact After.of_step fun _ _ => setControlledPort_ledger
  | publishTx => exact After.of_step fun _ _ => publishTx_ledger
  | completeTx => exact After.of_step fun _ _ => completeTx_ledger
  | deliverRx => exact After.of_step fun _ _ => deliverRx_ledger
  | deliverProtectedManagementRx =>
    exact After.of_step fun _ _ => deliverProtectedManagementRx_ledger
  | teardown =>
    exact After.of_held (.conseq teardown_on (fun _ h => h)
      (fun _ _ h => Emptied.held h) fun _ _ h => h)

end Client

/-! ## Runs -/

theorem run_held (L : ClientLink τ) (ops : List ClientOp) (s : ClientLog τ)
    (hs : Held s.state.ledger (footprint s.log)) (h : ∀ step ∈ run L.logged s ops, ¬ step.Slips) :
    ∀ step ∈ run L.logged s ops, Recorded step.after.state.ledger (footprint step.after.log) ∧
      (step.op = .teardown → step.result = .ok () → footprint step.after.log = .empty) := by
  induction ops generalizing s with
  | nil => simp [run]
  | cons op rest ih =>
    have hheld := (Client.exec_on (L := L) op s.log).state ⟨hs, rfl⟩
    replace hheld := hheld.resolve_right (by
      rintro ⟨hlate, more, hlog, c, hc, hslip⟩
      refine h _ mem_cons_self ⟨hlate, c, ?_, hslip⟩
      show c ∈ (op.exec L.logged s).state.log.drop s.log.length
      rw [hlog, drop_left]
      exact hc)
    refine forall_mem_cons.mpr ⟨⟨hheld.recorded, ?_⟩, ?_⟩
    · rintro rfl hres
      exact ((Client.teardown_on s hs).1 () hres).1
    · exact ih _ hheld fun step hstep => h step (mem_cons_of_mem _ hstep)

/-- In a run without such a failure everything that the firmware may hold
is recorded, and a teardown that succeeds leaves nothing. -/
theorem footprint_recorded (L : ClientLink τ) (t : τ) (ops : List ClientOp)
    (h : ∀ step ∈ run L.logged (.start t) ops, ¬ step.Slips) :
    ∀ step ∈ run L.logged (.start t) ops,
      Recorded step.after.state.ledger (footprint step.after.log) ∧
      (step.op = .teardown → step.result = .ok () → footprint step.after.log = .empty) :=
  run_held L ops (.start t) ⟨.of_empty _, .of_none rfl⟩ h

/-- A link that fails the submissions with these numbers. -/
def failing (lost : List Nat) : ClientLink Nat where
  handle _ t := (if t ∈ lost then .error "timed out" else .ok (), t + 1)

/-- An association whose station is not acknowledged, and a teardown. -/
theorem footprint_recorded_failing :
    let steps := run (failing [7]).logged (.start 0) (associating ++ [.teardown])
    (∀ step ∈ steps, ¬ step.Slips) ∧ ∀ step ∈ steps,
      Recorded step.after.state.ledger (footprint step.after.log) ∧
      (step.op = .teardown → step.result = .ok () → footprint step.after.log = .empty) := by
  intro steps
  have h : ∀ step ∈ steps, ¬ step.Slips := by decide +kernel
  exact ⟨h, footprint_recorded (failing [7]) 0 (associating ++ [.teardown]) h⟩

/-- Each of the failures loses something: the BSS in a state that is not
uncertain, the station and the filter in a teardown that succeeds. -/
theorem footprint_lost :
    (∃ step ∈ run (failing [1]).logged (.start 0)
        [.bindJoin exampleAddress exampleChannel 100 2,
          .preparePreauthPeer examplePeer exampleChannel],
      step.after.state.firmwareUncertain = false ∧
      ¬ Recorded step.after.state.ledger (footprint step.after.log)) ∧
    (∃ step ∈ run (failing [0, 1]).logged (.start 0)
        [.bindJoin exampleAddress exampleChannel 100 2,
          .preparePreauthPeer examplePeer exampleChannel, .teardown],
      step.op = .teardown ∧ step.result = .ok () ∧ (footprint step.after.log).stations ≠ []) ∧
    ∃ step ∈ run (failing [10]).logged (.start 0)
        (associating ++ [.completePostAssocInterface, .teardown]),
      step.op = .teardown ∧ step.result = .ok () ∧ (footprint step.after.log).rxFilter = true := by
  refine ⟨⟨_, mem_cons_of_mem _ mem_cons_self, rfl, fun h => ?_⟩,
    ⟨_, mem_cons_of_mem _ (mem_cons_of_mem _ mem_cons_self), rfl, rfl, ?_⟩,
    _, mem_cons_of_mem _ (mem_cons_of_mem _ (mem_cons_of_mem _
      (mem_cons_of_mem _ mem_cons_self))), rfl, rfl, rfl⟩
  · have hbss := (h.bsses 0 (mem_cons_self)).1
    cases hbss
  · exact cons_ne_nil _ _

end Drv.Mt7921
