import Drv.Laws.Mt7921.Client

/-!
# What the firmware may hold

A submission that failed may have been applied all the same, so the
firmware may hold everything that was ever added and whose removal was
not acknowledged (`footprint`). The state records a part of it, which is
what teardown removes (`Recorded`).

A teardown of a state that records everything leaves nothing when it
succeeds (`teardown_on`), and a key is recorded before it is submitted.

What the firmware does with a command that it acknowledged is not
modelled.
-/

namespace Drv.Mt7921

open List

variable {τ : Type}

/-! ## The firmware's side -/

/-- Stations and keys are named by BSS index and table entry. -/
structure Footprint where
  stations : List (UInt8 × UInt8)
  bsses : List UInt8
  keys : List (UInt8 × UInt8)
  rxFilter : Bool

namespace Footprint

def empty : Footprint := ⟨[], [], [], false⟩

section
variable (f : Footprint)

def withoutStation (station : UInt8 × UInt8) : Footprint :=
  { f with stations := f.stations.filter (· ≠ station) }

def withoutBss (bss : UInt8) : Footprint :=
  { f with bsses := f.bsses.filter (· ≠ bss) }

def withoutKeys (key : UInt8 × UInt8) : Footprint :=
  { f with keys := f.keys.filter (· ≠ key) }

/-- What is added may be there even if the submission failed, and what is
removed is gone only if it succeeded. -/
def command (ok : Bool) : ClientCommand → Footprint
  | .initialPeer _ bssIndex wcid _ | .preauthPeer _ bssIndex wcid .. =>
    { f with stations := (bssIndex, wcid) :: f.stations }
  | .addWcid _ association _ =>
    { f with stations := (association.bssIndex, association.peerWcid.get) :: f.stations }
  | .removeWcid _ bssIndex wcid .. => if ok then f.withoutStation (bssIndex, wcid) else f
  | .preauthBss _ bssIndex .. | .bss _ bssIndex _ _ true => { f with bsses := bssIndex :: f.bsses }
  | .bss _ bssIndex _ _ false => if ok then f.withoutBss bssIndex else f
  | .key _ bssIndex wcid .. => { f with keys := (bssIndex, wcid) :: f.keys }
  | .disableKeys _ bssIndex wcid _ => if ok then f.withoutKeys (bssIndex, wcid) else f
  | .rxFilterBitmap _ bitOperation =>
    if bitOperation = 1 then { f with rxFilter := true }
    else if ok then { f with rxFilter := false } else f
  | .edca .. | .interfaceWcid .. | .powerState .. | .rlm .. => f

def submit (ok : Bool) : Submission → Footprint
  | .uni _ command | .ce command | .ceNoAck command => f.command ok command
  | .afterBss => f

end

end Footprint

/-- What the firmware may hold after some submissions. -/
def footprint (log : List Submitted) : Footprint :=
  log.foldl (fun f c => f.submit c.answer.isOk c.submission) .empty

theorem footprint_push (log : List Submitted) (c : Submitted) :
    footprint (log ++ [c]) = (footprint log).submit c.answer.isOk c.submission := by
  rw [footprint, foldl_append]
  rfl

/-! ## The state's side -/

structure Ledger where
  preauthPeer : Option LegacyWmeAssociation
  association : Option LegacyWmeAssociation
  bssProgrammed : Bool
  bssBinding : Option (UInt8 × Bool)
  ptkDirty : Bool
  broadcastKeysDirty : Bool
  rxFilterPublished : Bool

def ClientFirmwareEffectsState.ledger (s : Effects) : Ledger where
  preauthPeer := s.preauthPeer
  association := s.association
  bssProgrammed := s.bssProgrammed
  bssBinding := s.bssBinding
  ptkDirty := s.ptkDirty
  broadcastKeysDirty := s.broadcastKeysDirty
  rxFilterPublished := s.postAssocRxFilterPublished

/-- A key that teardown removes. -/
def Ledger.HasKey (l : Ledger) (key : UInt8 × UInt8) : Prop :=
  ∃ association, l.association = some association ∧
    (key = (association.bssIndex, association.peerWcid.get) ∧ l.ptkDirty = true ∨
      key = (association.bssIndex, interfaceWcid) ∧ l.broadcastKeysDirty = true)

/-- Everything that the firmware may hold is in the state. -/
structure Recorded (l : Ledger) (f : Footprint) : Prop where
  stations : ∀ station ∈ f.stations, ∃ peer, l.preauthPeer = some peer ∧
    station = (peer.bssIndex, peer.peerWcid.get)
  bsses : ∀ bss ∈ f.bsses, l.bssProgrammed = true ∧ ∃ qos, l.bssBinding = some (bss, qos)
  keys : ∀ key ∈ f.keys, l.HasKey key
  rxFilter : f.rxFilter = true → l.rxFilterPublished = true

/-- An association is that of the recorded peer and BSS. -/
def Bound (l : Ledger) : Prop :=
  ∀ association, l.association = some association →
    (∃ peer, l.preauthPeer = some peer ∧ peer.bssIndex = association.bssIndex ∧
      peer.peerWcid = association.peerWcid) ∧
    l.bssProgrammed = true ∧ ∃ qos, l.bssBinding = some (association.bssIndex, qos)

structure Held (l : Ledger) (f : Footprint) : Prop where
  recorded : Recorded l f
  bound : Bound l

variable {l : Ledger}

theorem Bound.of_none (h : l.association = none) : Bound l := by
  intro association hassoc
  rw [h] at hassoc
  cases hassoc

theorem Recorded.of_empty (l : Ledger) : Recorded l .empty where
  stations _ h := by cases h
  bsses _ h := by cases h
  keys _ h := by cases h
  rxFilter h := by cases h

/-- Parts of a footprint. -/
structure Footprint.Within (f f' : Footprint) : Prop where
  stations : f.stations ⊆ f'.stations
  bsses : f.bsses ⊆ f'.bsses
  keys : f.keys ⊆ f'.keys
  rxFilter : f.rxFilter = true → f'.rxFilter = true

variable {f : Footprint} {f' : Footprint}

theorem Recorded.mono (h : Recorded l f') (hf : f.Within f') : Recorded l f where
  stations station hstation := h.stations station (hf.stations hstation)
  bsses bss hbss := h.bsses bss (hf.bsses hbss)
  keys key hkey := h.keys key (hf.keys hkey)
  rxFilter hfilter := h.rxFilter (hf.rxFilter hfilter)

theorem Held.mono (h : Held l f') (hf : f.Within f') : Held l f :=
  ⟨h.recorded.mono hf, h.bound⟩

theorem Held.marked {l' : Ledger} (h : Held l f)
    (hsame : l' = { l with ptkDirty := l'.ptkDirty, broadcastKeysDirty := l'.broadcastKeysDirty })
    (hptk : l.ptkDirty = true → l'.ptkDirty = true)
    (hbcast : l.broadcastKeysDirty = true → l'.broadcastKeysDirty = true) : Held l' f := by
  rw [hsame]
  refine ⟨{ h.recorded with keys := fun key hkey => ?_ }, h.bound⟩
  obtain ⟨association, hassoc, ⟨hkey, hdirty⟩ | ⟨hkey, hdirty⟩⟩ := h.recorded.keys key hkey
  · exact ⟨association, hassoc, .inl ⟨hkey, hptk hdirty⟩⟩
  · exact ⟨association, hassoc, .inr ⟨hkey, hbcast hdirty⟩⟩

namespace Footprint

variable (f : Footprint)

theorem withoutStation_within (station : UInt8 × UInt8) : (f.withoutStation station).Within f :=
  ⟨filter_subset_self _, Subset.refl _, Subset.refl _, id⟩

theorem withoutBss_within (bss : UInt8) : (f.withoutBss bss).Within f :=
  ⟨Subset.refl _, filter_subset_self _, Subset.refl _, id⟩

theorem withoutKeys_within (key : UInt8 × UInt8) : (f.withoutKeys key).Within f :=
  ⟨Subset.refl _, Subset.refl _, filter_subset_self _, id⟩

end Footprint

variable {α : Type}

theorem filter_ne_nil [DecidableEq α] {l : List α} {a : α} (h : ∀ b ∈ l, b = a) :
    l.filter (· ≠ a) = [] :=
  filter_eq_nil_iff.mpr fun b hb => by simp [h b hb]

namespace Client

variable {L : ClientLink τ} {p q r : Ledger → List Submitted → Prop}

/-! ## Parts of an operation -/

/-- A condition on what is recorded and on what was submitted. -/
def On (p : Ledger → List Submitted → Prop) (s : ClientSession (τ × List Submitted)) : Prop :=
  p s.state.ledger s.log

/-- A condition on what is recorded and on what the firmware may hold. -/
abbrev Of (p : Ledger → Footprint → Prop) : ClientSession (τ × List Submitted) → Prop :=
  On fun l log => p l (footprint log)

/-- A failure forgets nothing that the firmware may hold. -/
abbrev Recovers (p : Ledger → Footprint → Prop) (x : LoggingClient τ α)
    (q : Ledger → Footprint → Prop) : Prop :=
  Triple (Of p) x (fun _ => Of q) fun _ => Of Held

variable {E : String → ClientLog τ → Prop} {g : Effects → Effects}

theorem update_on (h : ∀ s log, p s.ledger log → q (g s).ledger log) :
    Triple (On p) (update g : LoggingClient τ Unit) (fun _ => On q) E :=
  Triple.modify fun s hs => h s.state s.log hs

variable {Q : α → ClientLog τ → Prop}

theorem beside_on {x : Unit → LoggingClient τ α} (hg : ∀ s, (g s).ledger = s.ledger)
    (hx : Triple (On p) (x ()) Q E) : Triple (On p) (update g >>= x) Q E :=
  .bind (update_on fun s _ h => (hg s).symm ▸ h) fun _ => hx

variable {x : Effects → LoggingClient τ α}

theorem firmware_on
    (h : ∀ state, Triple (On fun l log => p l log ∧ l = state.ledger) (x state) Q E) :
    Triple (On p) (firmware >>= x) Q E := by
  refine .look_bind fun state => ?_
  refine .weaken_pre (h state) ?_
  rintro s ⟨hs, rfl⟩
  exact ⟨hs, rfl⟩

theorem firmware_of {p : Ledger → Footprint → Prop}
    (h : ∀ state, Triple (Of fun l f => p l f ∧ l = state.ledger) (x state) Q E) :
    Triple (Of p) (firmware >>= x) Q E :=
  firmware_on h

variable {submission : Submission}

theorem submit_on (hok : ∀ l log, p l log → q l (log ++ [⟨submission, .ok ()⟩]))
    (herr : ∀ l log e, p l log → r l (log ++ [⟨submission, .error e⟩])) :
    Triple (On p) (submit L.logged submission) (fun _ => On q) (fun _ => On r) := by
  intro s hs
  have hlog : (submit L.logged submission s).state.log =
      s.log ++ [⟨submission, (submit L.logged submission s).result⟩] := rfl
  refine ⟨fun _ hres => ?_, fun e hres => ?_⟩
  · rw [hres] at hlog
    rw [On, hlog]
    exact hok _ _ hs
  · rw [hres] at hlog
    rw [On, hlog]
    exact herr _ _ e hs

/-- A submission that may be there whether it was acknowledged or not. -/
theorem submit_adds {p q : Ledger → Footprint → Prop}
    (h : ∀ l f ok, p l f → q l (f.submit ok submission)) :
    Leads (Of p) (submit L.logged submission) (Of q) := by
  refine submit_on (fun l log hp => ?_) fun l log e hp => ?_
  all_goals
    rw [footprint_push]
    exact h l _ _ hp

theorem sequence_valid (sequence : UInt8) : validSequence (sequence % 15 + 1) = true := by
  have hmod : (sequence % 15).toNat < 15 := Nat.mod_lt _ (by decide)
  have hsum : (sequence % 15 + 1).toNat = (sequence % 15).toNat + 1 := by
    rw [UInt8.toNat_add]
    exact Nat.mod_eq_of_lt (by simp only [UInt8.toNat_one]; omega)
  simp only [validSequence, Bool.and_eq_true, decide_eq_true_eq, UInt8.le_iff_toNat_le, hsum]
  simp only [UInt8.toNat_one, UInt8.reduceToNat]
  omega

theorem nextSequence_on {x : UInt8 → LoggingClient τ α}
    (h : ∀ sequence, validSequence sequence = true → Triple (On p) (x sequence) Q E) :
    Triple (On p) (nextSequence >>= x) Q E := by
  refine .bind ?_ fun sequence => .and_pre (h sequence)
  exact .of_outcome fun s hs => .inl ⟨_, rfl, sequence_valid _, hs⟩

theorem sequenced_on {β : Type} {encode : UInt8 → Except String β}
    {x : UInt8 → β → LoggingClient τ α}
    (hok : ∀ sequence command, encode sequence = .ok command →
      Triple (On p) (x sequence command) Q E) (herr : ∀ e s, On p s → E e s) :
    Triple (On p) (nextSequence >>= fun sequence =>
      Eff.ofExcept (encode sequence) >>= x sequence) Q E :=
  nextSequence_on fun sequence _ => .ofExcept_bind (hok sequence) herr

variable {encode : UInt8 → Encoded}

theorem send_on {service : UInt8}
    (hok : ∀ sequence command, encode sequence = .ok command → ∀ l log, p l log →
      q l (log ++ [⟨.uni service command, .ok ()⟩]))
    (herr : ∀ sequence command e, encode sequence = .ok command → ∀ l log, p l log →
      r l (log ++ [⟨.uni service command, .error e⟩]))
    (href : ∀ sequence e, validSequence sequence = true → encode sequence = .error e →
      ∀ l log, p l log → r l log) :
    Triple (On p) (send L.logged service encode) (fun _ => On q) (fun _ => On r) := by
  refine nextSequence_on fun sequence hval => ?_
  cases henc : encode sequence with
  | error e => exact .fail fun s hs => href sequence e hval henc _ _ hs
  | ok command =>
    exact submit_on (hok sequence command henc) fun l log e => herr sequence command e henc l log

theorem removal_on {p q : Ledger → Footprint → Prop} {service : UInt8} {g : Footprint → Footprint}
    (henc : ∀ sequence command, encode sequence = .ok command → ∀ f ok,
      Footprint.command f ok command = if ok then g f else f)
    (hq : ∀ l f, p l f → q l (g f)) :
    Triple (Of p) (send L.logged service encode) (fun _ => Of q) (fun _ => Of p) := by
  refine send_on ?_ ?_ fun _ _ _ _ _ _ h => h
  · intro sequence command hcmd l log hp
    have hfoot : footprint (log ++ [⟨.uni service command, .ok ()⟩]) = g (footprint log) := by
      rw [footprint_push]
      exact (henc sequence command hcmd _ _).trans (if_pos rfl)
    rw [hfoot]
    exact hq l _ hp
  · intro sequence command e hcmd l log hp
    have hfoot : footprint (log ++ [⟨.uni service command, .error e⟩]) = footprint log := by
      rw [footprint_push]
      exact (henc sequence command hcmd _ _).trans (if_neg (by simp [Except.isOk, Except.toBool]))
    rw [hfoot]
    exact hp

variable {bssIndex : UInt8}

section

variable {p q : Ledger → Footprint → Prop}

theorem sendRemoveWcid_on {wcid : ClientWcid} {aid : UInt16}
    {peer : MacAddress} {qos : Bool} (hq : ∀ l f, p l f →
      q l (f.withoutStation (bssIndex, wcid.get))) :
    Triple (Of p) (sendRemoveWcid L.logged bssIndex wcid aid peer qos)
      (fun _ => Of q) (fun _ => Of p) := by
  refine removal_on (fun sequence command h f ok => ?_) hq
  obtain ⟨-, ⟨⟩⟩ := guard_eq_ok.mp h
  rfl

theorem sendBss_on {joined : JoinedClientBss} {qos : Bool}
    (hq : ∀ l f, p l f → q l (f.withoutBss bssIndex)) :
    Triple (Of p) (sendBss L.logged bssIndex joined qos false) (fun _ => Of q) (fun _ => Of p) := by
  refine removal_on (fun sequence command h f ok => ?_) hq
  obtain ⟨-, ⟨⟩⟩ := guard_eq_ok.mp h
  rfl

theorem disableKeys_on {wcid muarIndex : UInt8}
    (hq : ∀ l f, p l f → q l (f.withoutKeys (bssIndex, wcid))) :
    Triple (Of p) (send L.logged 3 fun sequence =>
        encodeDisableKeysCommand sequence bssIndex wcid muarIndex)
      (fun _ => Of q) (fun _ => Of p) := by
  refine removal_on (fun sequence command h f ok => ?_) hq
  obtain ⟨-, ⟨⟩⟩ := guard_eq_ok.mp h
  rfl

end

theorem certain_on {message : String} {x : LoggingClient τ Unit}
    (hx : Triple (On p) x (fun _ => On q) (fun _ => On r)) :
    Triple (On p) (certain message x) (fun _ => On q) (fun _ => On r) := by
  refine .attempt_bind hx (fun _ => .pure fun _ h => h) fun error => ?_
  exact beside_on (fun _ => rfl) (.fail fun _ h => h)

theorem removed_on {p q : Ledger → Footprint → Prop} {message : String} {x : LoggingClient τ Unit}
    (hx : Triple (Of p) x (fun _ => Of q) (fun _ => Of p)) (hp : ∀ l f, p l f → Held l f) :
    Recovers p (certain message x) q :=
  certain_on (.weaken_error hx fun _ _ h => hp _ _ h)

/-- Changes that leave the ledger and the log as they are. -/
def SameLedger (s s' : ClientSession (τ × List Submitted)) : Prop :=
  s'.state.ledger = s.state.ledger ∧ s'.log = s.log

instance : IsPreorder (ClientSession (τ × List Submitted)) SameLedger where
  refl _ := ⟨rfl, rfl⟩
  trans _ _ _ h h' := ⟨h'.1.trans h.1, h'.2.trans h.2⟩

theorem same_on {x : LoggingClient τ α} (hx : Within SameLedger x) : Leads (On p) x (On p) := by
  refine .of_within hx fun s s' h hs => ?_
  rw [On, h.1, h.2]
  exact hs

theorem release_ledger (wcid : ClientWcid) :
    Within SameLedger (release wcid : LoggingClient τ Unit) := by
  refine step_within fun s s' h => ?_
  obtain ⟨_, _, rfl⟩ := releaseAllocatedPeer_eq h
  exact ⟨rfl, rfl⟩

/-! ## Teardown -/

theorem clearRxFilter_on :
    Recovers Held (clearRxFilter L.logged) (fun l f => Held l f ∧ f.rxFilter = false) := by
  refine firmware_of fun state => .ite (fun _ => ?_) fun hpub => ?_
  · refine .and_left (P := Of Held) ?_
    refine sequenced_on (fun sequence clear hclear => ?_) fun _ _ h => h
    obtain ⟨-, ⟨⟩⟩ := guard_eq_ok.mp hclear
    refine .bind (certain_on (submit_on (q := fun l log => Held l (footprint log) ∧
      (footprint log).rxFilter = false) ?_ ?_))
      fun _ => update_on ?_
    · intro l log h
      rw [footprint_push]
      exact ⟨h.mono ⟨.refl _, .refl _, .refl _, fun h => by cases h⟩, rfl⟩
    · intro l log e h
      rw [footprint_push]
      exact h
    · rintro s log ⟨h, hfilter⟩
      refine ⟨⟨{ h.recorded with rxFilter := fun hheld => ?_ }, h.bound⟩, hfilter⟩
      exact absurd (hfilter.symm.trans hheld) (by simp)
  · refine .pure ?_
    rintro s ⟨h, hled⟩
    refine ⟨h, ?_⟩
    by_contra hfilter
    have hrec := h.recorded.rxFilter (by simpa using hfilter)
    rw [hled] at hrec
    exact hpub hrec

/-- What is left once the filter and the keys are gone. -/
structure Unkeyed (l : Ledger) (f : Footprint) : Prop where
  held : Held l f
  rxFilter : f.rxFilter = false
  keys : f.keys = []

theorem Unkeyed.mono (h : Unkeyed l f') (hf : f.Within f') : Unkeyed l f := by
  refine ⟨h.held.mono hf, ?_, ?_⟩
  · by_contra hfilter
    have hheld := hf.rxFilter (by simpa using hfilter)
    rw [h.rxFilter] at hheld
    cases hheld
  · have hks := hf.keys
    rw [h.keys] at hks
    exact subset_nil.mp hks

/-- The same once the stations are gone. -/
def Deserted (l : Ledger) (f : Footprint) : Prop :=
  Unkeyed l f ∧ l.association = none ∧ f.stations = []

theorem teardownPreauth_on :
    Recovers (fun l f => Unkeyed l f ∧ l.association = none) (teardownPreauth L.logged)
      Deserted := by
  refine firmware_of fun state => ?_
  cases hpre : state.preauthPeer with
  | none =>
    refine .pure ?_
    rintro s ⟨⟨h, hassoc⟩, hled⟩
    refine ⟨h, hassoc, eq_nil_iff_forall_not_mem.mpr fun station hstation => ?_⟩
    obtain ⟨peer, hpeer, -⟩ := h.held.recorded.stations station hstation
    rw [hled] at hpeer
    cases hpre.symm.trans hpeer
  | some preauth =>
    refine .bind (R := fun _ => Of Deserted)
      (removed_on (sendRemoveWcid_on ?_) fun _ _ h => h.1.1.held) fun _ => ?_
    · rintro l f ⟨⟨h, hassoc⟩, hled⟩
      refine ⟨h.mono (f.withoutStation_within _), hassoc, filter_ne_nil ?_⟩
      intro station hstation
      obtain ⟨peer, hpeer, rfl⟩ := h.held.recorded.stations station hstation
      rw [hled] at hpeer
      cases hpre.symm.trans hpeer
      rfl
    refine .bind (R := fun _ => Of Deserted) (update_on ?_) fun _ => ?_
    · rintro s log ⟨h, hassoc, hstas⟩
      refine ⟨⟨⟨{ h.held.recorded with stations := fun station hstation => ?_ },
        Bound.of_none hassoc⟩, h.rxFilter, h.keys⟩, hassoc, hstas⟩
      rw [hstas] at hstation
      cases hstation
    · exact .weaken_error (same_on (release_ledger _)) fun _ _ h => h.1.held

theorem Unkeyed.emptied (h : Unkeyed l f) (hstas : f.stations = [])
    (hbsses : f.bsses = []) : f = .empty := by
  obtain ⟨stations, bsses, keys, rxFilter⟩ := f
  obtain rfl : rxFilter = false := h.rxFilter
  obtain rfl : keys = [] := h.keys
  obtain rfl : stations = [] := hstas
  obtain rfl : bsses = [] := hbsses
  rfl

/-- Nothing is left. -/
def Emptied (l : Ledger) (f : Footprint) : Prop := f = .empty ∧ l.association = none

theorem Emptied.held (h : Emptied l f) : Held l f := by
  obtain ⟨rfl, hassoc⟩ := h
  exact ⟨.of_empty l, .of_none hassoc⟩

theorem teardownBss_on : Recovers Deserted (teardownBss L.logged) Emptied := by
  refine firmware_of fun state => .ite (fun _ => ?_) fun hprog => ?_
  · split
    next => exact .fail fun s h => h.1.1.held
    next => exact .fail fun s h => h.1.1.held
    next joined bssIndex qos _ hbind =>
      refine .bind (removed_on (q := Emptied) (sendBss_on ?_) fun _ _ h => h.1.1.held) fun _ =>
        update_on fun _ _ h => h
      rintro l f ⟨⟨h, hassoc, hstas⟩, hled⟩
      refine ⟨(h.mono (f.withoutBss_within _)).emptied hstas (filter_ne_nil ?_), hassoc⟩
      intro bss hbss
      obtain ⟨-, qos', hbss'⟩ := h.held.recorded.bsses bss hbss
      rw [hled] at hbss'
      cases hbind.symm.trans hbss'
      rfl
  · refine .pure ?_
    rintro s ⟨⟨h, hassoc, hstas⟩, hled⟩
    refine ⟨h.emptied hstas (eq_nil_iff_forall_not_mem.mpr fun bss hbss => ?_), hassoc⟩
    obtain ⟨hrec, -⟩ := h.held.recorded.bsses bss hbss
    rw [hled] at hrec
    exact hprog hrec

theorem teardownUnassociated_on :
    Recovers (fun l f => (Held l f ∧ f.rxFilter = false) ∧ l.association = none)
      (teardownUnassociated L.logged) Emptied := by
  refine .bind (update_on ?_) fun _ => .bind teardownPreauth_on fun _ => .bind teardownBss_on
      fun _ => update_on fun _ _ h => h
  rintro s log ⟨⟨h, hfilter⟩, hassoc⟩
  have hks : (footprint log).keys = [] := by
    refine eq_nil_iff_forall_not_mem.mpr fun key hkey => ?_
    obtain ⟨association, hsome, -⟩ := h.recorded.keys key hkey
    cases hassoc.symm.trans hsome
  refine ⟨⟨⟨{ h.recorded with keys := fun key hkey => ?_ }, .of_none hassoc⟩, hfilter, hks⟩, hassoc⟩
  rw [hks] at hkey
  cases hkey

/-- An association whose filter is cleared. -/
structure Leaving (association : LegacyWmeAssociation) (l : Ledger) (f : Footprint) : Prop where
  held : Held l f
  rxFilter : f.rxFilter = false
  association : l.association = some association

variable {association : LegacyWmeAssociation}

theorem disableBroadcastKeys_on :
    Recovers (Leaving association) (disableBroadcastKeys L.logged association)
      (fun l f => Leaving association l f ∧ l.broadcastKeysDirty = false) := by
  refine firmware_of fun state => .ite (fun _ => ?_) fun hclean => ?_
  · refine .and_left (P := Of _) (.bind (removed_on (q := fun l f => Leaving association l f ∧
      ∀ key ∈ f.keys, key ≠ (association.bssIndex, interfaceWcid)) (disableKeys_on ?_)
      fun _ _ h => h.held) fun _ => update_on ?_)
    · intro l f h
      refine ⟨⟨h.held.mono (f.withoutKeys_within _), h.rxFilter, h.association⟩, fun key hkey => ?_⟩
      simpa using (mem_filter.mp hkey).2
    rintro s log ⟨h, hks⟩
    refine ⟨{ h with held := ⟨{ h.held.recorded with keys := fun key hkey => ?_ }, h.held.bound⟩ },
      rfl⟩
    obtain ⟨current, hcur, hpair | ⟨hgroup, -⟩⟩ := h.held.recorded.keys key hkey
    · exact ⟨current, hcur, .inl hpair⟩
    · cases h.association.symm.trans hcur
      exact absurd hgroup (hks key hkey)
  · refine .pure ?_
    rintro s ⟨h, hled⟩
    refine ⟨h, ?_⟩
    rw [hled]
    exact Bool.eq_false_iff.mpr hclean

theorem disablePairwiseKey_on :
    Recovers (fun l f => Leaving association l f ∧ l.broadcastKeysDirty = false)
      (disablePairwiseKey L.logged association)
      (fun l f => Unkeyed l f ∧ l.association = some association) := by
  refine firmware_of fun state => .ite (fun _ => ?_) fun hclean => ?_
  · refine .and_left (P := Of fun l f => Leaving association l f ∧
      l.broadcastKeysDirty = false) (.bind (removed_on (q := fun l f => Unkeyed l f ∧
      l.association = some association) (disableKeys_on ?_) fun _ _ h => h.1.held)
      fun _ => update_on ?_)
    · rintro l f ⟨h, hclean⟩
      refine ⟨⟨h.held.mono (f.withoutKeys_within _), h.rxFilter, filter_ne_nil fun key hkey => ?_⟩,
        h.association⟩
      obtain ⟨current, hcur, ⟨hpair, -⟩ | ⟨-, hdirty⟩⟩ := h.held.recorded.keys key hkey
      · cases h.association.symm.trans hcur
        exact hpair
      · cases hclean.symm.trans hdirty
    rintro s log ⟨h, hassoc⟩
    refine ⟨{ h with held := ⟨{ h.held.recorded with keys := fun key hkey => ?_ }, h.held.bound⟩ },
      hassoc⟩
    rw [h.keys] at hkey
    cases hkey
  · refine .pure ?_
    rintro s ⟨⟨h, hbcast⟩, hled⟩
    refine ⟨⟨h.held, h.rxFilter, eq_nil_iff_forall_not_mem.mpr fun key hkey => ?_⟩, h.association⟩
    obtain ⟨current, -, ⟨-, hdirty⟩ | ⟨-, hdirty⟩⟩ := h.held.recorded.keys key hkey
    · rw [hled] at hdirty
      exact hclean hdirty
    · cases hbcast.symm.trans hdirty

theorem teardownAssociated_on :
    Recovers (Leaving association) (teardownAssociated L.logged association) Emptied := by
  refine .bind disableBroadcastKeys_on fun _ => .bind disablePairwiseKey_on fun _ => ?_
  refine .bind (removed_on (q := fun l f => (Unkeyed l f ∧ l.association = some association) ∧
    f.stations = []) (sendRemoveWcid_on ?_) fun _ _ h => h.1.held) fun _ =>
    .look_any fun state => ?_
  · rintro l f ⟨h, hassoc⟩
    refine ⟨⟨h.mono (f.withoutStation_within _), hassoc⟩, filter_ne_nil ?_⟩
    intro station hstation
    obtain ⟨peer, hpeer, rfl⟩ := h.held.recorded.stations station hstation
    obtain ⟨⟨peer', hp', hidx, hwcid⟩, -⟩ := h.held.bound association hassoc
    cases hpeer.symm.trans hp'
    rw [hidx, hwcid]
  cases state.joined with
  | none => exact .fail fun s h => h.1.1.held
  | some =>
    refine .bind (removed_on (q := fun _ f => f = .empty) (sendBss_on ?_)
      fun _ _ h => h.1.1.held) fun _ => ?_
    · rintro l f ⟨⟨h, hassoc⟩, hstas⟩
      refine (h.mono (f.withoutBss_within _)).emptied hstas (filter_ne_nil ?_)
      intro bss hbss
      obtain ⟨-, qos, hbind⟩ := h.held.recorded.bsses bss hbss
      obtain ⟨-, -, qos', hbind'⟩ := h.held.bound association hassoc
      cases hbind.symm.trans hbind'
      rfl
    refine .bind (R := fun _ => Of Emptied) (update_on fun _ _ h => ⟨h, rfl⟩) fun _ => ?_
    have hrel : Recovers (τ := τ) Emptied (release association.peerWcid) Emptied :=
      Triple.weaken_error (same_on (release_ledger _)) fun _ _ h => Emptied.held h
    exact .bind hrel fun _ => update_on fun _ _ h => h

/-- A teardown that succeeds leaves nothing, and one that fails forgets
nothing. -/
theorem teardown_on : Recovers Held (teardown L.logged) Emptied := by
  refine beside_on (fun _ => rfl) (.look_any fun state => ?_)
  refine .ite (fun _ => ?_) fun _ => ?_
  · exact beside_on (fun _ => rfl) (.fail fun _ h => h)
  · refine .bind clearRxFilter_on fun _ => firmware_of fun state => ?_
    cases hassoc : state.association with
    | none =>
      refine .weaken_pre teardownUnassociated_on ?_
      rintro s ⟨h, hled⟩
      exact ⟨h, hled ▸ hassoc⟩
    | some =>
      refine .weaken_pre teardownAssociated_on ?_
      rintro s ⟨h, hled⟩
      exact ⟨h.1, h.2, hled ▸ hassoc⟩

/-! ## Keys -/

variable {key : Bytes} {keyId : UInt8} {command : ClientCommand}

theorem encodeKeyV2Command_key {sequence wcid muarIndex : UInt8} {retained : Option (UInt8 × Bytes)}
    (h : encodeKeyV2Command sequence bssIndex wcid muarIndex keyId key retained = .ok command) :
    command = .key sequence bssIndex wcid muarIndex keyId key retained := by
  obtain ⟨-, h⟩ := guard_eq_ok.mp h
  obtain ⟨-, ⟨⟩⟩ := guard_eq_ok.mp h
  rfl

theorem encoded_on {what : String} {encode : Encoded} {wcid : UInt8}
    {mark g : Effects → Effects}
    (hkey : ∀ command, encode = .ok command → ∃ sequence muarIndex keyId key retained,
      command = .key sequence association.bssIndex wcid muarIndex keyId key retained)
    (hmark : ∀ s f, Held s.ledger f → s.association = some association →
      Held (mark s).ledger f ∧ (mark s).ledger.HasKey (association.bssIndex, wcid))
    (hg : ∀ s, (g s).ledger = s.ledger) :
    Recovers (fun l f => Held l f ∧ l.association = some association)
      (Eff.ofExcept encode >>= fun command => do
        update mark
        installKey L.logged what command
        update g) Held := by
  refine .ofExcept_bind (fun command hcmd => ?_) fun _ _ h => h.1
  obtain ⟨sequence, muarIndex, keyId, key, retained, rfl⟩ := hkey command hcmd
  refine .bind (R := fun _ => Of fun l f => Held l f ∧
    l.HasKey (association.bssIndex, wcid)) (update_on fun s log h => hmark s _ h.1 h.2) fun _ => ?_
  have hadded : ∀ l f ok, Held l f ∧ l.HasKey (association.bssIndex, wcid) → Held l (f.submit ok
      (.uni 3 (.key sequence association.bssIndex wcid muarIndex keyId key retained))) := by
    rintro l f ok ⟨h, hkey⟩
    exact ⟨{ h.recorded with keys := forall_mem_cons.mpr ⟨hkey, h.recorded.keys⟩ }, h.bound⟩
  refine .bind (R := fun _ => Of Held) (.attempt_bind (submit_adds hadded)
    (fun _ => .pure fun _ h => h) fun error => ?_) fun _ => update_on fun s log h => ?_
  · -- taken back with everything else when it is not acknowledged
    refine beside_on (fun _ => rfl) ?_
    exact .attempt_bind teardown_on (fun _ => .fail fun _ h => Emptied.held h)
      fun _ => .fail fun _ h => h
  · rw [hg]
    exact h

theorem associated_on {rest : LegacyWmeAssociation → LoggingClient τ Unit} {missing : String}
    (h : ∀ association, Recovers (fun l f => Held l f ∧ l.association = some association)
      (rest association) Held) :
    Recovers Held (firmware >>= fun s => match s.association with
      | none => Eff.fail missing
      | some association => rest association) Held := by
  refine firmware_of fun state => ?_
  cases hassoc : state.association with
  | none => exact .fail fun _ h => h.1
  | some association =>
    refine .weaken_pre (h association) ?_
    rintro s ⟨h, hled⟩
    exact ⟨h, hled ▸ hassoc⟩

theorem installPtk_on {rsc : UInt64} : Recovers Held (installPtk L.logged key rsc) Held := by
  refine associated_on fun association => nextSequence_on fun sequence _ => ?_
  refine encoded_on (fun command h => ⟨_, _, _, _, _, encodeKeyV2Command_key h⟩) ?_ fun _ => rfl
  intro s f h hassoc
  exact ⟨h.marked rfl (fun _ => rfl) id, association, hassoc, .inl ⟨rfl, rfl⟩⟩

theorem broadcast_marked {s : Effects} (h : Held s.ledger f)
    (hassoc : s.association = some association) :
    Held { s with broadcastKeysDirty := true }.ledger f ∧
      { s with broadcastKeysDirty := true }.ledger.HasKey (association.bssIndex, interfaceWcid) :=
  ⟨h.marked rfl id fun _ => rfl, association, hassoc, .inr ⟨rfl, rfl⟩⟩

theorem installGtk_on {rsc : UInt64} : Recovers Held (installGtk L.logged keyId key rsc) Held := by
  refine associated_on fun association => nextSequence_on fun sequence _ => ?_
  exact encoded_on (fun command h => ⟨_, _, _, _, _, encodeKeyV2Command_key (guard_eq_ok.mp h).2⟩)
    (fun _ _ => broadcast_marked) fun _ => rfl

theorem installIgtk_on : Recovers Held (installIgtk L.logged keyId key) Held := by
  refine associated_on fun association => nextSequence_on fun sequence _ => ?_
  refine .look_any fun state => ?_
  cases state.gtk with
  | none => exact .fail fun _ h => h.1
  | some =>
    exact encoded_on (fun command h => ⟨_, _, _, _, _, encodeKeyV2Command_key (guard_eq_ok.mp h).2⟩)
      (fun _ _ => broadcast_marked) fun _ => rfl

end Client

end Drv.Mt7921
