import Drv.Base.Hoare
import Drv.Mt7921.Client

/-!
# What the client's operations change

The controlled port, the generations, the outstanding frames and the
receive counters are a small part of the state (`View`). Most of the
submitting operations leave it as it is; teardown, also as the answer to
a key that was not installed, closes the port and only takes things away
(`Closes`). Each operation is checked once against these, and every
property of runs is read off the result.
-/

namespace Drv.Mt7921

open ClientFirmwareEffectsState Client

variable {τ : Type}

/-! ## The submissions of a run -/

structure Submitted where
  submission : Submission
  answer : Except String Unit

/-- A session that keeps what was submitted, and operations on it. -/
abbrev ClientLog (τ : Type) := ClientSession (τ × List Submitted)

abbrev LoggingClient (τ : Type) := Client (τ × List Submitted)

/-- The same link, with a log of its submissions. -/
def ClientLink.logged (L : ClientLink τ) : ClientLink (τ × List Submitted) where
  handle submission t := ((L.handle submission t.1).1, (L.handle submission t.1).2,
    t.2 ++ [⟨submission, (L.handle submission t.1).1⟩])

def ClientSession.log (s : ClientSession (τ × List Submitted)) : List Submitted := s.link.2

/-- What an operation submitted. -/
def ClientStep.submitted (step : ClientStep (τ × List Submitted)) : List Submitted :=
  step.after.log.drop step.before.log.length

/-! ## The part of the state that matters for data -/

structure View where
  association : Option LegacyWmeAssociation
  ptkInstalled : Bool
  gtk : Option RetainedGtk
  igtkInstalled : Bool
  isOpen : Bool
  authorized : Option UInt64
  associated : Option UInt64
  next : UInt64
  outstanding : List (UInt16 × ClientDataGeneration)
  ptkRxPn : Option (Vector UInt64 16)
  gtkRxPn : Option (UInt8 × Vector UInt64 16)

def ClientFirmwareEffectsState.view (s : Effects) : View where
  association := s.association
  ptkInstalled := s.ptkInstalled
  gtk := s.gtk
  igtkInstalled := s.igtkInstalled
  isOpen := s.controlledPortOpen
  authorized := s.authorizedGeneration
  associated := s.associationGeneration
  next := s.nextGeneration
  outstanding := s.outstandingTx
  ptkRxPn := s.ptkRxPn
  gtkRxPn := s.gtkRxPn

def ClientSession.view (s : ClientSession τ) : View := s.state.view

def SameView (s s' : ClientSession τ) : Prop := s'.view = s.view

instance : IsPreorder (ClientSession τ) SameView where
  refl _ := rfl
  trans _ _ _ h h' := h'.trans h

/-- The port is closed, and the rest is as before or gone. -/
structure Closes (v v' : View) : Prop where
  isOpen : v'.isOpen = false
  authorized : v'.authorized = none
  associated : v'.associated = v.associated ∨ v'.associated = none
  next : v'.next = v.next
  outstanding : v'.outstanding = v.outstanding
  ptkRxPn : v'.ptkRxPn = v.ptkRxPn ∨ v'.ptkRxPn = none
  gtkRxPn : v'.gtkRxPn = v.gtkRxPn ∨ v'.gtkRxPn = none

theorem Closes.refl {v : View} (hopen : v.isOpen = false) (hauthorized : v.authorized = none) :
    Closes v v :=
  ⟨hopen, hauthorized, .inl rfl, rfl, rfl, .inl rfl, .inl rfl⟩

variable {α : Type}

private theorem same_or_gone {a b c : Option α} (h : b = a ∨ b = none) (h' : c = b ∨ c = none) :
    c = a ∨ c = none := by
  rcases h' with rfl | rfl
  · exact h
  · exact .inr rfl

theorem Closes.trans {v v' v'' : View} (h : Closes v v') (h' : Closes v' v'') : Closes v v'' where
  isOpen := h'.isOpen
  authorized := h'.authorized
  associated := same_or_gone h.associated h'.associated
  next := h'.next.trans h.next
  outstanding := h'.outstanding.trans h.outstanding
  ptkRxPn := same_or_gone h.ptkRxPn h'.ptkRxPn
  gtkRxPn := same_or_gone h.gtkRxPn h'.gtkRxPn

namespace Client

variable {L : ClientLink τ}

/-! ## Operations that leave the view as it is -/

variable {f : Effects → Effects}

theorem update_same (h : ∀ s, (f s).view = s.view) : Within SameView (update f : Client τ Unit) :=
  fun s => h s.state

theorem submit_same (submission : Submission) : Within SameView (submit L submission) :=
  fun _ => rfl

theorem nextSequence_same : Within SameView (nextSequence : Client τ UInt8) :=
  Within.bind (update_same fun _ => rfl) fun _ => .look_bind fun _ => .pure _

theorem encoded_same {α β : Type} {encode : UInt8 → Except String α} {f : UInt8 → α → Client τ β}
    (h : ∀ sequence command, Within SameView (f sequence command)) :
    Within SameView (nextSequence >>= fun sequence =>
      Eff.ofExcept (encode sequence) >>= f sequence) :=
  Within.bind nextSequence_same fun sequence => .ofExcept_bind (h sequence)

theorem send_same (service : UInt8) (encode : UInt8 → Encoded) :
    Within SameView (send L service encode) :=
  encoded_same fun _ _ => submit_same _

variable {r : ClientSession τ → ClientSession τ → Prop}

theorem step_within [IsPreorder (ClientSession τ) r]
    {f : Effects → Except String Effects}
    (h : ∀ (s : ClientSession τ) s', f s.state = .ok s' → r s { s with state := s' }) :
    Within r (step f : Client τ Unit) := by
  intro s
  simp only [step, firmware, update, Eff.bind_apply, Eff.look_apply, Eff.ofExcept_apply,
    Eff.modify_apply]
  cases hf : f s.state with
  | ok s' => exact h s s' hf
  | error => exact refl_of r s

theorem releaseAllocatedPeer_eq {s s' : Effects} {wcid : ClientWcid}
    (h : s.releaseAllocatedPeer wcid = .ok s') :
    ∃ wcidAllocator allocatedPeerWcid, s' = { s with wcidAllocator, allocatedPeerWcid } := by
  unfold releaseAllocatedPeer at h
  split at h
  · obtain ⟨allocator, -, ⟨⟩⟩ := bind_eq_ok.mp h
    exact ⟨_, _, rfl⟩
  · cases h
    exact ⟨_, _, rfl⟩

theorem release_same (wcid : ClientWcid) : Within SameView (release wcid : Client τ Unit) := by
  refine step_within fun s s' h => ?_
  obtain ⟨_, _, rfl⟩ := releaseAllocatedPeer_eq h
  rfl

variable {x : Client τ Unit}

theorem certain_within [IsPreorder (ClientSession τ) r] {message : String} (hx : Within r x)
    (h : ∀ s : ClientSession τ,
      r s { s with state := { s.state with firmwareUncertain := true } }) :
    Within r (certain message x) := by
  refine .bind (.attempt hx) fun answer => ?_
  cases answer with
  | ok => exact .pure _
  | error => exact .bind (fun s => h s) fun _ => .fail _

theorem programEdca_same (params : ClientEdcaParameters) :
    Within SameView (programEdca L params) := by
  refine .look_bind fun s => ?_
  cases s.association with
  | none => exact .fail _
  | some =>
    refine .guard ?_
    refine encoded_same fun sequence command => ?_
    refine .bind (update_same fun _ => rfl) fun _ => ?_
    exact .bind (submit_same _) fun _ => update_same fun _ => rfl

theorem completePostAssocInterface_same : Within SameView (completePostAssocInterface L) := by
  refine .look_bind fun s => ?_
  cases s.association with
  | none => exact .fail _
  | some =>
    cases s.joined with
    | none => exact .fail _
    | some =>
      refine .guard ?_
      refine encoded_same fun sequence command => ?_
      refine .bind (update_same fun _ => rfl) fun _ => ?_
      refine .bind (submit_same _) fun _ => ?_
      refine .bind (update_same fun _ => rfl) fun _ => ?_
      refine encoded_same fun sequence power => ?_
      refine .bind (submit_same _) fun _ => ?_
      refine encoded_same fun sequence rxFilter => ?_
      exact .bind (submit_same _) fun _ => update_same fun _ => rfl

variable (peer : LegacyWmeAssociation)

theorem rollbackPreauthPeer_same (joined : JoinedClientBss) (error : String) :
    Within SameView (rollbackPreauthPeer L peer joined error) := by
  refine .bind (.attempt (send_same _ _)) fun rollback => ?_
  refine .bind (.attempt ?_) fun rollbackBss => ?_
  · exact .look_bind fun s => .ite (send_same _ _) (.pure _)
  refine .bind (update_same fun _ => rfl) fun _ => ?_
  refine .bind (.ite ?_ (.pure _)) fun _ => .fail _
  exact .bind (update_same fun _ => rfl) fun _ => release_same _

theorem preparePreauthPeer_same (channel : ClientChannelLease) :
    Within SameView (preparePreauthPeer L peer channel) := by
  refine .look_bind fun s => ?_
  split
  · exact .fail _
  refine .guard ?_
  split
  · exact .ite (.pure _) (.fail _)
  refine encoded_same fun _ _ => ?_
  refine encoded_same fun _ _ => ?_
  refine encoded_same fun _ _ => ?_
  refine encoded_same fun _ _ => ?_
  refine .bind (update_same fun _ => rfl) fun _ => ?_
  refine .bind (.attempt ?_) fun added => ?_
  · refine .bind (submit_same _) fun _ => .bind (submit_same _) fun _ => ?_
    refine .bind (update_same fun _ => rfl) fun _ => ?_
    exact .bind (submit_same _) fun _ => submit_same _
  cases added with
  | error => exact rollbackPreauthPeer_same _ _ _
  | ok => exact update_same fun _ => rfl

/-! ## Teardown -/

/-- From a closed port, everything keeps it closed. -/
def Closing (s s' : ClientSession τ) : Prop :=
  s.view.isOpen = false → s.view.authorized = none → Closes s.view s'.view

instance : IsPreorder (ClientSession τ) Closing where
  refl _ hopen hauthorized := .refl hopen hauthorized
  trans _ _ _ h h' hopen hauthorized :=
    (h hopen hauthorized).trans (h' (h hopen hauthorized).isOpen (h hopen hauthorized).authorized)

theorem Closing.of_same (hx : Within SameView x) : Within Closing x := by
  intro s hopen hauthorized
  have hview : (x s).state.view = s.view := hx s
  rw [hview]
  exact .refl hopen hauthorized

theorem update_closing (h : ∀ s : Effects, s.view.isOpen = false → s.view.authorized = none →
      Closes s.view (f s).view) : Within Closing (update f : Client τ Unit) :=
  fun s => h s.state

theorem certain_closing {message : String} (hx : Within SameView x) :
    Within Closing (certain message x) :=
  Closing.of_same (certain_within hx fun _ => rfl)

theorem teardownUnassociated_closing : Within Closing (teardownUnassociated L) := by
  refine .bind (update_closing fun s hopen hauthorized => ?_) fun _ => ?_
  · exact ⟨hopen, hauthorized, .inr rfl, rfl, rfl, .inr rfl, .inr rfl⟩
  refine .bind (.of_same ?_) fun _ => .bind (.of_same ?_) fun _ =>
    Closing.of_same (update_same fun _ => rfl)
  · refine .look_bind fun s => ?_
    cases s.preauthPeer with
    | none => exact .pure _
    | some =>
      refine .bind (certain_within (send_same _ _) fun _ => rfl) fun _ => ?_
      exact .bind (update_same fun _ => rfl) fun _ => release_same _
  · refine .look_bind fun s => .ite ?_ (.pure _)
    cases s.joined with
    | none => exact .fail _
    | some =>
      cases s.bssBinding with
      | none => exact .fail _
      | some =>
        refine .bind (certain_within (send_same _ _) fun _ => rfl) fun _ => ?_
        exact update_same fun _ => rfl

theorem teardownAssociated_closing (association : LegacyWmeAssociation) :
    Within Closing (teardownAssociated L association) := by
  refine .bind ?_ fun _ => .bind ?_ fun _ => ?_
  · refine .look_bind fun s => .ite ?_ (.pure _)
    refine .bind (certain_closing (send_same _ _)) fun _ => update_closing ?_
    exact fun s hopen hauthorized =>
      ⟨hopen, hauthorized, .inl rfl, rfl, rfl, .inl rfl, .inr rfl⟩
  · refine .look_bind fun s => .ite ?_ (.pure _)
    refine .bind (certain_closing (send_same _ _)) fun _ => update_closing ?_
    exact fun s hopen hauthorized =>
      ⟨hopen, hauthorized, .inl rfl, rfl, rfl, .inr rfl, .inl rfl⟩
  · refine .bind (certain_closing (send_same _ _)) fun _ => ?_
    refine .look_bind fun s => ?_
    cases s.joined with
    | none => exact .fail _
    | some =>
      refine .bind (certain_closing (send_same _ _)) fun _ => ?_
      refine .bind (update_closing fun s hopen hauthorized => ?_) fun _ => ?_
      · exact ⟨hopen, hauthorized, .inl rfl, rfl, rfl, .inl rfl, .inl rfl⟩
      refine .bind (.of_same (release_same _)) fun _ => update_closing ?_
      exact fun s hopen hauthorized =>
        ⟨hopen, hauthorized, .inr rfl, rfl, rfl, .inl rfl, .inl rfl⟩

theorem closes_bind {rest : Unit → Client τ Unit} (hf : ∀ s, Closes s.view (f s).view)
    (hrest : ∀ u, Within Closing (rest u)) (s : ClientSession τ) :
    Closes s.view ((update f >>= rest) s).state.view :=
  (hf s.state).trans (hrest () { s with state := f s.state } (hf _).isOpen (hf _).authorized)

theorem teardown_closes (s : ClientSession τ) : Closes s.view (teardown L s).state.view := by
  refine closes_bind (fun s => ?_) (fun _ => ?_) s
  · exact ⟨rfl, rfl, .inl rfl, rfl, rfl, .inl rfl, .inl rfl⟩
  refine .look_bind fun s => ?_
  apply Within.ite
  · exact Within.bind (Closing.of_same (update_same fun _ => rfl)) fun _ => Within.fail _
  refine .bind (.of_same (.look_bind fun s => .ite ?_ (.pure _))) fun _ => ?_
  · refine encoded_same fun _ _ => ?_
    refine .bind (certain_within (submit_same _) fun _ => rfl) fun _ => ?_
    exact update_same fun _ => rfl
  refine .look_bind fun s => ?_
  cases s.association with
  | none => exact teardownUnassociated_closing
  | some association => exact teardownAssociated_closing association

/-! ## Association -/

variable {v : View}

theorem same_triple {x : Client τ α} (hx : Within SameView x) :
    Triple (fun s => s.view = v) x (fun _ s => s.view = v) (fun _ s => s.view = v) :=
  Triple.of_within hx fun _ _ h hs => h.trans hs

theorem part_triple {x : Client τ α} (hx : Within SameView x) {p : Prop} :
    Triple (fun s => s.view = v) x (fun _ s => s.view = v)
      (fun _ s => s.view = v ∨ p ∧ s.view = { v with isOpen := false }) :=
  (same_triple hx).weaken_error fun _ _ h => .inl h

section
variable (association : LegacyWmeAssociation)

section
variable (joined : JoinedClientBss)

theorem rollbackBss_same : Within SameView (rollbackBss L association joined) :=
  Within.attempt (send_same _ _)

theorem associateBss_same (bss : ClientCommand) :
    Within SameView (associateBss L association joined bss) := by
  refine .bind (.attempt (submit_same _)) fun answer => ?_
  cases answer with
  | ok => exact update_same fun _ => rfl
  | error =>
    refine .bind (rollbackBss_same _ _) fun rollback => ?_
    refine .bind (update_same fun s => ?_) fun _ => .fail _
    cases rollback <;> rfl

theorem associateRlm_same (channel : ClientChannelLease) :
    Within SameView (associateRlm L association joined channel) := by
  refine encoded_same fun _ _ => ?_
  refine .bind (update_same fun _ => rfl) fun _ => ?_
  refine .bind (.attempt (submit_same _)) fun answer => ?_
  cases answer with
  | ok => exact update_same fun _ => rfl
  | error =>
    refine .bind (rollbackBss_same _ _) fun rollback => ?_
    refine .bind (update_same fun s => ?_) fun _ => .fail _
    cases rollback <;> rfl

theorem associateBoundary_same : Within SameView (associateBoundary L association joined) := by
  refine .bind (.attempt (submit_same _)) fun answer => ?_
  cases answer with
  | ok => exact .pure _
  | error =>
    refine .bind (rollbackBss_same _ _) fun rollback => ?_
    refine .bind (update_same fun s => ?_) fun _ => .fail _
    cases rollback <;> rfl

end

theorem forgetPreauth_same (rollback : Except String Unit) :
    Within SameView (forgetPreauth association rollback : Client τ Unit) := by
  cases rollback with
  | ok => exact .bind (update_same fun _ => rfl) fun _ => release_same _
  | error => exact .pure _

/-- The view of a new association. -/
def associatedView (v : View) (association : LegacyWmeAssociation) : View :=
  { v with
    association := some association, next := max (v.next + 1) 1
    associated := some (max (v.next + 1) 1) }

theorem associateStation_view (joined : JoinedClientBss) (channel : ClientChannelLease) :
    Triple (fun s => s.view = v) (associateStation L association joined channel)
      (fun _ s => s.view = associatedView v association)
      (fun _ s => s.view = v ∨ s.view = { v with isOpen := false }) := by
  refine .bind ((same_triple nextSequence_same).weaken_error fun _ _ h => .inl h) fun sequence => ?_
  refine .ofExcept_bind (fun command _ => ?_) fun _ _ h => .inl h
  refine .attempt_bind (same_triple (submit_same _)) (fun _ => .modify ?_) fun error => ?_
  · rintro s rfl
    rfl
  -- the port is closed first; what follows leaves the view as it is
  refine .bind (R := fun _ s => s.view = { v with isOpen := false }) (.modify ?_) fun _ => ?_
  · rintro s rfl
    rfl
  have hk : ∀ {α : Type} {x : Client τ α}, Within SameView x →
      Triple (fun s => s.view = { v with isOpen := false }) x
        (fun _ s => s.view = { v with isOpen := false })
        (fun _ s => s.view = v ∨ s.view = { v with isOpen := false }) :=
    fun hx => (same_triple hx).weaken_error fun _ _ h => .inr h
  refine .bind (hk (.attempt (send_same _ _))) fun rollbackWcid => ?_
  refine .bind (hk (rollbackBss_same _ _)) fun rollback => ?_
  refine .bind (hk (update_same fun s => ?_)) fun _ => ?_
  · cases rollback <;> rfl
  refine .bind (hk (forgetPreauth_same _ _)) fun _ => ?_
  refine .bind (hk (update_same fun _ => rfl)) fun _ => ?_
  exact .fail fun _ h => .inr h

theorem associate_view (channel : ClientChannelLease) :
    Triple (fun s => s.view = v) (associate L association channel)
      (fun _ s => v.association = none ∧ s.view = associatedView v association)
      (fun _ s => s.view = v ∨ v.association = none ∧ s.view = { v with isOpen := false }) := by
  refine .look_pre (p := (·.view = v)) (fun _ hs => hs) ?_
  rintro state rfl
  split
  · exact .fail fun _ h => .inl h
  split
  · exact .fail fun _ h => .inl h
  refine .ite (fun _ => .fail fun _ h => .inl h) fun hclean => ?_
  have hnone : state.association = none := by
    simp only [not_or] at hclean
    simpa using hclean.1
  refine .bind (part_triple nextSequence_same) fun sequence => ?_
  refine .ofExcept_bind (fun bss _ => ?_) fun _ _ h => .inl h
  refine .bind (part_triple (update_same ?_)) fun _ => ?_
  · exact fun _ => rfl
  refine .bind (part_triple (associateBss_same _ _ _)) fun _ => ?_
  refine .bind (part_triple (associateRlm_same _ _ _)) fun _ => ?_
  refine .bind (part_triple (associateBoundary_same _ _)) fun _ => ?_
  refine (associateStation_view association _ channel).conseq (fun _ h => h) ?_ ?_
  · exact fun _ _ h => ⟨hnone, h⟩
  · exact fun _ _ h => h.imp_right fun h => ⟨hnone, h⟩

end

/-! ## Keys -/

theorem installKey_view (what : String) (command : ClientCommand) :
    Triple (fun s => s.view = v) (installKey L what command) (fun _ s => s.view = v)
      (fun _ s => s.view = v ∨ Closes v s.view) := by
  refine .attempt_bind (same_triple (submit_same _)) (fun _ => .pure fun _ h => h) fun error => ?_
  refine .bind (R := fun _ s => s.view = { v with isOpen := false }) (.modify ?_) fun _ => ?_
  · rintro s rfl
    rfl
  refine .bind ?_ fun rollback =>
    .fail fun _ h => .inr h
  intro s hs
  have hclosed := teardown_closes (L := L) s
  rw [hs] at hclosed
  exact ⟨fun _ _ => { hclosed with }, fun e he => by cases he⟩

/-- An operation that leaves the view `w` or, if it fails, the old one or a closed port. -/
abbrev Keying (v : View) (x : Client τ Unit) (w : View) : Prop :=
  Triple (fun s => s.view = v) x (fun _ s => s.view = w) fun _ s => s.view = v ∨ Closes v s.view

theorem associated_bind {rest : LegacyWmeAssociation → UInt8 → Client τ Unit} {missing : String}
    {w : View} (hrest : ∀ association sequence, Keying v (rest association sequence) w) :
    Triple (fun s => s.view = v) (do
        match (← firmware).association with
        | none => Eff.fail missing
        | some association => nextSequence >>= rest association)
      (fun _ s => v.association.isSome = true ∧ s.view = w)
      (fun _ s => s.view = v ∨ Closes v s.view) := by
  refine .look_pre (p := (v.association = ·.association))
    (fun s hs => congrArg View.association hs.symm) fun state hassoc => ?_
  cases hst : state.association with
  | none => exact .fail fun _ h => .inl h
  | some association =>
    refine .weaken_post (.bind ((same_triple nextSequence_same).weaken_error fun _ _ h => .inl h)
      (hrest association)) fun _ s h => ⟨?_, h⟩
    rw [hassoc, hst]
    rfl

theorem encoded_bind {what : String} {g : Effects → Effects}
    {encode : Encoded} {w : View → View} (hf : ∀ s, (f s).view = s.view)
    (hg : ∀ s, (g s).view = w s.view) :
    Keying v (do
        let command ← Eff.ofExcept encode
        update f
        installKey L what command
        update g) (w v) := by
  refine .ofExcept_bind (fun command _ => ?_) fun _ _ h => .inl h
  refine .bind (R := fun _ s => s.view = v) (.modify fun s hs => (hf s.state).trans hs) fun _ => ?_
  refine .bind (installKey_view what command) fun _ => .modify fun s hs => ?_
  rw [← hs]
  exact hg s.state

theorem installIgtk_view (keyId : UInt8) (key : Bytes) :
    Triple (fun s => s.view = v) (installIgtk L keyId key)
      (fun _ s => v.association.isSome = true ∧ s.view = { v with igtkInstalled := true })
      (fun _ s => s.view = v ∨ Closes v s.view) := by
  refine associated_bind fun association sequence => .look_any fun state => ?_
  cases state.gtk with
  | none => exact .fail fun _ h => .inl h
  | some =>
    exact encoded_bind (w := fun v => { v with igtkInstalled := true }) (fun _ => rfl) fun _ => rfl

end Client

/-! ## One step -/

/-- The generation that frames are sent and received under. -/
def View.Current (v : View) : Bool → ClientDataGeneration → Prop
  | true, .association generation => v.associated = some generation
  | false, .authorized generation => v.authorized = some generation
  | _, _ => False

/-- The keys that the port needs. -/
def View.Keyed (v : View) : Prop :=
  ∃ association, v.association = some association ∧ v.ptkInstalled = true ∧
    v.gtk.isSome = true ∧ (association.mfpRequired = true → v.igtkInstalled = true)

/-- The operations that never touch the view. -/
def ClientOp.Quiet : ClientOp → Prop
  | .allocatePeerWcid | .reserveMcuSequence | .bindJoin .. | .preparePreauthPeer ..
  | .programEdca _ | .completePostAssocInterface => True
  | _ => False

/-- Everything that an operation can do to the view. -/
inductive Turned (v : View) : ClientOp → Except String Unit → View → Prop
  | quiet {op result} (hop : op.Quiet) : Turned v op result v
  | refused {op error} : Turned v op (.error error) v
  | stopped {op error v'} (hclosed : Closes v v') : Turned v op (.error error) v'
  | unassociated {association channel error} (hnone : v.association = none) :
      Turned v (.associate association channel) (.error error) { v with isOpen := false }
  | associated {association channel} (hnone : v.association = none) :
      Turned v (.associate association channel) (.ok ()) (associatedView v association)
  | ptk {key rsc} (hsome : v.association.isSome = true) :
      Turned v (.installPtk key rsc) (.ok ()) { v with
        ptkInstalled := true, ptkRxPn := some (Vector.replicate 16 (maskRsc rsc)) }
  | gtk {keyId key rsc} (hsome : v.association.isSome = true) :
      Turned v (.installGtk keyId key rsc) (.ok ()) { v with
        gtk := some ⟨keyId, key⟩
        gtkRxPn := some (keyId, Vector.replicate 16 (maskRsc rsc)) }
  | igtk {keyId key} (hsome : v.association.isSome = true) :
      Turned v (.installIgtk keyId key) (.ok ()) { v with igtkInstalled := true }
  | closed {v'} (hclosed : Closes v v') : Turned v (.setControlledPort false) (.ok ()) v'
  | stayed (hopen : v.isOpen = true) : Turned v (.setControlledPort true) (.ok ()) v
  | opened (hkeyed : v.Keyed) (hclosed : v.isOpen = false) :
      Turned v (.setControlledPort true) (.ok ()) { v with
        isOpen := true, next := max (v.next + 1) 1, authorized := some (max (v.next + 1) 1) }
  | published {token generation} (hcurrent : v.Current true generation ∨ v.Current false generation)
      (hfresh : ∀ tx ∈ v.outstanding, tx.1 ≠ token) :
      Turned v (.publishTx token generation) (.ok ())
        { v with outstanding := v.outstanding ++ [(token, generation)] }
  | completed {token tx outstanding} (hperm : (tx :: outstanding).Perm v.outstanding) :
      Turned v (.completeTx token) (.ok ()) { v with outstanding := outstanding }
  | plain {rx} (hplain : rx.securityMode = 0 ∧ rx.eapol = true)
      (hcurrent : v.Current rx.eapol rx.generation) : Turned v (.deliverRx rx) (.ok ()) v
  | pairwise {rx counters counters' replayed} (hprotected : rx.securityMode = 4)
      (hgroup : rx.group = false) (hcurrent : v.Current rx.eapol rx.generation)
      (hcounters : v.ptkRxPn = some counters) (htid : rx.tid < 16)
      (hadvance : advance counters rx replayed = .ok counters') :
      Turned v (.deliverRx rx) (.ok ()) { v with ptkRxPn := some counters' }
  | group {rx counters counters' replayed} (hprotected : rx.securityMode = 4)
      (hgroup : rx.group = true) (hcurrent : v.Current rx.eapol rx.generation)
      (hcounters : v.gtkRxPn = some (rx.keyId, counters)) (htid : rx.tid < 16)
      (hadvance : advance counters rx replayed = .ok counters') :
      Turned v (.deliverRx rx) (.ok ()) { v with gtkRxPn := some (rx.keyId, counters') }
  | management {rx counters counters' replayed} (hcounters : v.ptkRxPn = some counters)
      (htid : rx.tid < 16) (hadvance : advance counters rx replayed = .ok counters') :
      Turned v (.deliverProtectedManagementRx rx) (.ok ()) { v with ptkRxPn := some counters' }
  | torn {v'} (hclosed : Closes v v') : Turned v .teardown (.ok ()) v'

namespace ClientFirmwareEffectsState

variable {s s' : Effects}

theorem allocatePeerWcid_eq (h : Prod.snd <$> s.allocatePeerWcid = .ok s') :
    ∃ wcidAllocator allocatedPeerWcid, s' = { s with wcidAllocator, allocatedPeerWcid } := by
  rw [map_eq_pure_bind] at h
  obtain ⟨answer, halloc, ⟨⟩⟩ := bind_eq_ok.mp h
  obtain ⟨-, halloc⟩ := guard_eq_ok.mp halloc
  obtain ⟨allocated, -, ⟨⟩⟩ := bind_eq_ok.mp halloc
  exact ⟨_, _, rfl⟩

theorem bindJoin_eq {bssid : MacAddress} {channel : ClientChannelLease} {beaconInterval : UInt16}
    {dtimPeriod : UInt8} (h : s.bindJoin bssid channel beaconInterval dtimPeriod = .ok s') :
    ∃ joined, s' = { s with joined } := by
  obtain ⟨-, h⟩ := guard_eq_ok.mp h
  obtain ⟨-, ⟨⟩⟩ := guard_eq_ok.mp h
  exact ⟨_, rfl⟩

variable {generation : ClientDataGeneration}

theorem txGeneration_current {eapol : Bool} (h : s.txGeneration eapol = .ok generation) :
    s.view.Current eapol generation := by
  unfold txGeneration at h
  cases eapol with
  | true =>
    cases hg : s.associationGeneration with
    | none => simp [hg] at h
    | some =>
      simp only [hg, if_true] at h
      cases h
      exact hg
  | false =>
    cases hg : s.authorizedGeneration with
    | none => simp [hg] at h
    | some =>
      simp only [hg, Bool.false_eq_true, if_false] at h
      cases h
      exact hg

theorem setControlledPort_turned {isOpen : Bool} (h : s.setControlledPort isOpen = .ok s') :
    Turned s.view (.setControlledPort isOpen) (.ok ()) s'.view := by
  unfold setControlledPort at h
  cases isOpen with
  | false =>
    cases h
    exact .closed ⟨rfl, rfl, .inl rfl, rfl, rfl, .inl rfl, .inl rfl⟩
  | true =>
    by_cases hopen : s.controlledPortOpen = true
    · rw [if_pos hopen] at h
      cases h
      exact .stayed hopen
    · rw [if_neg hopen] at h
      cases hassoc : s.association with
      | none => simp [hassoc] at h
      | some association =>
        simp only [hassoc] at h
        by_cases hks : s.firmwareUncertain ∨ ¬ s.ptkInstalled ∨ s.gtk.isNone ∨
            (association.mfpRequired ∧ ¬ s.igtkInstalled)
        · simp only [if_pos hks] at h
          cases h
        · simp only [if_neg hks] at h
          have hview : s'.view = { s.view with
              isOpen := true, next := s.mintGeneration, authorized := some s.mintGeneration } := by
            cases h
            simp [view, hassoc]
          rw [hview]
          simp only [not_or, not_not, not_and, Option.isNone_iff_eq_none] at hks
          obtain ⟨-, hptk, hgtk, higtk⟩ := hks
          have hkeyed : s.view.Keyed :=
            ⟨association, hassoc, hptk, Option.isSome_iff_ne_none.mpr hgtk, higtk⟩
          exact .opened hkeyed (Bool.eq_false_of_not_eq_true hopen)

theorem publishTx_turned {token : UInt16} (h : s.publishTx token generation = .ok s') :
    Turned s.view (.publishTx token generation) (.ok ()) s'.view := by
  obtain ⟨current, hcurrent, h⟩ := bind_eq_ok.mp h
  obtain ⟨hfresh, ⟨⟩⟩ := guard_eq_ok.mp h
  simp only [ne_eq, not_or, not_not, List.any_eq_true, decide_eq_true_eq, not_exists,
    not_and] at hfresh
  obtain ⟨rfl, hfresh⟩ := hfresh
  refine .published ?_ hfresh
  cases current with
  | association => exact .inl (txGeneration_current hcurrent)
  | authorized => exact .inr (txGeneration_current hcurrent)

theorem completeTx_turned {token : UInt16} (h : s.completeTx token = .ok s') :
    Turned s.view (.completeTx token) (.ok ()) s'.view := by
  unfold completeTx at h
  split at h
  · cases h
  next index hidx =>
    cases h
    obtain ⟨hlt, -⟩ := List.findIdx?_eq_some_iff_getElem.mp hidx
    exact .completed (swapRemove_perm hlt)

variable {rx : ClientRxCandidate}

theorem deliverRx_turned (h : s.deliverRx rx = .ok s') :
    Turned s.view (.deliverRx rx) (.ok ()) s'.view := by
  obtain ⟨current, hcurrent, h⟩ := bind_eq_ok.mp h
  obtain ⟨hforeign, h⟩ := guard_eq_ok.mp h
  simp only [not_or, ne_eq, not_not] at hforeign
  obtain ⟨hgen, -, htid⟩ := hforeign
  have hcurrent : s.view.Current rx.eapol rx.generation := hgen ▸ txGeneration_current hcurrent
  have htid : rx.tid < 16 := by simpa using htid
  split at h
  next hplain =>
    cases h
    exact .plain hplain hcurrent
  obtain ⟨hccmp, h⟩ := guard_eq_ok.mp h
  have hprotected : rx.securityMode = 4 := by
    simp only [ClientRxCandidate.failedCcmp, Bool.or_eq_true, decide_eq_true_eq, not_or,
      not_not, ne_eq] at hccmp
    exact hccmp.1.1.1.1.1
  split at h
  next hgroup =>
    cases hcounters : s.gtkRxPn with
    | none => simp [hcounters] at h
    | some pair =>
      obtain ⟨id, counters⟩ := pair
      simp only [hcounters] at h
      obtain ⟨hid, h⟩ := guard_eq_ok.mp h
      obtain ⟨counters', hadvance, ⟨⟩⟩ := bind_eq_ok.mp h
      rw [ne_eq, not_not] at hid
      subst hid
      exact .group hprotected hgroup hcurrent hcounters htid hadvance
  next hgroup =>
    obtain ⟨-, h⟩ := guard_eq_ok.mp h
    cases hcounters : s.ptkRxPn with
    | none => simp [hcounters] at h
    | some counters =>
      simp only [hcounters] at h
      obtain ⟨counters', hadvance, ⟨⟩⟩ := bind_eq_ok.mp h
      exact .pairwise hprotected (Bool.eq_false_of_not_eq_true hgroup) hcurrent hcounters htid
        hadvance

theorem deliverProtectedManagementRx_turned (h : s.deliverProtectedManagementRx rx = .ok s') :
    Turned s.view (.deliverProtectedManagementRx rx) (.ok ()) s'.view := by
  unfold deliverProtectedManagementRx at h
  split at h
  · cases h
  split at h
  · cases h
  obtain ⟨hcurrent, h⟩ := guard_eq_ok.mp h
  obtain ⟨-, h⟩ := guard_eq_ok.mp h
  cases hcounters : s.ptkRxPn with
  | none => simp [hcounters] at h
  | some =>
    simp only [hcounters] at h
    obtain ⟨counters', hadvance, ⟨⟩⟩ := bind_eq_ok.mp h
    have htid : rx.tid < 16 := by
      simp only [not_or] at hcurrent
      simpa using hcurrent.2.2.2.2.2.2.2.1
    exact .management hcounters htid hadvance

end ClientFirmwareEffectsState

/-! ## Every operation -/

variable {f : Effects → Except String Effects}

theorem Client.step_apply (s : ClientSession τ) :
    (step f : Client τ Unit) s = match f s.state with
      | .ok s' => ⟨.ok (), { s with state := s' }, []⟩
      | .error e => ⟨.error e, s, []⟩ := by
  simp only [step, firmware, update, Eff.bind_apply, Eff.look_apply, Eff.ofExcept_apply]
  cases f s.state <;> rfl

variable {op : ClientOp} {s : ClientSession τ}

theorem Turned.of_step (h : ∀ s', f s.state = .ok s' → Turned s.view op (.ok ()) s'.view) :
    Turned s.view op ((step f : Client τ Unit) s).result
      ((step f : Client τ Unit) s).state.view := by
  rw [step_apply]
  cases hf : f s.state with
  | ok s' => exact h s' hf
  | error => exact .refused

theorem Turned.of_triple {x : Client τ Unit} {Q : Unit → ClientSession τ → Prop}
    {E : String → ClientSession τ → Prop}
    (hx : Triple (fun s' : ClientSession τ => s'.view = s.view) x Q E)
    (hok : ∀ u s', Q u s' → Turned s.view op (.ok ()) s'.view)
    (herr : ∀ e s', E e s' → Turned s.view op (.error e) s'.view) :
    Turned s.view op (x s).result (x s).state.view := by
  obtain ⟨ho, he⟩ := hx s rfl
  cases hr : (x s).result with
  | ok a => exact hok a _ (ho a hr)
  | error e => exact herr e _ (he e hr)

theorem Turned.of_quiet {x : Client τ Unit} (hx : Within SameView x) (hop : op.Quiet) :
    Turned s.view op (x s).result (x s).state.view := by
  have hview : (x s).state.view = s.view := hx s
  rw [hview]
  exact .quiet hop

theorem Turned.of_failed {v v' : View} {e : String} (h : v' = v ∨ Closes v v') :
    Turned v op (.error e) v' := by
  rcases h with rfl | h
  · exact .refused
  · exact .stopped h

theorem ClientOp.turned (L : ClientLink τ) (op : ClientOp) (s : ClientSession τ) :
    Turned s.view op (op.exec L s).result (op.exec L s).state.view := by
  cases op with
  | allocatePeerWcid =>
    refine Turned.of_quiet (step_within fun s s' h => ?_) trivial
    obtain ⟨_, _, rfl⟩ := allocatePeerWcid_eq h
    rfl
  | reserveMcuSequence =>
    exact .of_quiet (.bind nextSequence_same fun _ => .pure _) trivial
  | bindJoin =>
    refine Turned.of_quiet (step_within fun s s' h => ?_) trivial
    obtain ⟨_, rfl⟩ := bindJoin_eq h
    rfl
  | preparePreauthPeer peer channel =>
    exact Turned.of_quiet (preparePreauthPeer_same peer channel) trivial
  | programEdca params => exact Turned.of_quiet (programEdca_same params) trivial
  | completePostAssocInterface =>
    exact .of_quiet completePostAssocInterface_same trivial
  | associate association channel =>
    refine Turned.of_triple (associate_view association channel) ?_ ?_
    · rintro _ s' ⟨hnone, hview⟩
      exact hview ▸ .associated hnone
    · rintro e s' (hview | ⟨hnone, hview⟩)
      · exact hview ▸ .refused
      · exact hview ▸ .unassociated hnone
  | installPtk key rsc =>
    refine Turned.of_triple (associated_bind fun association sequence =>
      encoded_bind (w := fun v => { v with
        ptkInstalled := true, ptkRxPn := some (Vector.replicate 16 (maskRsc rsc)) })
      (fun _ => rfl) fun _ => rfl) ?_ fun _ _ h => .of_failed h
    rintro _ s' ⟨hsome, hview⟩
    exact hview ▸ .ptk hsome
  | installGtk keyId key rsc =>
    refine Turned.of_triple (associated_bind fun association sequence =>
      encoded_bind (w := fun v => { v with
        gtk := some ⟨keyId, key⟩
        gtkRxPn := some (keyId, Vector.replicate 16 (maskRsc rsc)) })
      (fun _ => rfl) fun _ => rfl) ?_ fun _ _ h => .of_failed h
    rintro _ s' ⟨hsome, hview⟩
    exact hview ▸ .gtk hsome
  | installIgtk keyId key =>
    refine Turned.of_triple (installIgtk_view keyId key) ?_ fun _ _ h => .of_failed h
    rintro _ s' ⟨hsome, hview⟩
    exact hview ▸ .igtk hsome
  | setControlledPort => exact .of_step fun s' h => setControlledPort_turned h
  | publishTx => exact .of_step fun s' h => publishTx_turned h
  | completeTx => exact .of_step fun s' h => completeTx_turned h
  | deliverRx => exact .of_step fun s' h => deliverRx_turned h
  | deliverProtectedManagementRx => exact .of_step fun s' h => deliverProtectedManagementRx_turned h
  | teardown =>
    have hclosed := teardown_closes (L := L) s
    show Turned s.view .teardown (Client.teardown L s).result (Client.teardown L s).state.view
    cases (Client.teardown L s).result with
    | ok => exact .torn hclosed
    | error => exact .stopped hclosed

end Drv.Mt7921
