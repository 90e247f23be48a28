import Drv.Laws.Mt7921.Client

/-!
# The controlled port

Data other than EAPOL is sent and received under the authorized
generation, which is there exactly while the controlled port is open, and
the port is open only over an association with its keys.
`controlled_port_orderly` says so of every run. Generations are numbers of
64 bits that wrap; the values of a run are its count modulo `2 ^ 64 - 1`
(`issuedIn_get`), so a value comes back only after all the others.

The handshake that makes the keys is not modelled.
-/

namespace Drv.Mt7921

open List ClientOp ClientStep

variable {τ : Type}

/-! ## Every state -/

structure Ported (v : View) : Prop where
  authorized : v.authorized.isSome = true ↔ v.isOpen = true
  keyed : v.isOpen = true → v.Keyed
  tokens : (v.outstanding.map Prod.fst).Nodup

variable {v v' : View}

theorem Closes.ported (h : Closes v v') (hv : Ported v) : Ported v' where
  authorized := by simp [h.authorized, h.isOpen]
  keyed hopen := by simp [h.isOpen] at hopen
  tokens := h.outstanding ▸ hv.tokens

variable {result : Except String Unit} {op : ClientOp}

theorem Turned.ported (h : Turned v op result v') (hv : Ported v) : Ported v' := by
  have hkeyed := hv.keyed
  have hauth := hv.authorized
  cases h with
  | quiet | refused | stayed | plain => exact hv
  | stopped hcl | closed hcl | torn hcl => exact hcl.ported hv
  | unassociated hn | associated hn =>
    -- without an association the port is closed
    have hopen : v.isOpen = false := by
      by_contra hopen
      obtain ⟨association, hsome, -⟩ := hkeyed (by simpa using hopen)
      rw [hn] at hsome
      cases hsome
    exact ⟨by simpa [Client.associatedView, hopen] using hauth,
      by simp [Client.associatedView, hopen], hv.tokens⟩
  | ptk | gtk | igtk =>
    refine ⟨hauth, fun hopen => ?_, hv.tokens⟩
    obtain ⟨association, hassoc, hptk, hgtk, higtk⟩ := hkeyed hopen
    exact ⟨association, hassoc, by simp [hptk], by simp [hgtk], fun hmfp => by simp [higtk hmfp]⟩
  | opened hkeyed => exact ⟨by simp, fun _ => hkeyed, hv.tokens⟩
  | published hcur hfresh =>
    refine ⟨hauth, hkeyed, ?_⟩
    rw [map_append, nodup_append]
    refine ⟨hv.tokens, by simp, ?_⟩
    rintro token htoken _ hmem rfl
    obtain ⟨tx, htx, rfl⟩ := mem_map.mp htoken
    exact hfresh tx htx (by simpa using hmem)
  | completed hp =>
    refine ⟨hauth, hkeyed, ?_⟩
    have hnodup := ((hp.map Prod.fst).nodup_iff).mpr hv.tokens
    exact (nodup_cons.mp hnodup).2
  | pairwise | group | management => exact ⟨hauth, hkeyed, hv.tokens⟩

/-! ## Generations -/

/-- The generation that a step issued. -/
def ClientStep.issued (step : ClientStep τ) : List UInt64 :=
  match step.op, step.result with
  | .associate .., .ok () => step.after.view.associated.toList
  | .setControlledPort true, .ok () =>
    if step.before.view.isOpen then [] else step.after.view.authorized.toList
  | _, _ => []

def issuedIn (steps : List (ClientStep τ)) : List UInt64 := steps.flatMap issued

/-- The generations that a 64-bit number goes through, without 0. -/
def generations : Nat := 2 ^ 64 - 1

theorem mint_toNat (next : UInt64) : (max (next + 1) 1).toNat = next.toNat % generations + 1 := by
  have hlt := next.toNat_lt
  have hmax : max (next + 1) 1 = if next + 1 ≤ 1 then 1 else next + 1 := rfl
  have hsum : (next + 1).toNat = (next.toNat + 1) % 2 ^ 64 := UInt64.toNat_add next 1
  rw [hmax, generations]
  split
  next h =>
    have hle : (next + 1).toNat ≤ 1 := UInt64.le_iff_toNat_le.mp h
    rw [UInt64.toNat_one]
    omega
  next h =>
    have hgt : ¬ (next + 1).toNat ≤ 1 := fun hle => h (UInt64.le_iff_toNat_le.mpr hle)
    omega

/-- What the generations of a step are. -/
structure Minted (step : ClientStep τ) : Prop where
  next : step.issued = [] ∧ step.after.view.next = step.before.view.next ∨
    step.issued = [step.after.view.next] ∧
      step.after.view.next = max (step.before.view.next + 1) 1
  associated : ∀ generation, step.after.view.associated = some generation →
    step.before.view.associated = some generation ∨ generation ∈ step.issued
  authorized : ∀ generation, step.after.view.authorized = some generation →
    step.before.view.authorized = some generation ∨ generation ∈ step.issued

private theorem some_of_same_or_gone {a b : Option UInt64} (h : b = a ∨ b = none) {g : UInt64}
    (hg : b = some g) : a = some g := by
  rcases h with rfl | rfl
  · exact hg
  · cases hg

variable {step : ClientStep τ}

theorem Closes.minted (h : Closes step.before.view step.after.view) (hiss : step.issued = []) :
    Minted step where
  next := .inl ⟨hiss, h.next⟩
  associated _ hg := .inl (some_of_same_or_gone h.associated hg)
  authorized g hg := by simp [h.authorized] at hg

theorem Minted.of_same {v : View} (hiss : step.issued = []) (hv : step.after.view = v)
    (h : (v.next, v.associated, v.authorized) = (step.before.view.next, step.before.view.associated, step.before.view.authorized))
    : Minted step := by
  subst hv
  simp only [Prod.mk.injEq] at h
  exact ⟨.inl ⟨hiss, h.1⟩, fun _ hg => .inl (h.2.1 ▸ hg), fun _ hg => .inl (h.2.2 ▸ hg)⟩

theorem issued_error {before after : ClientSession τ} {error : String} :
    issued ⟨before, op, .error error, after⟩ = [] := by
  cases op with
  | setControlledPort isOpen => cases isOpen <;> rfl
  | _ => rfl

theorem Turned.minted {before after : ClientSession τ}
    (h : Turned before.view op result after.view) : Minted ⟨before, op, result, after⟩ := by
  generalize hv' : after.view = v' at h
  cases h with
  | quiet hop => exact .of_same (by cases op <;> first | rfl | cases hop) hv' rfl
  | refused => exact .of_same issued_error hv' rfl
  | stopped hcl => exact Closes.minted (hv' ▸ hcl) issued_error
  | closed hcl | torn hcl => exact Closes.minted (hv' ▸ hcl) rfl
  | unassociated => exact .of_same rfl hv' rfl
  | @associated association channel hn =>
    have hiss : issued ⟨before, .associate association channel, .ok (), after⟩ =
        [after.view.next] := by
      simp only [issued, hv', Client.associatedView, Option.toList_some]
    refine ⟨.inr ⟨hiss, by rw [hv']; rfl⟩, fun g hg => .inr ?_, fun g hg => .inl ?_⟩
    · rw [hiss]
      rw [hv'] at hg ⊢
      exact mem_singleton.mpr (Option.some.inj hg).symm
    · rw [hv'] at hg
      exact hg
  | stayed hopen =>
    have hiss : issued ⟨before, .setControlledPort true, .ok (), after⟩ = [] := if_pos hopen
    exact .of_same hiss hv' rfl
  | opened hkeyed hcl =>
    have hiss : issued ⟨before, .setControlledPort true, .ok (), after⟩ = [after.view.next] := by
      simp only [issued, hcl, Bool.false_eq_true, if_false, hv', Option.toList_some]
    refine ⟨.inr ⟨hiss, by rw [hv']⟩, fun g hg => .inl ?_, fun g hg => .inr ?_⟩
    · rw [hv'] at hg
      exact hg
    · rw [hiss]
      rw [hv'] at hg ⊢
      exact mem_singleton.mpr (Option.some.inj hg).symm
  | _ => exact .of_same rfl hv' rfl

variable (L : ClientLink τ)

theorem issuedIn_get (ops : List ClientOp) (s : ClientSession τ) {i : Nat} {generation : UInt64}
    (h : (issuedIn (run L s ops))[i]? = some generation) :
    generation.toNat = (s.view.next.toNat + i) % generations + 1 := by
  induction ops generalizing s i with
  | nil => cases h
  | cons op rest ih =>
    have hminted := (turned L op s).minted
    rw [issuedIn, run, flatMap_cons] at h
    rcases hminted.next with ⟨hiss, hnx⟩ | ⟨hiss, hnx⟩
    · rw [hiss, nil_append] at h
      rw [ih _ h, hnx]
    · rw [hiss] at h
      have hmint := mint_toNat s.view.next
      cases i with
      | zero =>
        cases h
        exact (congrArg UInt64.toNat hnx).trans hmint
      | succ =>
        have hrest := ih _ h
        rw [hrest, hnx, hmint]
        simp only [generations]
        omega

/-! ## Outstanding frames -/

/-- The removal of a key, a station or a BSS. -/
def ClientCommand.Removes : ClientCommand → Prop
  | .removeWcid .. | .disableKeys .. | .bss _ _ _ _ false => True
  | _ => False

def Submission.Removes : Submission → Prop
  | .uni _ command | .ce command | .ceNoAck command => command.Removes
  | .afterBss => False

/-- Since a log, nothing was removed. -/
def Retains (log : List Submitted) (s : ClientSession (τ × List Submitted)) : Prop :=
  ∃ more, s.log = log ++ more ∧ ∀ c ∈ more, ¬ c.submission.Removes

/-- The same, with frames outstanding. -/
def Busy (log : List Submitted) (s : ClientSession (τ × List Submitted)) : Prop :=
  s.state.outstandingTx ≠ [] ∧ Retains log s

section
variable {L : ClientLink τ} {log : List Submitted}

open Client

theorem update_busy {f : Effects → Effects}
    (hf : ∀ s, (f s).outstandingTx = s.outstandingTx) :
    Triple (Busy log) (update f : LoggingClient τ Unit) (fun _ => Busy log)
      (fun _ => Retains log) := by
  refine .modify fun s hs => ?_
  exact ⟨(hf s.state).symm ▸ hs.1, hs.2⟩

theorem submit_busy {submission : Submission} (h : ¬ submission.Removes) :
    Leads (Busy log) (submit L.logged submission) (Busy log) := by
  rintro s ⟨hout, more, hlog, hm⟩
  have hbusy : Busy log (submit L.logged submission s).state := by
    refine ⟨hout, more ++ [⟨submission, (L.handle submission s.link.1).1⟩], ?_, ?_⟩
    · show s.log ++ _ = _
      rw [hlog, append_assoc]
    · exact forall_mem_concat hm h
  exact ⟨fun _ _ => hbusy, fun _ _ => hbusy⟩

theorem teardown_busy :
    Triple (Busy log) (teardown L.logged) (fun _ _ => False) (fun _ => Retains log) := by
  refine .bind (update_busy fun _ => rfl) fun _ => ?_
  refine .look_pre (p := (·.outstandingTx ≠ [])) (fun _ hs => hs.1) fun s hout => ?_
  refine .ite (fun _ => ?_) fun hnil => absurd hout hnil
  refine .bind (R := fun _ => Retains log) (.modify fun s hs => hs.2) fun _ => ?_
  exact .fail fun _ h => h

theorem encodeKeyV2Command_not_removes {sequence bssIndex wcid muarIndex keyId : UInt8}
    {key : Bytes} {gtk : Option (UInt8 × Bytes)} {command : ClientCommand}
    (h : encodeKeyV2Command sequence bssIndex wcid muarIndex keyId key gtk = .ok command) :
    ¬ command.Removes := by
  obtain ⟨-, h⟩ := guard_eq_ok.mp h
  obtain ⟨-, ⟨⟩⟩ := guard_eq_ok.mp h
  exact id

theorem encoded_busy {what : String} {encode : Encoded}
    {f g : Effects → Effects}
    (henc : ∀ command, encode = .ok command → ¬ command.Removes)
    (hf : ∀ s, (f s).outstandingTx = s.outstandingTx)
    (hg : ∀ s, (g s).outstandingTx = s.outstandingTx) :
    Leads (Busy log) (do
        let command ← Eff.ofExcept encode
        update f
        installKey L.logged what command
        update g) (Retains log) := by
  refine .ofExcept_bind (fun command hcmd => ?_) fun _ _ h => h.2
  refine .bind (update_busy hf) fun _ => ?_
  refine .bind (R := fun _ => Busy log) (.attempt_bind (submit_busy (henc command hcmd))
    (fun _ => .pure fun _ h => h) fun error => .bind (update_busy fun _ => rfl) fun _ => ?_)
    fun _ => ?_
  · refine .attempt_bind teardown_busy (fun _ => ?_) fun e => .fail fun _ h => h
    exact .of_pre (fun _ h => h) False.elim
  · exact (update_busy hg).weaken_post fun _ _ h => h.2

theorem associated_busy {rest : LegacyWmeAssociation → UInt8 → LoggingClient τ Unit}
    {missing : String} (hrest : ∀ association sequence,
      Leads (Busy log) (rest association sequence) (Retains log)) :
    Leads (Busy log) (do
        match (← firmware).association with
        | none => Eff.fail missing
        | some association => nextSequence >>= rest association) (Retains log) := by
  refine .look_any fun s => ?_
  cases s.association with
  | none => exact .fail fun _ h => h.2
  | some association =>
    refine .bind (.bind (update_busy fun _ => rfl) fun _ => ?_) (hrest association)
    exact .look_any fun s => .pure fun _ h => h

/-- The operations that may tear everything down. -/
def ClientOp.TearsDown : ClientOp → Prop
  | .teardown | .installPtk .. | .installGtk .. | .installIgtk .. => True
  | _ => False

theorem exec_busy (hop : op.TearsDown) : Leads (Busy log) (op.exec L.logged) (Retains log) := by
  cases op with
  | teardown => exact teardown_busy.weaken_post fun _ _ h => h.elim
  | installPtk =>
    refine associated_busy fun association sequence => ?_
    refine encoded_busy (fun command h => ?_) (fun _ => rfl) fun _ => rfl
    exact encodeKeyV2Command_not_removes h
  | installGtk =>
    refine associated_busy fun association sequence => ?_
    refine encoded_busy (fun command h => ?_) (fun _ => rfl) fun _ => rfl
    exact encodeKeyV2Command_not_removes (guard_eq_ok.mp h).2
  | installIgtk =>
    refine associated_busy fun association sequence => .look_any fun s => ?_
    cases s.gtk with
    | none => exact .fail fun _ h => h.2
    | some =>
      refine encoded_busy (fun command h => ?_) (fun _ => rfl) fun _ => rfl
      exact encodeKeyV2Command_not_removes (guard_eq_ok.mp h).2
  | _ => cases hop

end

/-! ## Runs -/

/-- What every step of a run keeps to. -/
structure Orderly (step : ClientStep (τ × List Submitted)) : Prop where
  before : Ported step.before.view
  after : Ported step.after.view
  /-- Data is published and delivered under the current generation. -/
  published : ∀ token generation, step.op = .publishTx token (.authorized generation) →
    step.result = .ok () → step.before.view.authorized = some generation
  delivered : ∀ rx, step.op = .deliverRx rx → step.result = .ok () → rx.eapol = false →
    ∃ generation, rx.generation = .authorized generation ∧
      step.before.view.authorized = some generation
  /-- A generation is kept, given up or issued by the step. -/
  minted : Minted step
  contained : step.op.TearsDown → step.before.view.outstanding ≠ [] →
    ∀ c ∈ step.submitted, ¬ c.submission.Removes

theorem Turned.published_current {token : UInt16} {generation : UInt64}
    (h : Turned v (.publishTx token (.authorized generation)) result v') (hok : result = .ok ()) :
    v.authorized = some generation := by
  subst hok
  cases h with
  | quiet hop => cases hop
  | published hcur =>
    rcases hcur with hcur | hcur
    · cases hcur
    · exact hcur

theorem Turned.delivered_current {rx : ClientRxCandidate}
    (h : Turned v (.deliverRx rx) result v') (hok : result = .ok ()) :
    v.Current rx.eapol rx.generation := by
  subst hok
  cases h with
  | quiet hop => cases hop
  | plain _ hcur | pairwise _ _ hcur | group _ _ hcur => exact hcur

theorem exec_orderly (op : ClientOp) (s : ClientLog τ) (hs : Ported s.view) :
    Orderly ⟨s, op, (op.exec L.logged s).result, (op.exec L.logged s).state⟩ := by
  have hturn := op.turned L.logged s
  refine ⟨hs, hturn.ported hs, ?_, ?_, hturn.minted, fun hop hout => ?_⟩
  · rintro token generation rfl hres
    exact hturn.published_current hres
  · rintro rx rfl hres heapol
    have hcur := hturn.delivered_current hres
    rw [heapol] at hcur
    cases hgen : rx.generation with
    | association =>
      rw [hgen] at hcur
      cases hcur
    | authorized generation =>
      rw [hgen] at hcur
      exact ⟨generation, rfl, hcur⟩
  · have hbusy : Busy s.log s := ⟨hout, [], (append_nil _).symm, by simp⟩
    obtain ⟨more, hlog, hm⟩ := (exec_busy hop).state hbusy
    show ∀ c ∈ (op.exec L.logged s).state.log.drop s.log.length, ¬ c.submission.Removes
    rw [hlog, drop_left]
    exact hm

theorem run_orderly (ops : List ClientOp) (s : ClientLog τ) (hs : Ported s.view) :
    ∀ step ∈ run L.logged s ops, Orderly step := by
  induction ops generalizing s with
  | nil => exact fun step h => by cases h
  | cons op rest ih =>
    have hord := exec_orderly L op s hs
    exact forall_mem_cons.mpr ⟨hord, ih _ hord.after⟩

/-- A session that starts over. -/
def ClientSession.start (t : τ) : ClientSession (τ × List Submitted) := ⟨.default, (t, [])⟩

/-- In every run: a port that is open is authorized and keyed, data goes
under the current generation only, tokens are distinct, and nothing is
removed under an outstanding frame. A generation comes back only after all
the others. -/
theorem controlled_port_orderly (L : ClientLink τ) (t : τ) (ops : List ClientOp) :
    (∀ step ∈ run L.logged (.start t) ops, Orderly step) ∧
      ∀ i j generation, i < j →
        (issuedIn (run L.logged (.start t) ops))[i]? = some generation →
        (issuedIn (run L.logged (.start t) ops))[j]? = some generation →
        2 ^ 64 - 1 ≤ j - i := by
  refine ⟨run_orderly L ops _ ⟨by simp [ClientSession.start, ClientSession.view,
    ClientFirmwareEffectsState.view, ClientFirmwareEffectsState.default], ?_, nodup_nil⟩, ?_⟩
  · intro hopen
    cases hopen
  · intro i j generation hij hi hj
    have hfst := issuedIn_get L.logged ops _ hi
    have hsnd := issuedIn_get L.logged ops _ hj
    rw [hfst] at hsnd
    simp only [generations] at hsnd
    omega

/-! ## A generation that comes back -/

/-- The session after some operations. -/
def ClientOp.after (L : ClientLink τ) (s : ClientSession τ) (ops : List ClientOp) :
    ClientSession τ :=
  ops.foldl (fun s op => (op.exec L s).state) s

theorem ClientOp.run_append (s : ClientSession τ) (a b : List ClientOp) :
    run L s (a ++ b) = run L s a ++ run L (after L s a) b := by
  induction a generalizing s with
  | nil => rfl
  | cons op rest ih =>
    rw [cons_append, run, ih, run, cons_append]
    rfl

/-- The port can be opened. -/
def ClientSession.Ready (s : ClientSession τ) : Prop :=
  s.state.firmwareUncertain = false ∧ s.view.Keyed

theorem setControlledPort_ready {s : Effects}
    (huncer : s.firmwareUncertain = false) (hkeyed : s.view.Keyed)
    (hcl : s.controlledPortOpen = false) :
    s.setControlledPort true = .ok { s with
      controlledPortOpen := true, nextGeneration := s.mintGeneration
      authorizedGeneration := some s.mintGeneration } := by
  obtain ⟨association, hassoc, hptk, hgtk, higtk⟩ := hkeyed
  have hptk : s.ptkInstalled = true := hptk
  have hassoc : s.association = some association := hassoc
  have hgtk : s.gtk.isNone = false := by
    rw [Option.isNone_eq_false_iff]
    exact hgtk
  have higtk : association.mfpRequired = true → s.igtkInstalled = true := higtk
  have hks : ¬ (s.firmwareUncertain ∨ ¬ s.ptkInstalled ∨ s.gtk.isNone ∨
      (association.mfpRequired ∧ ¬ s.igtkInstalled)) := by
    simpa [huncer, hptk, hgtk] using higtk
  simp only [ClientFirmwareEffectsState.setControlledPort, hcl, hassoc, if_neg hks]
  simp

/-- Close and open the port, some times. -/
def toggles (n : Nat) : List ClientOp :=
  (replicate n [.setControlledPort false, .setControlledPort true]).flatten

theorem issuedIn_toggles (n : Nat) (s : ClientSession τ) (hs : s.Ready) :
    (issuedIn (run L s (toggles n))).length = n := by
  induction n generalizing s with
  | zero => rfl
  | succ n ih =>
    let closed : ClientSession τ := { s with state := { s.state with
      controlledPortOpen := false, authorizedGeneration := none } }
    have hclose : (setControlledPort false).exec L s = ⟨.ok (), closed, []⟩ := Client.step_apply s
    have hopen := Client.step_apply (f := fun s => s.setControlledPort true) closed
    rw [setControlledPort_ready (s := closed.state) hs.1 hs.2 rfl] at hopen
    have hops : toggles (n + 1) =
        .setControlledPort false :: .setControlledPort true :: toggles n := rfl
    have hexec : (setControlledPort true).exec L closed = _ := hopen
    rw [hops, run, hclose, run, hexec, issuedIn, flatMap_cons, flatMap_cons]
    have hrest := ih { closed with state := { closed.state with
      controlledPortOpen := true, nextGeneration := closed.state.mintGeneration
      authorizedGeneration := some closed.state.mintGeneration } } hs
    rw [issuedIn] at hrest
    simp only [length_append, hrest]
    rw [Nat.add_comm n 1, ← Nat.add_assoc]
    rfl

/-- A link that accepts everything. -/
def accepting : ClientLink Unit where
  handle _ t := (.ok (), t)

def exampleChannel : ClientChannelLease := ⟨⟨1, 36, 36, 0, 0⟩, 1⟩

def exampleAddress : MacAddress := #v[2, 0, 0, 0, 0, 2]

/-- A peer before authentication. -/
def examplePeer : LegacyWmeAssociation where
  bssIndex := 0
  peerWcid := ⟨1, by decide⟩
  aid := 0
  peer := exampleAddress
  rcpi := 100
  basicRates := 1
  legacyRates := 64
  htCap := none
  vhtCap := none
  bandwidth := 0
  negotiatedQos := false
  mfpRequired := false

/-- The same peer, associated. -/
def exampleAssociation : LegacyWmeAssociation := { examplePeer with aid := 1 }

/-- Associate with a peer. -/
def associating : List ClientOp :=
  [.bindJoin exampleAddress exampleChannel 100 2, .preparePreauthPeer examplePeer exampleChannel,
    .associate exampleAssociation exampleChannel]

/-- Install the keys that the port needs. -/
def keying : List ClientOp := [.installPtk (replicate 16 7) 0, .installGtk 1 (replicate 16 9) 0]

theorem generation_recurs : ∃ (ops : List ClientOp) (i j : Nat) (generation : UInt64), i < j ∧
    (issuedIn (run accepting.logged (.start ()) ops))[i]? = some generation ∧
    (issuedIn (run accepting.logged (.start ()) ops))[j]? = some generation := by
  let setup := associating ++ keying
  have hready : (after accepting.logged (.start ()) setup).Ready :=
    ⟨rfl, exampleAssociation, rfl, rfl, rfl, by decide⟩
  have hget := @issuedIn_get _ accepting.logged (setup ++ toggles (generations + 1)) (.start ())
  generalize hissued : issuedIn (run accepting.logged (.start ()) _) = issued at hget
  have hlen : generations + 1 ≤ issued.length := by
    have htoggles := issuedIn_toggles accepting.logged (generations + 1) _ hready
    rw [issuedIn] at htoggles
    rw [← hissued, run_append, issuedIn, flatMap_append, length_append]
    omega
  -- the first generation and the one after all the others are both 1
  have hone : ∀ i, i % generations = 0 → i < issued.length → issued[i]? = some 1 := by
    intro i hi hlt
    rw [getElem?_eq_getElem hlt]
    refine congrArg some (UInt64.toNat_inj.mp ?_)
    rw [hget (getElem?_eq_getElem hlt)]
    show (0 + i) % generations + 1 = 1
    rw [Nat.zero_add, hi]
  refine ⟨setup ++ toggles (generations + 1), 0, generations, 1, by simp [generations], ?_, ?_⟩
  all_goals rw [hissued]
  · exact hone 0 (Nat.zero_mod _) (by omega)
  · exact hone generations (Nat.mod_self _) hlen

end Drv.Mt7921
