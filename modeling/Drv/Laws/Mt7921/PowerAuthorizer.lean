import Drv.Mt7921.PowerAuthorizer
import Drv.Laws.Mt7921.RatePower

/-!
# What a power authorization stands for

An authorization that is permitted should say that the firmware holds the
table it was issued for: the last pages that were sent are those of the
submission that issued it, all of them were consumed, and neither the
domain was changed nor the authorizer reset since (`Attested`).

`submit_snapshot` takes the retained authorization back before it sends
anything, but `submit` does not. So this holds in runs where no `submit`
fails in the transport while an authorization is retained
(`permits_attested`), and not in others (`permitted_after_partial`).
-/

namespace Drv.Mt7921

open List hiding Vector
open Power

variable {τ ε : Type} {T : RateTxPowerTransport τ ε}

/-! ## One operation -/

def SentPage.failed (sent : SentPage ε) : Bool := !sent.answer.isOk

/-- All pages, each of them consumed. -/
def consumed (pages : List Bytes) : List (SentPage ε) := pages.map (⟨·, .ok ()⟩)

theorem authorizer_bind {α : Type} {f : RateTxPowerAuthorizer → Power τ ε α} {s : PowerSession τ} :
    (authorizer >>= f) s = f s.authorizer s := Eff.look_bind

/-- The loop sends all pages, or stops at one that failed. -/
theorem sendPages_cases (index : Nat) (pages : List Bytes) (s : PowerSession τ) :
    let o := sendPages T index pages s
    o.state.authorizer = s.authorizer ∧ (o.result = .ok () ∧ o.calls = consumed pages ∨
      (∃ e, o.result = .error e) ∧ o.calls.any SentPage.failed = true) := by
  induction pages generalizing index s with
  | nil => exact ⟨rfl, .inl ⟨rfl, rfl⟩⟩
  | cons page rest ih =>
    unfold sendPages
    cases hsend : T.sendAndWaitConsumed page s.link with
    | mk answer link =>
      have hpage : sendPage T index page s =
          ⟨answer.mapError (.transport (UInt8.ofNat index)), { s with link := link },
            [⟨page, answer⟩]⟩ := by
        simp only [sendPage, hsend]
      cases answer with
      | error =>
        rw [Eff.bind_of_error hpage]
        exact ⟨rfl, .inr ⟨⟨_, rfl⟩, rfl⟩⟩
      | ok =>
        rw [Eff.bind_of_ok hpage]
        obtain ⟨hsame, ⟨hok, hcs⟩ | ⟨herr, hfailed⟩⟩ := ih (index + 1) { s with link := link }
        · refine ⟨hsame, .inl ⟨hok, ?_⟩⟩
          rw [hcs]
          rfl
        · refine ⟨hsame, .inr ⟨herr, ?_⟩⟩
          rw [any_append, hfailed, Bool.or_true]

/-- Everything that an operation can do. -/
inductive PowerTurned (a : RateTxPowerAuthorizer) : PowerOp →
    Except (RateTxPowerInstallError ε) (Option RateTxPowerAuthorization) → List (SentPage ε) →
    RateTxPowerAuthorizer → Prop
  | refused {op e} : PowerTurned a op (.error e) [] a
  | broken {capability limits firstSequence freshId e sent}
      (hfailed : sent.any SentPage.failed = true) :
      PowerTurned a (.submit capability limits firstSequence freshId) (.error e) sent a
  | unnamed {capability limits firstSequence freshId e sent} (hnone : a.ownerId = none) :
      PowerTurned a (.submit capability limits firstSequence freshId) (.error e) sent a
  | submitted {capability limits firstSequence freshId commands authorization}
      (hcommands : encodeConservativeRateTxPowerCommands capability limits firstSequence =
        .ok commands) :
      PowerTurned a (.submit capability limits firstSequence freshId) (.ok (some authorization))
        (consumed commands)
        { a with ownerId := some authorization.ownerId, authorization := some authorization }
  | revoked {capability snapshot sha firstSequence freshId e sent} :
      PowerTurned a (.submitSnapshot capability snapshot sha firstSequence freshId) (.error e) sent
        { a with authorization := none }
  | installed {capability snapshot sha firstSequence freshId commands authorization}
      (hcommands : encodeRegulatoryRateTxPowerCommands capability snapshot a.generation
        firstSequence = .ok (some commands)) :
      PowerTurned a (.submitSnapshot capability snapshot sha firstSequence freshId)
        (.ok (some authorization)) (consumed commands)
        { a with ownerId := some authorization.ownerId, authorization := some authorization }
  | domain {alpha2} :
      PowerTurned a (.setRegulatoryDomain alpha2) (.ok none) []
        { a with generation := a.generation + 1, authorization := none, alpha2 := alpha2 }
  | reset :
      PowerTurned a .reset (.ok none) []
        { a with generation := a.generation + 1, authorization := none }

/-- Send all pages and issue an authorization, or fail with everything
retained as it was. -/
theorem install_cases (commands : List Bytes) (freshId : Option UInt64) (sha : Vector UInt8 32)
    (target : Int8) (s : PowerSession τ) :
    (∃ authorization link, (sendPages T 0 commands >>= fun _ =>
        issue freshId sha target) s = ⟨.ok authorization, ⟨{ s.authorizer with
          ownerId := some authorization.ownerId, authorization := some authorization }, link⟩,
          consumed commands⟩) ∨
    ∃ e link sent, (sendPages T 0 commands >>= fun _ => issue freshId sha target) s =
        ⟨.error e, ⟨s.authorizer, link⟩, sent⟩ ∧
      (s.authorizer.ownerId = none ∨ sent.any SentPage.failed = true) := by
  have hcases := sendPages_cases (T := T) 0 commands s
  cases hsend : sendPages T 0 commands s with
  | mk result state calls =>
    obtain ⟨authorizer, link⟩ := state
    simp only [hsend] at hcases
    obtain ⟨rfl, ⟨rfl, rfl⟩ | ⟨⟨e, rfl⟩, hfailed⟩⟩ := hcases
    · rw [Eff.bind_of_ok hsend, issue, authorizer_bind]
      dsimp only
      cases howner : s.authorizer.ownerId with
      | some => exact .inl ⟨_, link, congrArg (Outcome.mk _ _) (append_nil _)⟩
      | none =>
        -- an identity is issued with the authorization, or there is none
        cases freshId with
        | some => exact .inl ⟨_, link, congrArg (Outcome.mk _ _) (append_nil _)⟩
        | none =>
          exact .inr ⟨.stopped, link, _, congrArg (Outcome.mk _ _) (append_nil _), .inl rfl⟩
    · exact .inr ⟨e, link, calls, Eff.bind_of_error hsend, .inr hfailed⟩

theorem conservative_limits {capability : NicCapability} {limits : ConservativePowerLimits}
    {firstSequence : UInt8} {commands : List Bytes}
    (h : encodeConservativeRateTxPowerCommands capability limits firstSequence = .ok commands) :
    ∃ sar safetyCap, limits.sarLimitHalfDbm = some sar ∧
      limits.externalSafetyCapHalfDbm = some safetyCap := by
  unfold encodeConservativeRateTxPowerCommands at h
  split at h
  · cases h
  split at h
  · cases h
  cases hsar : limits.sarLimitHalfDbm with
  | none => simp [hsar] at h
  | some sar =>
    cases hcap : limits.externalSafetyCapHalfDbm with
    | none => simp [hsar, hcap] at h
    | some safetyCap => exact ⟨sar, safetyCap, rfl, rfl⟩

variable (capability : NicCapability)

theorem submit_turned (limits : ConservativePowerLimits) (firstSequence : UInt8)
    (freshId : Option UInt64) (s : PowerSession τ) :
    let o := submit T capability limits firstSequence freshId s
    PowerTurned s.authorizer (.submit capability limits firstSequence freshId) (o.result.map some)
      o.calls o.state.authorizer := by
  unfold submit
  rw [authorizer_bind]
  split
  · exact .refused
  cases henc : encodeConservativeRateTxPowerCommands capability limits firstSequence with
  | error => exact .refused
  | ok commands =>
    obtain ⟨sar, safetyCap, hsar, hcap⟩ := conservative_limits henc
    simp only [Except.mapError, hsar, hcap]
    rw [Eff.bind_of_silent (Eff.ofExcept_apply ..)]
    rcases install_cases commands freshId (.replicate 32 0)
      (limits.target sar safetyCap) s with ⟨authorization, link, h⟩ | ⟨e, link, sent, h, hwhy⟩
    · rw [h]
      exact .submitted henc
    · rw [h]
      rcases hwhy with hnone | hfailed
      · exact .unnamed hnone
      · exact .broken hfailed

theorem submitSnapshot_turned (snapshot : RegulatoryRatePowerSnapshot) (sha : Vector UInt8 32)
    (firstSequence : UInt8) (freshId : Option UInt64) (s : PowerSession τ) :
    let o := submitSnapshot T capability snapshot sha firstSequence freshId s
    PowerTurned s.authorizer (.submitSnapshot capability snapshot sha firstSequence freshId)
      (o.result.map some) o.calls o.state.authorizer := by
  unfold submitSnapshot
  rw [Eff.bind_of_silent (x := update _) (Eff.modify_apply ..), authorizer_bind]
  split
  · exact .revoked
  split
  · exact .revoked
  cases henc : encodeRegulatoryRateTxPowerCommands capability snapshot s.authorizer.generation
      firstSequence with
  | error e => exact .revoked
  | ok answer =>
    simp only [Except.mapError]
    rw [Eff.bind_of_silent (Eff.ofExcept_apply ..)]
    cases answer with
    | none => exact .revoked
    | some commands =>
      rcases install_cases (T := T) commands freshId snapshot.sourceSha256 127
        ⟨{ s.authorizer with authorization := none }, s.link⟩ with
        ⟨authorization, link, h⟩ | ⟨e, link, sent, h, -⟩
      · simp only [h]
        exact .installed henc
      · simp only [h]
        exact .revoked

theorem PowerOp.turned (op : PowerOp) (s : PowerSession τ) :
    PowerTurned s.authorizer op (op.exec T s).result (op.exec T s).calls
      (op.exec T s).state.authorizer := by
  cases op with
  | submit capability limits firstSequence freshId =>
    rw [PowerOp.exec, Eff.bind_pure_apply]
    exact submit_turned capability limits firstSequence freshId s
  | submitSnapshot capability snapshot sha firstSequence freshId =>
    rw [PowerOp.exec, Eff.bind_pure_apply]
    exact submitSnapshot_turned capability snapshot sha firstSequence freshId s
  | setRegulatoryDomain | reset =>
    simp only [PowerOp.exec, Eff.bind_pure_apply, Power.setRegulatoryDomain, Power.reset,
      Power.advanceGeneration, authorizer_bind]
    split
    · constructor
    · exact .refused

/-! ## Runs -/

/-- A submission whose pages were all consumed. -/
def PowerStep.Complete (step : PowerStep ε) : Prop :=
  match step.op with
  | .submit capability limits firstSequence _ => ∃ commands,
      encodeConservativeRateTxPowerCommands capability limits firstSequence = .ok commands ∧
      step.sent = consumed commands
  | .submitSnapshot capability snapshot _ firstSequence _ => ∃ commands,
      encodeRegulatoryRateTxPowerCommands capability snapshot step.before.generation
        firstSequence = .ok (some commands) ∧
      step.sent = consumed commands
  | .setRegulatoryDomain _ | .reset => False

/-- A reset or a change of the domain. -/
def PowerStep.changes (step : PowerStep ε) : Bool :=
  match step.op with
  | .setRegulatoryDomain _ | .reset => step.result.isOk
  | .submit .. | .submitSnapshot .. => false

/-- The last pages sent are those of the submission that issued an
authorization, and nothing was changed since. -/
def Attested (steps : List (PowerStep ε)) (authorization : RateTxPowerAuthorization) : Prop :=
  ∃ past step later, steps = past ++ step :: later ∧ step.result = .ok (some authorization) ∧
    step.Complete ∧ ∀ after ∈ later, after.sent = [] ∧ after.changes = false

/-- A `submit` that failed in the transport while there was an authorization. -/
def PowerStep.partialSubmit (step : PowerStep ε) : Bool :=
  match step.op with
  | .submit .. => step.before.authorization.isSome && step.sent.any SentPage.failed
  | .submitSnapshot .. | .setRegulatoryDomain _ | .reset => false

/-- What is retained is attested, and has an identity. -/
def Backed (steps : List (PowerStep ε)) (a : RateTxPowerAuthorizer) : Prop :=
  ∀ authorization, a.authorization = some authorization →
    Attested steps authorization ∧ a.ownerId.isSome

variable {steps : List (PowerStep ε)} {authorization : RateTxPowerAuthorization}
  {step : PowerStep ε}

theorem Attested.push (h : Attested steps authorization) (hsent : step.sent = [])
    (hchanges : step.changes = false) : Attested (steps ++ [step]) authorization := by
  obtain ⟨past, issued, later, rfl, hres, hcompl, hlater⟩ := h
  refine ⟨past, issued, later ++ [step], by simp, hres, hcompl, ?_⟩
  exact forall_mem_concat hlater ⟨hsent, hchanges⟩

theorem Attested.issued (hres : step.result = .ok (some authorization)) (hcompl : step.Complete) :
    Attested (steps ++ [step]) authorization :=
  ⟨steps, step, [], rfl, hres, hcompl, fun _ h => by cases h⟩

theorem Backed.of_none {a : RateTxPowerAuthorizer} (h : a.authorization = none) :
    Backed steps a := by
  intro authorization hsome
  cases h.symm.trans hsome

theorem PowerTurned.backed {before after : RateTxPowerAuthorizer} {op : PowerOp}
    {sent : List (SentPage ε)}
    {result : Except (RateTxPowerInstallError ε) (Option RateTxPowerAuthorization)}
    (h : PowerTurned before op result sent after)
    (hlost : PowerStep.partialSubmit ⟨before, op, result, sent, after⟩ = false)
    (hbacked : Backed steps before) :
    Backed (steps ++ [⟨before, op, result, sent, after⟩]) after := by
  cases h with
  | refused =>
    intro authorization hsome
    obtain ⟨hatt, howner⟩ := hbacked authorization hsome
    refine ⟨hatt.push rfl ?_, howner⟩
    cases op <;> rfl
  | broken hfailed =>
    refine .of_none ?_
    simpa [PowerStep.partialSubmit, hfailed] using hlost
  | unnamed hnone =>
    refine .of_none ?_
    cases hsome : before.authorization with
    | none => rfl
    | some authorization =>
      have howner := (hbacked authorization hsome).2
      rw [hnone] at howner
      cases howner
  | submitted hcommands | installed hcommands =>
    rintro _ ⟨⟩
    exact ⟨.issued rfl ⟨_, hcommands, rfl⟩, rfl⟩
  | revoked | domain | reset => exact .of_none rfl

theorem run_backed (T : RateTxPowerTransport τ ε) (ops : List PowerOp) (s : PowerSession τ)
    (steps : List (PowerStep ε)) (hs : Backed steps s.authorizer)
    (h : ∀ step ∈ (PowerOp.run T s ops).1, step.partialSubmit = false) :
    Backed (steps ++ (PowerOp.run T s ops).1) (PowerOp.run T s ops).2.authorizer := by
  induction ops generalizing s steps with
  | nil =>
    rw [PowerOp.run, append_nil]
    exact hs
  | cons op rest ih =>
    unfold PowerOp.run at h ⊢
    have hnx := PowerTurned.backed (op.turned s) (h _ mem_cons_self) hs
    rw [append_cons]
    exact ih _ _ hnx fun step hstep => h step (mem_cons_of_mem _ hstep)

/-- What is permitted after a run is attested, unless a `submit` failed in
the transport while there was an authorization. -/
theorem permits_attested (T : RateTxPowerTransport τ ε) (t : τ) (ops : List PowerOp)
    (h : ∀ step ∈ (PowerOp.run T ⟨.new, t⟩ ops).1, step.partialSubmit = false) :
    ∀ authorization, (PowerOp.run T ⟨.new, t⟩ ops).2.authorizer.permits authorization = true →
      Attested (PowerOp.run T ⟨.new, t⟩ ops).1 authorization := by
  intro authorization hpermit
  have hbacked := run_backed T ops ⟨.new, t⟩ [] (.of_none rfl) h
  simp only [RateTxPowerAuthorizer.permits, Bool.and_eq_true, decide_eq_true_eq] at hpermit
  exact (hbacked authorization hpermit.1.1.1).1

/-- A transport that fails the pages with these numbers. -/
def losing (lost : List Nat) : RateTxPowerTransport Nat String where
  sendAndWaitConsumed _ t := (if t ∈ lost then .error "timed out" else .ok (), t + 1)

/-- A submission for 2.4 GHz, in two pages. -/
def exampleSubmit : PowerOp :=
  .submit ⟨some ⟨false⟩, some false⟩ ⟨.world, 20, some 30, some 20⟩ 4 (some 1)

def exampleAuthorization : RateTxPowerAuthorization := ⟨1, 0, .world, Vector.replicate 32 0, 20⟩

/-- The submission made twice, with some pages failing. -/
def twice (lost : List Nat) : List (PowerStep String) × PowerSession Nat :=
  PowerOp.run (losing lost) ⟨.new, 0⟩ [exampleSubmit, exampleSubmit]

/-- A submission that fails when there is no authorization, and another. -/
theorem permits_attested_losing :
    (∀ step ∈ (twice [1]).1, step.partialSubmit = false) ∧
    (twice [1]).2.authorizer.permits exampleAuthorization = true ∧
    Attested (twice [1]).1 exampleAuthorization := by
  have hlost : ∀ step ∈ (twice [1]).1, step.partialSubmit = false := by decide +kernel
  have hpermit : (twice [1]).2.authorizer.permits exampleAuthorization = true := by decide +kernel
  exact ⟨hlost, hpermit, permits_attested (losing [1]) 0 _ hlost _ hpermit⟩

/-- The second submission fails after its first page, and the authorization
of the first is still permitted. -/
theorem permitted_after_partial :
    (twice [3]).2.authorizer.permits exampleAuthorization = true ∧
    ¬ Attested (twice [3]).1 exampleAuthorization := by
  refine ⟨by decide +kernel, ?_⟩
  obtain ⟨first, second, hrun, hres, hsent⟩ : ∃ first second, (twice [3]).1 = [first, second] ∧
        second.result.isOk = false ∧ second.sent.length = 2 :=
    ⟨_, _, rfl, by decide +kernel, by decide +kernel⟩
  rw [hrun]
  rintro ⟨past, step, later, hsteps, hiss, -, hlater⟩
  cases past with
  | nil =>
    obtain ⟨-, rfl⟩ := List.cons.inj hsteps
    have hnothing := (hlater second mem_cons_self).1
    rw [hnothing] at hsent
    cases hsent
  | cons head past =>
    obtain ⟨-, hr⟩ := List.cons.inj hsteps
    cases past with
    | nil =>
      obtain ⟨rfl, -⟩ := List.cons.inj hr
      rw [hiss] at hres
      cases hres
    | cons =>
      obtain ⟨-, hnil⟩ := List.cons.inj hr
      simp at hnil

end Drv.Mt7921
