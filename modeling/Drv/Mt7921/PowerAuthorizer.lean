import Drv.Base.Effect
import Drv.Mt7921.RatePower

/-!
# Authorization of transmit power

`RateTxPowerAuthorizer` installs a rate power table page by page and hands
out an authorization for it; transmission is permitted under the
authorization that is retained. A new regulatory domain and a reset take
it back.

Every page that was handed to the transport is in the calls of an
operation, with the transport's answer. The identities of authorizers
come from a counter of the program, so the identity that a call would take
is an argument, and `none` when the counter is exhausted.
-/

namespace Drv.Mt7921

open Eff (fail)

structure RateTxPowerAuthorization where
  ownerId : UInt64
  generation : UInt64
  alpha2 : Alpha2
  sourceSha256 : Vector UInt8 32
  targetHalfDbm : Int8
  deriving DecidableEq

structure RateTxPowerAuthorizer where
  ownerId : Option UInt64
  generation : UInt64
  alpha2 : Alpha2
  authorization : Option RateTxPowerAuthorization

namespace RateTxPowerAuthorizer

def new : RateTxPowerAuthorizer := ⟨none, 0, .world, none⟩

def permits (authorizer : RateTxPowerAuthorizer) (authorization : RateTxPowerAuthorization) :
    Bool :=
  authorizer.authorization = some authorization &&
    authorizer.ownerId = some authorization.ownerId &&
    authorization.generation = authorizer.generation && authorization.alpha2 = authorizer.alpha2

end RateTxPowerAuthorizer

/-- `stopped` stands for an `expect` of the source. -/
inductive RateTxPowerInstallError (ε : Type) where
  | encode (error : RateTxPowerError)
  | transport (command : UInt8) (error : ε)
  | stopped

/-! ## Submissions -/

structure RateTxPowerTransport (τ ε : Type) where
  sendAndWaitConsumed : Bytes → τ → Except ε Unit × τ

/-- A page that was sent. -/
structure SentPage (ε : Type) where
  page : Bytes
  answer : Except ε Unit

structure PowerSession (τ : Type) where
  authorizer : RateTxPowerAuthorizer
  link : τ

abbrev Power (τ ε α : Type) := Eff (PowerSession τ) (SentPage ε) (RateTxPowerInstallError ε) α

namespace Power

variable {τ ε : Type} (T : RateTxPowerTransport τ ε)

def authorizer : Power τ ε RateTxPowerAuthorizer := Eff.look PowerSession.authorizer

def update (f : RateTxPowerAuthorizer → RateTxPowerAuthorizer) : Power τ ε Unit :=
  Eff.modify fun s => { s with authorizer := f s.authorizer }

def sendPage (index : Nat) (page : Bytes) : Power τ ε Unit := fun s =>
  let (answer, link) := T.sendAndWaitConsumed page s.link
  ⟨answer.mapError (.transport (UInt8.ofNat index)), { s with link := link }, [⟨page, answer⟩]⟩

/-- The loop over the pages, from an index on. -/
def sendPages : Nat → List Bytes → Power τ ε Unit
  | _, [] => return ()
  | index, page :: rest => do
    sendPage T index page
    sendPages (index + 1) rest

/-- Retain an authorization for what was sent, and hand it out. -/
def issue (freshId : Option UInt64) (sourceSha256 : Vector UInt8 32) (targetHalfDbm : Int8) :
    Power τ ε RateTxPowerAuthorization := do
  let current ← authorizer
  match current.ownerId <|> freshId with
  | none => fail .stopped
  | some ownerId => do
    let authorization : RateTxPowerAuthorization :=
      ⟨ownerId, current.generation, current.alpha2, sourceSha256, targetHalfDbm⟩
    update fun a => { a with ownerId := some ownerId, authorization := some authorization }
    return authorization

def submit (capability : NicCapability) (limits : ConservativePowerLimits) (firstSequence : UInt8)
    (freshId : Option UInt64) : Power τ ε RateTxPowerAuthorization := do
  let current ← authorizer
  if limits.alpha2 ≠ current.alpha2 ∨ current.alpha2 ≠ .world then
    fail (.encode .nonWorldDomain)
  else do
    let commands ← Eff.ofExcept
      ((encodeConservativeRateTxPowerCommands capability limits firstSequence).mapError .encode)
    sendPages T 0 commands
    match limits.sarLimitHalfDbm, limits.externalSafetyCapHalfDbm with
    | some sar, some safetyCap =>
      issue freshId (Vector.replicate 32 0) (limits.target sar safetyCap)
    | _, _ => fail .stopped

def submitSnapshot (capability : NicCapability) (snapshot : RegulatoryRatePowerSnapshot)
    (expectedSourceSha256 : Vector UInt8 32) (firstSequence : UInt8) (freshId : Option UInt64) :
    Power τ ε RateTxPowerAuthorization := do
  -- a replacement attempt takes back the authorization before the first page
  update fun a => { a with authorization := none }
  let current ← authorizer
  if snapshot.alpha2 ≠ current.alpha2 then fail (.encode .nonWorldDomain)
  else if expectedSourceSha256 ≠ snapshot.sourceSha256 then
    fail (.encode .sourceHashMismatch)
  else do
    let answer ← Eff.ofExcept ((encodeRegulatoryRateTxPowerCommands capability snapshot
      current.generation firstSequence).mapError .encode)
    match answer with
    | none => fail .stopped
    | some commands => do
      sendPages T 0 commands
      issue freshId snapshot.sourceSha256 127

/-- The next generation; the source stops when there is none. -/
def advanceGeneration (f : RateTxPowerAuthorizer → RateTxPowerAuthorizer) : Power τ ε Unit := do
  let current ← authorizer
  if current.generation.toNat + 1 < 2 ^ 64 then
    update fun a => f { a with generation := a.generation + 1, authorization := none }
  else fail .stopped

def setRegulatoryDomain (alpha2 : Alpha2) : Power τ ε Unit :=
  advanceGeneration fun a => { a with alpha2 := alpha2 }

def reset : Power τ ε Unit := advanceGeneration id

end Power

/-! ## Runs -/

inductive PowerOp where
  | submit (capability : NicCapability) (limits : ConservativePowerLimits) (firstSequence : UInt8)
      (freshId : Option UInt64)
  | submitSnapshot (capability : NicCapability) (snapshot : RegulatoryRatePowerSnapshot)
      (expectedSourceSha256 : Vector UInt8 32) (firstSequence : UInt8) (freshId : Option UInt64)
  | setRegulatoryDomain (alpha2 : Alpha2)
  | reset

/-- An operation, with the authorization that it hands out. -/
def PowerOp.exec {τ ε : Type} (T : RateTxPowerTransport τ ε) :
    PowerOp → Power τ ε (Option RateTxPowerAuthorization)
  | .submit capability limits firstSequence freshId => do
    return some (← Power.submit T capability limits firstSequence freshId)
  | .submitSnapshot capability snapshot expectedSourceSha256 firstSequence freshId => do
    return some (← Power.submitSnapshot T capability snapshot expectedSourceSha256 firstSequence
      freshId)
  | .setRegulatoryDomain alpha2 => do
    Power.setRegulatoryDomain alpha2
    return none
  | .reset => do
    Power.reset
    return none

/-- An operation of a run. -/
structure PowerStep (ε : Type) where
  before : RateTxPowerAuthorizer
  op : PowerOp
  result : Except (RateTxPowerInstallError ε) (Option RateTxPowerAuthorization)
  sent : List (SentPage ε)
  after : RateTxPowerAuthorizer

def PowerOp.run {τ ε : Type} (T : RateTxPowerTransport τ ε) (s : PowerSession τ) :
    List PowerOp → List (PowerStep ε) × PowerSession τ
  | [] => ([], s)
  | op :: rest =>
    let outcome := op.exec T s
    let (steps, last) := run T outcome.state rest
    (⟨s.authorizer, op, outcome.result, outcome.calls, outcome.state.authorizer⟩ :: steps, last)

end Drv.Mt7921
