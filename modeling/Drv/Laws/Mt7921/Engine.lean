import Drv.Mt7921.Mechanics

/-!
# What the command engine can touch

The engine changes its transport only through requests. So a relation
that every request of some kind keeps, and every change of the engine's
own fields that goes with it, is kept by every operation that makes only
requests of that kind (`Steps`). The receive part, the command part and
the scatter part are three such kinds. Nothing here says that a command
completes: a wait may use up its turns.
-/

namespace Drv.Mt7921

open LoaderMechanics Within

/-! ## Kinds of requests -/

namespace Request

/-- The requests of the receive part. -/
def Receives : Request → Prop
  | enableResponseInterrupts _ | maskResponseInterrupts | responseInterruptStatus
  | acknowledgeResponseInterrupts _ | readRxDescriptor .. | readRxBuffer .. | rxBufferAddress ..
  | repostRxDescriptor .. | publishRxProducer .. | prepareRxResult .. | completeRxResult ..
  | abortRx => True
  | _ => False

/-- The requests that publish and reclaim a command. -/
def Commands : Request → Prop
  | commandPayloadAddress _ | writeCommandPayload .. | writeCommandDescriptor ..
  | enableResponseInterrupts _ | publishCommandProducer _ | commandDmaIndex
  | readCommandDescriptor _ | reclaimCommand _ => True
  | _ => False

/-- The requests that publish and reclaim a chunk of firmware. -/
def Scatters : Request → Prop
  | scatterPayloadAddress | writeScatterPayload _ | writeScatterDescriptor ..
  | publishScatterProducer _ | scatterDmaIndex | readScatterDescriptor _ | reclaimScatter _ => True
  | _ => False

/-- The requests that wait. -/
def Waits : Request → Prop
  | waitForInterrupt _ | waitForProgress _ => True
  | _ => False

end Request

/-! ## Steps of a relation -/

/-- Requests in `K` and changes of the engine in `F` are steps of `r`. -/
structure Steps {τ ε : Type} (T : LoaderMechanicsTransport τ ε)
    (r : Session τ → Session τ → Prop) (K : Request → Prop)
    (F : LoaderMechanics → LoaderMechanics → Prop) : Prop where
  request : ∀ req, K req → ∀ s, r s { s with transport := (T.handle req s.transport).2 }
  update : ∀ (s : Session τ) (m : LoaderMechanics), F s.mechanics m → r s { s with mechanics := m }

/-- The parts of the operations on commands, each of which takes steps of
`r`. -/
structure Commanding {τ ε : Type} (T : LoaderMechanicsTransport τ ε)
    (r : Session τ → Session τ → Prop) : Prop where
  publish : ∀ sequence template completion,
    Within r (publishReservedTemplate T sequence template completion)
  reclaim : Within r (tryReclaimCommand T)
  poll : ∀ sequence budget, Within r (pollResponse T sequence budget)
  wait : ∀ {req : Request}, req.Waits → Within r (demand T .containmentRequired req)
  reserve : Within r (reserveSequenceUnchecked : Mcu τ ε UInt8)
  /-- Without a command the rings may be moved. -/
  move : ∀ (s : Session τ) (m : LoaderMechanics), s.mechanics.activeCommandSlot = none →
    m.pendingCommand = s.mechanics.pendingCommand → m.pendingScatter = s.mechanics.pendingScatter →
      m.deferredCommand = s.mechanics.deferredCommand → r s { s with mechanics := m }

namespace Steps

variable {τ ε : Type} {T : LoaderMechanicsTransport τ ε} {r : Session τ → Session τ → Prop}
  {K : Request → Prop} {F : LoaderMechanics → LoaderMechanics → Prop} {req : Request}

theorem ask (h : Steps T r K F) (hreq : K req) : Within r (ask T req) :=
  h.request req hreq

theorem modify (h : Steps T r K F) {f : LoaderMechanics → LoaderMechanics} (hf : ∀ m, F m (f m)) :
    Within r (LoaderMechanics.update f : Mcu τ ε Unit) :=
  fun s => h.update s _ (hf _)

variable [IsPreorder (Session τ) r] {wrap : ε → LoaderMechanicsError ε}

theorem demand (h : Steps T r K F) (hreq : K req) : Within r (demand T wrap req) := by
  refine .bind (h.ask hreq) fun answer => ?_
  cases answer with
  | ok answer => exact .pure answer
  | error => exact .fail _

theorem reserve (h : Steps T r K F) (hseq : ∀ m sequence, F m { m with sequence := sequence }) :
    Within r (reserveSequenceUnchecked : Mcu τ ε UInt8) :=
  bind (h.modify fun _ => hseq _ _) fun _ => .look_bind fun _ =>
    .pure _

/-! ## The receive part -/

section
variable (h : Steps T r K F) (hK : ∀ req : Request, req.Receives → K req)
  (hF : ∀ m heads, F m { m with rxHead := heads })

include h hK hF

theorem repostRx (ring : McuRxIrqRing) (consumed : UInt16) :
    Within r (LoaderMechanics.repostRx T ring consumed) := by
  refine .bind (h.demand (hK _ trivial)) fun address => ?_
  refine .ofExcept_bind fun fresh => ?_
  refine .bind (h.demand (hK _ trivial)) fun _ => ?_
  refine .bind (h.modify fun _ => hF _ _) fun _ => ?_
  exact h.demand (hK _ trivial)

variable (sequence : Option UInt8)

theorem receiveRx (ring : McuRxIrqRing) (consumed : UInt16) (descriptor : DmaDescriptor) :
    Within r (receiveRx T ring sequence consumed descriptor) := by
  have hrepost := repostRx h hK hF ring consumed
  refine .bind (h.ask (hK _ trivial)) fun read => ?_
  cases read with
  | error => exact .bind hrepost fun _ => .fail _
  | ok =>
    refine .bind (h.demand (hK _ trivial)) fun _ => ?_
    refine .bind hrepost fun _ => ?_
    refine .bind (h.demand (hK _ trivial)) fun _ => ?_
    split
    · exact .fail _
    · exact .ite (.pure _) (.pure _)
    · exact .pure _

theorem drainRx (ring : McuRxIrqRing) (budget : Nat) (found : Option FirmwareRx) :
    Within r (drainRx T ring sequence budget found) := by
  induction budget generalizing found with
  | zero => exact .pure _
  | succ budget ih =>
    refine .look_bind fun m => ?_
    refine .bind (h.demand (hK _ trivial)) fun descriptor => ?_
    apply Within.ite
    · refine bind (receiveRx h hK hF sequence ring _ descriptor) fun received => ?_
      cases received with
      | none => exact ih found
      | some => exact .guard (ih _)
    · exact .pure _

theorem drainRings (budget : Nat) : Within r (drainRings T sequence budget) := by
  refine .bind (h.demand (hK _ trivial)) fun status => ?_
  refine .bind (h.demand (hK _ trivial)) fun _ => ?_
  refine .bind (drainRx h hK hF sequence .wm budget none) fun first => ?_
  refine .bind (drainRx h hK hF sequence .wm2 budget none) fun second => ?_
  cases first with
  | none => exact .pure _
  | some =>
    cases second with
    | none => exact .pure _
    | some => exact .fail _

theorem pollResponse (budget : Nat) :
    Within r (LoaderMechanics.pollResponse T sequence budget) := by
  have habort : ∀ {α : Type} (e : LoaderMechanicsError ε),
      Within r (do let _ ← LoaderMechanics.demand T .containmentRequired .abortRx
                   Eff.fail e : Mcu τ ε α) :=
    fun e => .bind (h.demand (hK _ trivial)) fun _ => .fail e
  refine .bind (h.ask (hK _ trivial)) fun mask => ?_
  cases mask with
  | error => exact habort _
  | ok =>
    refine .bind (.attempt (drainRings h hK hF sequence budget)) fun operation => ?_
    refine .bind (h.ask (hK _ trivial)) fun unmask => ?_
    cases unmask with
    | error => cases operation <;> exact habort _
    | ok =>
      cases operation with
      | ok => exact .pure _
      | error => exact habort _

end

/-! ## The command part -/

section
variable (h : Steps T r K F)
  (hK : ∀ req : Request, req.Receives ∨ req.Commands ∨ req.Waits → K req)
  (hF : ∀ m m' : LoaderMechanics, m'.pendingScatter = m.pendingScatter →
    m'.deferredCommand = m.deferredCommand → F m m')

include h hK hF

omit hF in
theorem command (hreq : req.Commands) :
    Within r (LoaderMechanics.demand T wrap req) := h.demand (hK _ (.inr (.inl hreq)))

theorem publishReservedTemplate (sequence : UInt8) (template : Bytes)
    (completion : LoaderCommandCompletion) :
    Within r (LoaderMechanics.publishReservedTemplate T sequence template completion) := by
  refine .look_bind fun m => ?_
  split
  · exact .fail _
  refine .guard ?_
  refine .guard ?_
  refine .look_bind fun capacity => ?_
  refine .guard ?_
  refine .bind (h.command hK trivial) fun address => ?_
  refine .ofExcept_bind fun descriptor => ?_
  refine .bind (h.command hK trivial) fun _ => ?_
  refine .bind (h.command hK trivial) fun _ => ?_
  refine .bind ?_ fun _ => ?_
  · cases completion with
    | response => exact h.command hK trivial
    | noResponse => exact .pure _
  refine .bind (h.modify fun _ => hF _ _ rfl rfl) fun _ => ?_
  exact h.command hK trivial

theorem tryReclaimCommand : Within r (LoaderMechanics.tryReclaimCommand T) := by
  refine .look_bind fun m => ?_
  split
  · exact .pure _
  refine .bind ?_ fun consumed => ?_
  · exact .bind (h.command hK trivial) fun didx => .guard (.pure _)
  apply Within.ite
  · refine bind (h.command hK trivial) fun descriptor => ?_
    apply Within.ite
    · refine bind (h.command hK trivial) fun _ => ?_
      exact .bind (h.modify fun _ => hF _ _ rfl rfl) fun _ => .pure _
    · exact .fail _
  · exact .pure _

theorem commanding : Commanding T r where
  publish := publishReservedTemplate h hK hF
  reclaim := tryReclaimCommand h hK hF
  poll := pollResponse h (fun req hreq => hK req (.inl hreq)) fun _ _ => hF _ _ rfl rfl
  wait hreq := h.demand (hK _ (.inr (.inr hreq)))
  reserve := h.reserve fun _ _ => hF _ _ rfl rfl
  move s m _ _ hscat hdefer := h.update s m (hF _ _ hscat hdefer)

end

/-! ## The scatter part -/

section
variable (h : Steps T r K F) (hK : ∀ req : Request, req.Scatters ∨ req.Waits → K req)
  (hF : ∀ m m' : LoaderMechanics, m'.pendingCommand = m.pendingCommand →
    m'.commandProducer = m.commandProducer → m'.deferredCommand = m.deferredCommand → F m m')

include h hK hF

variable (part : FirmwareImagePart)

theorem publishReservedScatter (sequence : UInt8) (chunk : Bytes) :
    Within r (LoaderMechanics.publishReservedScatter T part sequence chunk) := by
  have hscat : ∀ {req : Request} {wrap : ε → LoaderMechanicsError ε}, req.Scatters →
      Within r (LoaderMechanics.demand T wrap req) :=
    fun hreq => h.demand (hK _ (.inl hreq))
  refine .look_bind fun m => ?_
  split
  · exact .fail _
  refine .guard ?_
  refine .guard ?_
  refine .guard ?_
  refine .bind (hscat trivial) fun address => ?_
  refine .ofExcept_bind fun descriptor => ?_
  refine .bind (hscat trivial) fun _ => ?_
  refine .bind (hscat trivial) fun _ => ?_
  refine .bind (hscat trivial) fun _ => ?_
  exact h.modify fun _ => hF _ _ rfl rfl rfl

theorem publishScatter (chunk : Bytes) : Within r (publishScatter T part chunk) := by
  refine .look_bind fun m => ?_
  split
  · exact .fail _
  refine .guard ?_
  refine .guard ?_
  refine .bind (h.reserve fun _ _ => hF _ _ rfl rfl rfl) fun sequence => ?_
  exact .bind (publishReservedScatter h hK hF _ _ _) fun _ => .pure _

omit hF in
theorem waitScatter (producer : UInt16) (deadline : UInt64) (turns : Nat) :
    Within r (waitScatter T producer deadline turns) := by
  have hcons : Within r (scatterConsumed T producer) :=
    .bind (h.demand (hK _ (.inl trivial))) fun didx =>
      guard (.pure _)
  induction turns with
  | zero => exact .pure _
  | succ turns ih =>
    refine .bind hcons fun consumed => ?_
    refine .ite (.pure _) ?_
    refine .bind (h.demand (hK _ (.inr trivial))) fun more => ?_
    refine .ite ih ?_
    exact .bind hcons fun consumed => .ite (.pure _) (.fail _)

theorem completeScatter (sequence : UInt8) (deadline : UInt64) (turns : Nat) :
    Within r (completeScatter T part sequence deadline turns) := by
  refine .look_bind fun m => ?_
  split
  · exact .fail _
  refine .guard ?_
  refine .bind (waitScatter h hK _ _ _) fun consumed => ?_
  cases consumed with
  | none => exact .pure _
  | some =>
    refine .bind (h.demand (hK _ (.inl trivial))) fun descriptor => ?_
    apply Within.ite
    · refine bind (h.demand (hK _ (.inl trivial))) fun _ => ?_
      exact .bind (h.modify fun _ => hF _ _ rfl rfl rfl) fun _ => .pure _
    · exact .fail _

end

end Steps

/-! ## Operations on commands -/

/-- The operations on commands that are not deferred. -/
def LoaderMechanics.Op.Commands : Op → Prop
  | .commitCandidateCommand _ | .reserveSequence | .executeDownload .. | .executeTemplate ..
  | .executeReservedTemplate .. | .pollEvents | .rebaseAfterWpdmaReset => True
  | _ => False

namespace Commanding

variable {τ ε : Type} {T : LoaderMechanicsTransport τ ε} {r : Session τ → Session τ → Prop}
  [IsPreorder (Session τ) r] (h : Commanding T r)

include h

theorem waitResponse (sequence : UInt8) (deadline : UInt64) (turns : Nat) :
    Within r (waitResponse T sequence deadline turns) := by
  induction turns with
  | zero => exact .pure _
  | succ turns ih =>
    refine .bind (h.wait trivial) fun interrupted => ?_
    apply Within.ite
    · refine bind (h.poll _ _) fun found => ?_
      cases found with
      | none => exact ih
      | some => exact .pure _
    · exact .fail _

theorem waitCommandReclaim (deadline : UInt64) (turns : Nat) :
    Within r (waitCommandReclaim T deadline turns) := by
  induction turns with
  | zero => exact .pure _
  | succ turns ih =>
    refine .bind h.reclaim fun reclaimed => ?_
    refine .ite (.pure _) ?_
    refine .bind (h.wait trivial) fun more => ?_
    refine .ite ih ?_
    exact .bind h.reclaim fun reclaimed => .ite (.pure _) (.fail _)

theorem executeReservedTemplate (sequence : UInt8) (template : Bytes)
    (completion : LoaderCommandCompletion) (deadline : UInt64) (turns : Nat) :
    Within r (executeReservedTemplate T sequence template completion deadline turns) := by
  refine .look_bind fun m => ?_
  split
  · exact .fail _
  refine .bind (h.publish _ _ _) fun _ => ?_
  have hawait : Within r (awaitCompletion T sequence completion deadline turns) := by
    cases completion with
    | noResponse => exact .pure _
    | response =>
      refine .bind (h.waitResponse sequence deadline turns) fun found => ?_
      cases found with
      | none => exact .pure _
      | some => exact .pure _
  refine .bind (.attempt hawait) fun result => ?_
  split
  · exact .pure _
  refine .bind (h.waitCommandReclaim deadline turns) fun reclaimed => ?_
  cases reclaimed with
  | none => exact .pure _
  | some => exact .ofExcept _

theorem exec {op : Op} (hop : op.Commands) : Within r (op.exec T) := by
  cases op with
  | commitCandidateCommand | rebaseAfterWpdmaReset =>
    intro s
    simp only [Op.exec, commitCandidateCommand, rebaseAfterWpdmaReset, mechanics, Eff.look_bind]
    cases hact : s.mechanics.activeCommandSlot with
    | some => exact refl s
    | none =>
      split
      · exact refl s
      · exact h.move s _ hact rfl rfl rfl
  | reserveSequence =>
    refine .look_bind fun m => ?_
    split
    · exact .fail _
    · exact h.reserve
  | executeDownload =>
    refine .look_bind fun m => ?_
    split
    · exact .fail _
    refine .bind h.reserve fun sequence => ?_
    refine .ofExcept_bind fun encoded => ?_
    exact h.executeReservedTemplate _ _ _ _ _
  | executeTemplate =>
    refine .look_bind fun m => ?_
    split
    · exact .fail _
    refine .guard ?_
    refine .look_bind fun capacity => ?_
    refine .guard ?_
    refine .bind h.reserve fun sequence => ?_
    exact h.executeReservedTemplate _ _ _ _ _
  | executeReservedTemplate => exact h.executeReservedTemplate _ _ _ _ _
  | pollEvents =>
    refine .look_bind fun m => ?_
    split
    · exact .fail _
    refine .bind (h.poll none 7) fun _ => ?_
    exact .look_bind fun _ => .pure _
  | _ => exact hop.elim

/-! ## Deferred commands -/

variable (hdefer : ∀ f : LoaderMechanics → Option DeferredCommand,
  Within r (update fun m => { m with deferredCommand := f m } : Mcu τ ε Unit))

include hdefer

theorem beginCommand (template : Bytes) (completion : LoaderCommandCompletion) :
    Within r (beginCommand T template completion) := by
  refine .look_bind fun m => ?_
  refine .guard ?_
  split
  · exact .fail _
  refine .guard ?_
  refine .look_bind fun capacity => ?_
  refine .guard ?_
  refine .bind h.reserve fun sequence => ?_
  refine .bind (hdefer _) fun _ => ?_
  exact .bind (h.publish _ _ _) fun _ => hdefer _

theorem pumpCommand (sequence : UInt8) (before : LoaderMechanics) (expectsResponse : Bool) :
    Within r (pumpCommand T sequence before expectsResponse) := by
  refine .bind (h.poll _ _) fun found => ?_
  refine .bind ?_ fun _ => ?_
  · cases found with
    | none => exact .pure _
    | some => exact .look_bind fun m => .guard (hdefer _)
  refine .bind h.reclaim fun reclaimed => ?_
  refine .look_bind fun m => ?_
  split
  · exact .bind (hdefer _) fun _ => .pure _
  · exact .pure _

theorem pollCommand : Within r (pollCommand T) := by
  refine .look_bind fun m => ?_
  split
  · exact .fail _
  refine .guard ?_
  refine .bind (.attempt (h.pumpCommand hdefer _ _ _)) fun progress => ?_
  cases progress with
  | ok => exact .pure _
  | error => exact .bind (hdefer _) fun _ => .fail _

end Commanding

end Drv.Mt7921
