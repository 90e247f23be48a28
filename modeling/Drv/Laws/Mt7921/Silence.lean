import Drv.Laws.Mt7921.Engine
import Drv.Laws.Mt7921.Rings
import Drv.Mt7921.Transmit

/-!
# Silence of the command engine

For transmission the driver shares a frame buffer, transmit words and a
descriptor ring with the device, and hands descriptors over by writing a
producer index. No request of the command engine writes either
(`views_silent`), so no sequence of firmware commands does
(`FirmwareCommands.drive_silent`). What the engine writes to its own rings
is not looked at here.
-/

namespace Drv.Mt7921

open Drv.Hardware (Error)
open Drv.Softmac RxRouting TxEvent

/-! ## What a run shows -/

/-- Writes to the memory shared with the device for transmission. -/
def Port.writesTx : Port → Bool
  | .write .managementTxRing .. | .write .managementTxwi .. | .write .managementFrame .. => true
  | _ => false

/-- The write that hands the descriptors up to an index to the device. -/
def Port.publishesTx : Port → Bool
  | .writeU32 offset _ => offset = managementTxCidx
  | _ => false

namespace TxEvent

def writes : TxEvent → Bool
  | .call c => c.1.writesTx
  | .clock _ => false

def publishes : TxEvent → Bool
  | .call c => c.1.publishesTx
  | .clock _ => false

/-- Neither. -/
def quiet (e : TxEvent) : Bool := !e.writes && !e.publishes

end TxEvent

/-- Events without a write and without a publication. -/
def QuietTx (events : List TxEvent) : Prop := ∀ e ∈ events, e.quiet = true

theorem QuietTx.append {a b : List TxEvent} (ha : QuietTx a) (hb : QuietTx b) : QuietTx (a ++ b) :=
  List.forall_mem_append.mpr ⟨ha, hb⟩

variable {e : TxEvent}

theorem QuietTx.singleton (h : e.quiet = true) : QuietTx [e] := List.forall_mem_singleton.mpr h

variable {events : List TxEvent}

theorem QuietTx.writes (h : QuietTx events) (he : e ∈ events) : e.writes = false := by
  have hquiet := h e he
  simp only [quiet, Bool.and_eq_true, Bool.not_eq_true'] at hquiet
  exact hquiet.1

theorem QuietTx.publishes (h : QuietTx events) (he : e ∈ events) : e.publishes = false := by
  have hquiet := h e he
  simp only [quiet, Bool.and_eq_true, Bool.not_eq_true'] at hquiet
  exact hquiet.2

theorem QuietTx.split {quiet before after : List TxEvent} (h : QuietTx quiet)
    (hsplit : quiet ++ events = before ++ e :: after) (he : e.quiet = false) :
    ∃ more, before = quiet ++ more ∧ events = more ++ e :: after := by
  rcases List.append_eq_append_iff.mp hsplit with ⟨more, hpre, hevs⟩ | ⟨more, hquiet, hevs⟩
  · exact ⟨more, hpre, hevs⟩
  · cases more with
    | nil =>
      refine ⟨[], by simpa using hquiet.symm, ?_⟩
      simpa using hevs.symm
    | cons =>
      cases hevs
      have hloud := h e (by simp [hquiet])
      rw [he] at hloud
      cases hloud

theorem TxEvent.loud_of_writes (h : e.writes = true) : e.quiet = false := by
  simp [quiet, h]

theorem TxEvent.loud_of_publishes (h : e.publishes = true) : e.quiet = false := by
  simp [quiet, h]

/-! ## The host -/

/-- A host with its log. -/
abbrev Traced (η : Type) := η × List TxEvent

variable {η : Type}

/-- Only quiet events were added to the log. -/
def Silent (h h' : Traced η) : Prop := ∃ events, QuietTx events ∧ h'.2 = h.2 ++ events

theorem Silent.of_eq {h h' : Traced η} (heq : h'.2 = h.2) : Silent h h' :=
  ⟨[], by simp [QuietTx], by simp [heq]⟩

theorem Silent.trans {a b c : Traced η} (hab : Silent a b) (hbc : Silent b c) : Silent a c := by
  obtain ⟨first, hfst, hb⟩ := hab
  obtain ⟨second, hsnd, hc⟩ := hbc
  exact ⟨first ++ second, hfst.append hsnd, by rw [hc, hb, List.append_assoc]⟩

/-- Silence, seen from a larger state. -/
def SilentOn {η σ : Type} (host : σ → Traced η) (s s' : σ) : Prop := Silent (host s) (host s')

instance {η σ : Type} (host : σ → Traced η) : IsPreorder σ (SilentOn host) where
  refl _ := .of_eq rfl
  trans _ _ _ := Silent.trans

section
variable {η : Type} (H : Host η)

theorem handle_silent {p : Port} (hwr : p.writesTx = false) (hpub : p.publishesTx = false)
    (h : Traced η) : Silent h (H.traced.handle p h).2 :=
  ⟨_, .singleton (by simp [quiet, writes, publishes, hwr, hpub]), rfl⟩

theorem check_silent (context : OperationContext) (now : Nat) :
    Within Silent (H.traced.check context now) :=
  fun _ => .of_eq rfl

theorem takeViews_silent : Within Silent H.traced.takeViews :=
  fun _ => .of_eq rfl

/-! ## The transport -/

theorem port_silent {p : Port} (hwr : p.writesTx = false) (hpub : p.publishesTx = false) :
    Within (SilentOn Prod.fst) (port H.traced.toBoard p) :=
  fun s => handle_silent H hwr hpub s.1

/-- The routing changes the hardware only through what it is given. -/
theorem routing_silent {f : RxRouting → Traced η → Except Error Unit × Traced η × RxRouting}
    (hf : ∀ r h, Silent h (f r h).2.1) : Within (SilentOn Prod.fst) (routing f) :=
  fun s => hf s.2 s.1

theorem rxCidx_ne (ring : McuRxIrqRing) : rxCidx ring ≠ managementTxCidx := by
  cases ring <;> decide

/-- No request of the command engine touches the transmit memory. -/
theorem views_silent (r : Request) : Within (SilentOn Prod.fst) (views H.traced.toBoard r) := by
  cases r with
  | reclaimCommand slot | reclaimScatter slot =>
    exact .bind (port_silent H rfl rfl) fun _ => port_silent H rfl rfl
  | repostRxDescriptor ring slot fresh =>
    have hwrite := handle_silent H (p := writeDescriptor (.rxRing ring) slot fresh) rfl rfl
    exact routing_silent fun r h => (r.repost_keeps ring h (.of_eq rfl) (hwrite h) slot).1
  | publishRxProducer ring producer =>
    have hwrite := handle_silent H (p := .writeU32 (rxCidx ring) producer.toUInt32) rfl
      (by simp [Port.publishesTx, rxCidx_ne])
    exact routing_silent fun r h => (r.publish_keeps ring h (.of_eq rfl) (hwrite h) producer).1
  | prepareRxResult ring slot posted raw routed disposition =>
    exact routing_silent fun r h => .of_eq (congrArg _ (r.prepare_keeps ..).1)
  | completeRxResult ring slot =>
    exact routing_silent fun r h => .of_eq (congrArg _ (r.complete_keeps ..).1)
  | enableResponseInterrupts mask | maskResponseInterrupts =>
    exact .bind (port_silent H rfl rfl) fun _ => .guard (port_silent H rfl rfl)
  | readCommandDescriptor slot | readRxDescriptor ring slot | readScatterDescriptor slot =>
    exact .bind (port_silent H rfl rfl) fun _ => .pure _
  | abortRx => exact fun _ => .of_eq rfl
  | _ => exact port_silent H rfl rfl

/-! ## The engine and its commands -/

theorem engine_silent :
    Steps (activeMcu H.traced.toBoard)
      (SilentOn fun s : Session (Traced η × RxRouting) => s.transport.1)
      (fun _ => True) fun _ _ => True where
  request r _ s := views_silent H r s.transport
  update _ _ _ := .of_eq rfl

theorem commanding_silent : Commanding (activeMcu H.traced.toBoard)
    (SilentOn fun s : Session (Traced η × RxRouting) => s.transport.1) :=
  (engine_silent H).commanding (fun _ _ => trivial) fun _ _ _ _ => trivial

namespace FirmwareCommands

/-- The host of a command sequence. -/
def host (s : CommandState (Traced η)) : Traced η := s.session.transport.1

theorem onHost_silent {α : Type} {x : Eff (Traced η) Empty Status α} (hx : Within Silent x) :
    Within (SilentOn host) (onHost x) :=
  Within.zoom hx fun _ _ h => h

theorem onEngine_silent {α : Type} {x : Mcu (Traced η × RxRouting) Error α}
    (hx : Within (SilentOn fun s => s.transport.1) x) : Within (SilentOn host) (onEngine x) :=
  Within.zoom hx fun _ _ h => h

theorem reclaim_silent (expected : RadioResponse) :
    Within (SilentOn host) (reclaim H.traced expected) := by
  have hp : Within (SilentOn fun s : Session (Traced η × RxRouting) => s.transport.1)
      (LoaderMechanics.pollCommand (activeMcu H.traced.toBoard)) :=
    (commanding_silent H).pollCommand fun _ => (engine_silent H).modify fun _ => trivial
  refine .bind (onHost_silent (takeViews_silent H)) fun _ => ?_
  refine .bind (onEngine_silent hp) fun progress => ?_
  cases progress with
  | pending => exact .pure _
  | complete =>
    refine .ofExcept_bind fun _ => ?_
    exact .bind (fun _ => .of_eq rfl) fun _ => .pure _

theorem publish_silent (now : Nat) (context : Option OperationContext)
    (remaining : List (Bytes × RadioResponse)) :
    Within (SilentOn host) (publish H.traced now context remaining) := by
  cases remaining with
  | nil => exact .pure _
  | cons =>
    refine .bind (fun _ => .of_eq rfl) fun _ => ?_
    refine .bind (onHost_silent (takeViews_silent H)) fun _ => ?_
    refine .bind ?_ fun _ => ?_
    · cases context with
      | none => exact .pure _
      | some context =>
        refine .bind (onHost_silent fun _ => ⟨_, .singleton rfl, rfl⟩) fun now => ?_
        exact onHost_silent (check_silent H context now)
    refine .bind (onEngine_silent ?_) fun _ => ?_
    · exact (commanding_silent H).beginCommand
        (fun _ => (engine_silent H).modify fun _ => trivial) _ _
    exact .bind (fun _ => .of_eq rfl) fun _ => .pure _

theorem step_silent (now : Nat) (context : Option OperationContext) :
    Within (SilentOn host) (step H.traced now context) := by
  refine .look_bind fun s => ?_
  refine .guard ?_
  split
  · exact .guard (reclaim_silent H _)
  · exact .ite (.pure _) (publish_silent H _ _ _)

theorem drive_silent (now : Nat) (context : Option OperationContext) :
    Within (SilentOn host) (drive H.traced now context) := by
  have hchecked : Within (SilentOn host) (do checkTurn H.traced now context
                                             step H.traced now context) := by
    refine .bind ?_ fun _ => step_silent H now context
    cases context with
    | none => exact .pure _
    | some context => exact onHost_silent (check_silent H context now)
  refine .bind (.attempt hchecked) fun result => ?_
  cases result with
  | ok => exact .pure _
  | error => exact .bind (fun _ => .of_eq rfl) fun _ => .fail _

end FirmwareCommands

end

end Drv.Mt7921
