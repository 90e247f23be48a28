import Drv.Laws.Mt7921.Silence
import Drv.Base.Hoare

/-!
# One turn of the transmitter

The frame, the transmit words and the descriptor are shared with the
device. The part of a turn that stays on the channel leaves them and the
frame in flight alone (`Preparing`), so only the two halves of `step` are
followed call by call. `Moved` lists what they have done when they end,
with or without an error. What the device does with a descriptor it was
handed is any answer of the host.
-/

namespace Drv.Mt7921

open Drv.Softmac List Triple

/-! ## Channels and grants -/

/-- A grant that the phase holds or has received. -/
def RocPhase.holds (phase : RocPhase) (ends : Nat) : Prop :=
  phase = .granted ends ∨ ∃ commands deadline, phase = .acquiring commands deadline (some ends)

namespace ClientTx

/-- All queued frames are for the channel of the request, whose grant is
one of `V`. -/
structure Tuned (V : UInt8 → CandidateChannel → Nat → Prop) (tx : ClientTx) : Prop where
  together : ∀ f ∈ tx.queue, ∀ g ∈ tx.queue, f.channel = g.channel
  channel : ∀ roc, tx.roc = some roc → ∀ f ∈ tx.queue, f.channel = roc.channel
  granted : ∀ roc, tx.roc = some roc → ∀ ends, roc.phase.holds ends →
    V roc.token roc.channel ends

variable {tx' : ClientTx} {roc : Roc}

namespace Tuned

variable {V V' : UInt8 → CandidateChannel → Nat → Prop} {tx : ClientTx}
section
variable (h : Tuned V tx)
include h

theorem mono (hV : ∀ token channel ends, V token channel ends →
    V' token channel ends) : Tuned V' tx :=
  ⟨h.together, h.channel, fun roc hroc ends hends => hV _ _ _ (h.granted roc hroc ends hends)⟩

theorem shrink (hqueue : tx'.queue ⊆ tx.queue) (hroc : tx'.roc = tx.roc) : Tuned V tx' where
  together f hf g hg := h.together f (hqueue hf) g (hqueue hg)
  channel roc hr f hf := h.channel roc (hroc ▸ hr) f (hqueue hf)
  granted roc hr := h.granted roc (hroc ▸ hr)

theorem kept {W : UInt8 → CandidateChannel → Nat → Prop} (hqueue : tx'.queue ⊆ tx.queue)
    (hroc : tx'.roc = tx.roc) : Tuned (fun t c ends => V t c ends ∨ W t c ends) tx' :=
  (h.shrink hqueue hroc).mono fun _ _ _ => .inl

theorem drop : Tuned V { tx with roc := none } :=
  ⟨h.together, fun _ hroc => (by cases hroc), fun _ hroc => by cases hroc⟩

theorem setPhase {phase : RocPhase} (hroc : tx.roc = some roc)
    (hphase : ∀ ends, phase.holds ends → V roc.token roc.channel ends) :
    Tuned V (tx.setPhase phase) := by
  have hnew : (tx.setPhase phase).roc = some { roc with phase := phase } := by
    simp [ClientTx.setPhase, hroc]
  refine ⟨h.together, fun roc' hroc' => ?_, fun roc' hroc' => ?_⟩
  · cases hnew.symm.trans hroc'
    exact h.channel roc hroc
  · cases hnew.symm.trans hroc'
    exact hphase

theorem acquire {frame : QueuedFrame} {rest : List QueuedFrame} {now : Nat}
    (hqueue : tx.queue = frame :: rest)
    (hacq : tx.acquireRoc frame now = some tx') : Tuned V tx' := by
  have hfront : ∀ f ∈ tx.queue, f.channel = frame.channel :=
    fun f hf => h.together f hf frame (by simp [hqueue])
  obtain ⟨command, -, hacq⟩ := Option.bind_eq_some_iff.mp hacq
  cases hacq
  refine ⟨h.together, fun roc hroc => ?_, fun roc hroc ends hends => ?_⟩
  · cases hroc
    exact hfront
  · cases hroc
    rcases hends with hends | ⟨_, _, hends⟩ <;> cases hends

end

end Tuned

/-! ## The silent part of a turn -/

section
variable {η : Type}

def host (s : TxState (Traced η)) : Traced η := s.session.transport.1

/-- The frame in flight is left alone, and the request stays tuned. -/
structure Preparing (s s' : TxState (Traced η)) : Prop where
  silent : Silent (host s) (host s')
  pending : s'.tx.pending = s.tx.pending
  failed : s'.tx.failed = s.tx.failed
  tuned : ∀ V, Tuned V s.tx → Tuned V s'.tx

variable {s s' : TxState (Traced η)}

namespace Preparing

theorem of_tx (hsil : Silent (host s) (host s')) (htx : s'.tx = s.tx) : Preparing s s' :=
  ⟨hsil, by rw [htx], by rw [htx], fun _ h => htx ▸ h⟩

theorem trans {a b c : TxState (Traced η)} (hab : Preparing a b) (hbc : Preparing b c) :
    Preparing a c :=
  ⟨hab.silent.trans hbc.silent, hbc.pending.trans hab.pending, hbc.failed.trans hab.failed,
    fun V h => hbc.tuned V (hab.tuned V h)⟩

end Preparing

instance : IsPreorder (TxState (Traced η)) Preparing where
  refl _ := .of_tx (.of_eq rfl) rfl
  trans _ _ _ := Preparing.trans

/-- The transmitter was not touched. -/
def Idle (s s' : TxState (Traced η)) : Prop := Silent (host s) (host s') ∧ s'.tx = s.tx

theorem Idle.preparing (h : Idle s s') : Preparing s s' :=
  .of_tx h.1 h.2

instance : IsPreorder (TxState (Traced η)) Idle where
  refl _ := ⟨.of_eq rfl, rfl⟩
  trans _ _ _ hab hbc := ⟨hab.1.trans hbc.1, hbc.2.trans hab.2⟩

theorem onHost_idle {α : Type} {x : Eff (Traced η) Empty Status α} (hx : Within Silent x) :
    Within Idle (onHost x) :=
  Within.zoom hx fun _ _ h => ⟨h, rfl⟩

variable (H : Host η)

theorem expired_idle (context : OperationContext) (now : Nat) :
    Within Idle (expired H.traced context now) := by
  refine .bind (.attempt (onHost_idle (check_silent H context now))) fun result => ?_
  cases result with
  | ok => exact .pure _
  | error => exact .pure _

variable (now : Nat)

theorem liveFrames_triple (s₀ : TxState (Traced η)) (frames : List QueuedFrame) :
    Triple (Idle s₀) (liveFrames H.traced now frames)
      (fun live s => live ⊆ frames ∧ Idle s₀ s) (fun _ => Idle s₀) := by
  induction frames with
  | nil => exact .pure fun s hs => ⟨Subset.refl _, hs⟩
  | cons frame rest ih =>
    refine .bind (.of_within (expired_idle H _ _) fun _ _ h hs => trans_of Idle hs h) fun dead => ?_
    refine .bind ih fun live => .and_pre fun hlive => .pure fun s hs => ⟨?_, hs⟩
    cases dead with
    | true => exact subset_cons_of_subset _ hlive
    | false => exact cons_subset_cons _ hlive

theorem retainLive_preparing : Within Preparing (retainLive H.traced now) := by
  refine .of_triple fun s₀ => ?_
  refine .look_eq (fun s hs => congrArg TxState.tx hs) ?_
  have hlive := (liveFrames_triple H now s₀ s₀.tx.queue).conseq
    (fun s (hs : s = s₀) => hs ▸ refl_of Idle s₀) (fun _ _ h => h) (fun _ _ h => h.preparing)
  refine .bind hlive fun live => .and_pre fun hsub => ?_
  refine .bind (.modify fun s hs => ?_) fun _ => .pure fun s hs => hs
  refine ⟨hs.1, by rw [← hs.2], by rw [← hs.2], fun V hV => ?_⟩
  exact hV.shrink hsub (by rw [← hs.2])

theorem requestRoc_preparing : Within Preparing (requestRoc H.traced now) := by
  refine .of_triple fun s₀ => ?_
  refine .look_eq (fun s hs => congrArg TxState.tx hs) ?_
  refine .weaken_pre (P := Idle s₀) ?_ fun s hs => hs ▸ refl_of Idle s₀
  have hstay : ∀ b : Bool, Leads (Idle s₀) (pure b : Tx (Traced η) Bool) (Preparing s₀) :=
    fun b => pure fun s hs => hs.preparing
  split
  next frame rest hroc hqueue =>
    apply Triple.ite
    · exact fun _ => hstay false
    intro _
    refine bind ((of_within (onHost_idle (check_silent H _ _)) fun _ _ h hs =>
      trans_of Idle hs h).weaken_error fun _ _ h => h.preparing)
      fun _ => ?_
    cases hasked : s₀.tx.acquireRoc frame now with
    | none => exact .fail fun s hs => hs.preparing
    | some =>
      obtain ⟨command, -, heq⟩ := Option.bind_eq_some_iff.mp hasked
      refine .of_outcome fun s hs => .inl ⟨_, rfl, ?_⟩
      refine ⟨hs.1, ?_, ?_, fun V hV => hV.acquire hqueue hasked⟩
      · cases heq; rfl
      · cases heq; rfl
  next => exact hstay false

/-- Besides, the request is the given one. -/
def Holding (s₀ : TxState (Traced η)) (roc : Roc) (s : TxState (Traced η)) : Prop :=
  Preparing s₀ s ∧ s.tx.roc = some roc

theorem Holding.idle {s₀ s s' : TxState (Traced η)} (h : Holding s₀ roc s) (hidle : Idle s s') :
    Holding s₀ roc s' :=
  ⟨h.1.trans hidle.preparing, hidle.2 ▸ h.2⟩

theorem Holding.setPhase {s₀ s : TxState (Traced η)} (h : Holding s₀ roc s) {phase : RocPhase}
    (hphase : ∀ ends, phase.holds ends → roc.phase.holds ends)
    {session : Session (Traced η × RxRouting)} (hsil : Silent (host s) session.transport.1) :
    Holding s₀ { roc with phase := phase } ⟨s.tx.setPhase phase, session⟩ := by
  refine ⟨h.1.trans ⟨hsil, rfl, rfl, fun V hV => ?_⟩, by simp [ClientTx.setPhase, h.2]⟩
  exact hV.setPhase h.2 fun ends hends => hV.granted roc h.2 ends (hphase ends hends)

section
variable (s₀ : TxState (Traced η)) (roc : Roc)

theorem expired_holding (context : OperationContext) (now : Nat) :
    Triple (Holding s₀ roc) (expired H.traced context now)
      (fun _ => Holding s₀ roc) (fun _ => Preparing s₀) :=
  (of_within (expired_idle H context now) fun _ _ hidle h => Holding.idle h hidle).weaken_error
    fun _ _ h => h.1

theorem driveCommands_holding (now : Nat) (context : Option OperationContext)
    (commands : FirmwareCommands) {phase : FirmwareCommands → RocPhase}
    (hphase : ∀ c ends, (phase c).holds ends → roc.phase.holds ends) :
    Triple (Holding s₀ roc) (driveCommands H.traced now context commands phase)
      (fun driven => Holding s₀ { roc with phase := phase driven.2 }) (fun _ => Preparing s₀) := by
  intro s hs
  have hsil := FirmwareCommands.drive_silent H now context ⟨commands, s.session⟩
  have hnx := Holding.setPhase hs
    (hphase (FirmwareCommands.drive H.traced now context ⟨commands, s.session⟩).state.commands)
    hsil
  refine ⟨fun driven hdriven => ?_, fun _ _ => hnx.1⟩
  simp only [driveCommands, Except.map] at hdriven
  split at hdriven
  · cases hdriven
  · cases hdriven
    exact hnx

theorem releaseRoc_holding (token : UInt8) :
    Leads (Holding s₀ roc) (releaseRoc token) (Preparing s₀) := by
  unfold releaseRoc
  cases encodeClientJoinRocAbort 1 0 token with
  | none => exact .fail fun s hs => hs.1
  | some =>
    intro s hs
    refine ⟨fun _ _ => (Holding.setPhase hs ?_ (.of_eq rfl)).1, fun _ he => by cases he⟩
    rintro ends (hends | ⟨_, _, hends⟩) <;> cases hends

theorem dropRoc_preparing {P : TxState (Traced η) → Prop} (hP : ∀ s, P s → Preparing s₀ s) :
    Leads P dropRoc (Preparing s₀) := by
  refine .bind (.modify fun s hs => ?_) fun _ => .pure fun _ h => h
  exact (hP s hs).trans ⟨.of_eq rfl, rfl, rfl, fun V hV => hV.drop⟩

theorem driveAcquiring_holding (now : Nat) (commands : FirmwareCommands) (deadline : Nat)
    (grant : Option Nat) (hphase : roc.phase = .acquiring commands deadline grant) :
    Leads (Holding s₀ roc) (driveAcquiring H.traced now roc commands deadline grant)
      (Preparing s₀) := by
  have hcmds : ∀ context more, Triple (Holding s₀ roc)
      (driveCommands H.traced now context more (.acquiring · deadline grant))
      (fun driven => Holding s₀ { roc with phase := .acquiring driven.2 deadline grant })
      (fun _ => Preparing s₀) := by
    intro context more
    apply driveCommands_holding
    rintro c ends (hends | ⟨_, _, hends⟩)
    · cases hends
    · cases hends
      exact .inr ⟨_, _, hphase⟩
  have hdone : ∀ (progressed : Bool) (c : FirmwareCommands),
      Leads (Holding s₀ { roc with phase := .acquiring c deadline grant })
        (pure progressed : Tx (Traced η) Bool) (Preparing s₀) :=
    fun _ _ => .pure fun _ hs => hs.1
  refine .bind (expired_holding H s₀ roc _ now) fun dead => ?_
  apply Triple.ite
  · refine fun _ => ite (fun _ => dropRoc_preparing s₀ fun _ hs => hs.1) fun _ => ?_
    refine .bind (hcmds none _) fun driven => ?_
    exact .ite (fun _ => releaseRoc_holding s₀ _ _) fun _ => hdone _ _
  · refine fun _ => .guard (fun _ hs => hs.1) ?_
    refine .bind (hcmds (some roc.context) _) fun driven => ?_
    cases grant with
    | none => exact hdone _ _
    | some =>
      refine .ite (fun _ => ?_) fun _ => hdone _ _
      intro s hs
      refine ⟨fun _ _ => (Holding.setPhase hs ?_ (.of_eq rfl)).1, fun _ he => by cases he⟩
      rintro ends' (hends | ⟨_, _, hends⟩)
      · cases hends
        exact .inr ⟨_, _, rfl⟩
      · cases hends

end

theorem driveRoc_preparing : Within Preparing (driveRoc H.traced now) := by
  refine .of_triple fun s₀ => ?_
  refine .look_bind fun tx => ?_
  cases hroc : tx.roc with
  | none => exact .pure fun s hs => hs.1 ▸ refl_of Preparing s₀
  | some roc =>
    refine .weaken_pre (P := Holding s₀ roc) ?_ fun s hs => ?_
    · dsimp only
      split
      next commands deadline grant hphase =>
        exact driveAcquiring_holding H s₀ roc now commands deadline grant hphase
      next ends hphase =>
        refine .ite (fun _ => releaseRoc_holding s₀ roc _) fun _ => ?_
        refine .bind (expired_holding H s₀ roc _ now) fun dead => ?_
        exact .ite (fun _ => releaseRoc_holding s₀ roc _) fun _ =>
          pure fun _ hs => hs.1
      next commands hphase =>
        have hdriven : Triple (Holding s₀ roc) (driveCommands H.traced now none commands .releasing)
            (fun driven => Holding s₀ { roc with phase := .releasing driven.2 })
            (fun _ => Preparing s₀) := by
          apply driveCommands_holding
          rintro c ends (hends | ⟨_, _, hends⟩) <;> cases hends
        refine .bind hdriven fun driven => ?_
        exact .ite (fun _ => dropRoc_preparing s₀ fun _ hs => hs.1) fun _ =>
          pure fun _ hs => hs.1
    · obtain ⟨rfl, rfl⟩ := hs
      exact ⟨refl_of Preparing s, hroc⟩

/-! ## The two halves of `step` -/

/-- Seen with the consumer index at its next slot and its descriptor done. -/
def Seen (p : PublishedFrame) (events : List TxEvent) : Prop :=
  ∃ bytes, (DmaDescriptor.fromBytes bytes).isDmaDone = true ∧
    [TxEvent.call ⟨.readU32 managementTxDidx, .ok p.next.toUInt32⟩,
      .call ⟨.read .managementTxRing (p.slot.toNat * dmaDescriptorLen) dmaDescriptorLen,
        .ok bytes⟩].Sublist events

/-- What `step` has done when it ends, by its own events. -/
inductive Moved (tx : ClientTx) (grantUntil : Option Nat) : List TxEvent → ClientTx → Prop
  | idle {events} (hquiet : QuietTx events) : Moved tx grantUntil events tx
  | watched {events q} (hpending : tx.pending = some q) (hquiet : QuietTx events)
      (hseen : Seen q events) :
      Moved tx grantUntil events { tx with pending := some { q with descriptorDone := true } }
  | clearing {events writes q pending retired} (hpending : tx.pending = some q)
      (hquiet : QuietTx events) (hwrites : ∀ e ∈ writes, e.publishes = false)
      (hfreed : q.freed = true) (hdone : q.descriptorDone = true ∨ Seen q events)
      (hafter : pending = none ∨ pending = some { q with descriptorDone := true }) :
      Moved tx grantUntil (events ++ writes)
        { tx with pending := pending, retiredPids := retired }
  | writing {events writes frame rest pid now} (hpending : tx.pending = none)
      (hqueue : tx.queue = frame :: rest) (hquiet : QuietTx events)
      (hwrites : ∀ e ∈ writes, e.publishes = false) :
      Moved tx grantUntil (events ++ writes) (tx.own frame rest pid now)
  | published {events frame rest pid now} {answer : Except Hardware.Error Unit}
      (hpending : tx.pending = none) (hqueue : tx.queue = frame :: rest)
      (hevents : ∀ e ∈ events, e.publishes = false)
      (hgranted : frame.data = false → ∃ ends moment, grantUntil = some ends ∧ moment < ends ∧
        events.getLast? = some (.clock moment)) :
      Moved tx grantUntil
        (events ++ [.call ⟨.writeU32 managementTxCidx (tx.own frame rest pid now).producer.toUInt32,
          answer⟩])
        (tx.own frame rest pid now)

/-- After so many events of its own. -/
def At (log : List TxEvent) (tx : ClientTx) (events : List TxEvent) (s : TxState (Traced η)) :
    Prop :=
  s.tx = tx ∧ (host s).2 = log ++ events

/-- An end of `step`. -/
def Ends (log : List TxEvent) (tx : ClientTx) (grantUntil : Option Nat)
    (s : TxState (Traced η)) : Prop :=
  ∃ events, (host s).2 = log ++ events ∧ Moved tx grantUntil events s.tx

theorem At.ends {log events : List TxEvent} {tx : ClientTx} {grantUntil : Option Nat}
    {s : TxState (Traced η)} (h : At log tx' events s) (hmoved : Moved tx grantUntil events tx') :
    Ends log tx grantUntil s :=
  ⟨events, h.2, h.1 ▸ hmoved⟩

section
variable {log : List TxEvent} {tx : ClientTx} {events : List TxEvent} {p : Port}

theorem port_at :
    Triple (At log tx events) (onHost (H.traced.port p))
      (fun a => At log tx (events ++ [.call ⟨p, .ok a⟩]))
      (fun _ s => ∃ answer, At log tx (events ++ [.call ⟨p, answer⟩]) s) := by
  intro s hs
  have hat : At log tx (events ++ [.call ⟨p, (H.handle p (host s).1).1⟩])
      (onHost (H.traced.port p) s).state := by
    refine ⟨hs.1, ?_⟩
    exact (congrArg (· ++ _) hs.2).trans (append_assoc ..)
  refine ⟨fun a ha => ?_, fun e he => ⟨_, hat⟩⟩
  have hans : (H.handle p (host s).1).1 = .ok a := by
    have hmap : (H.handle p (host s).1).1.mapError (fun _ => Status.io) = .ok a := ha
    cases hr : (H.handle p (host s).1).1 with
    | ok =>
      rw [hr] at hmap
      cases hmap
      rfl
    | error =>
      rw [hr] at hmap
      cases hmap
  rwa [hans] at hat

variable {E : TxState (Traced η) → Prop}

theorem port_bind {β : Type} {f : p.Answer → Tx (Traced η) β} {Q : β → TxState (Traced η) → Prop}
    (herr : ∀ answer s, At log tx (events ++ [.call ⟨p, answer⟩]) s → E s)
    (hok : ∀ a, Triple (At log tx (events ++ [.call ⟨p, .ok a⟩])) (f a) Q fun _ => E) :
    Triple (At log tx events) (onHost (H.traced.port p) >>= f) Q fun _ => E :=
  bind ((port_at H).weaken_error fun _ s ⟨answer, hat⟩ => herr answer s hat) hok

theorem now_at :
    Triple (At log tx events) (onHost H.traced.now)
      (fun now => At log tx (events ++ [.clock now])) fun _ => E := by
  refine .of_outcome fun s hs => .inl ⟨_, rfl, hs.1, ?_⟩
  exact (congrArg (· ++ _) hs.2).trans (append_assoc ..)

theorem update_at (f : ClientTx → ClientTx) :
    Triple (At log tx events) (update f) (fun _ => At log (f tx) events) fun _ => E :=
  modify fun _ hs => ⟨hs.1 ▸ rfl, hs.2⟩

/-- Besides, nothing was published. -/
def Wrote (log : List TxEvent) (tx : ClientTx) (events : List TxEvent) (s : TxState (Traced η)) :
    Prop :=
  ∃ writes, (∀ e ∈ writes, e.publishes = false) ∧ At log tx (events ++ writes) s

variable {s : TxState (Traced η)}

theorem At.wrote (h : At log tx events s) : Wrote log tx events s :=
  ⟨[], by simp, h.1, by rw [append_nil]; exact h.2⟩

theorem Wrote.event {writes : List TxEvent} {e : TxEvent}
    (h : At log tx (events ++ writes ++ [e]) s) (hwrites : ∀ d ∈ writes, d.publishes = false)
    (he : e.publishes = false) : Wrote log tx events s :=
  ⟨_, forall_mem_concat hwrites he, append_assoc .. ▸ h⟩

theorem port_wrote (hp : p.publishesTx = false) :
    Leads (Wrote log tx events) (onHost (H.traced.port p)) (Wrote log tx events) := by
  rintro s ⟨writes, hwrites, hs⟩
  obtain ⟨hok, herr⟩ := port_at H s hs
  refine ⟨fun a ha => .event (hok a ha) hwrites hp, fun e he => ?_⟩
  obtain ⟨answer, hs'⟩ := herr e he
  exact .event hs' hwrites hp

/-! ### With a frame in flight -/

variable {q : PublishedFrame} {grantUntil : Option Nat}

theorem clear_ends (hpending : tx.pending = some q) (hquiet : QuietTx events)
    (hfreed : q.freed = true) (hdone : q.descriptorDone = true ∨ Seen q events) :
    Leads (At log { tx with pending := some { q with descriptorDone := true } } events)
      (clear H.traced { q with descriptorDone := true })
      (Ends log tx grantUntil) := by
  let clearing (retired : List UInt8) : ClientTx :=
    { tx with pending := some { q with descriptorDone := true }, retiredPids := retired }
  have hretire : Triple
      (At log { tx with pending := some { q with descriptorDone := true } } events)
      (retirePid { q with descriptorDone := true } : Tx (Traced η) Unit)
      (fun _ s => ∃ retired, Wrote log (clearing retired) events s)
      (fun _ => Ends log tx grantUntil) := by
    apply Triple.ite
    · exact fun _ => modify fun s hs => ⟨q.pid :: tx.retiredPids, At.wrote ⟨by rw [hs.1], hs.2⟩⟩
    · exact fun _ => .pure fun s hs => ⟨tx.retiredPids, At.wrote hs⟩
  have hport : ∀ (retired : List UInt8) (p : Port), p.publishesTx = false →
      Triple (Wrote log (clearing retired) events) (onHost (H.traced.port p))
        (fun _ => Wrote log (clearing retired) events) (fun _ => Ends log tx grantUntil) := by
    refine fun retired p hp => (port_wrote H hp).weaken_error ?_
    rintro _ s ⟨writes, hwrites, hs⟩
    exact hs.ends (.clearing hpending hquiet hwrites hfreed hdone (.inr rfl))
  refine .bind hretire fun _ => .exists_pre fun retired => ?_
  refine .bind (hport retired _ rfl) fun _ => ?_
  refine .bind (hport retired _ rfl) fun _ => ?_
  refine .bind (hport retired _ rfl) fun _ => ?_
  refine .bind (.modify ?_) fun _ => .pure fun _ h => h
  rintro s ⟨writes, hwrites, htx, hlog⟩
  refine ⟨events ++ writes, hlog, ?_⟩
  rw [htx]
  exact .clearing hpending hquiet hwrites hfreed hdone (.inl rfl)

variable (now : Nat)

theorem settle_ends (changed : Bool) (hpending : tx.pending = some q) (hquiet : QuietTx events)
    (hseen : changed = true → Seen q events) :
    Leads
      (At log { tx with pending := some { q with descriptorDone := q.descriptorDone || changed } }
        events)
      (settle H.traced now { q with descriptorDone := q.descriptorDone || changed } changed)
      (Ends log tx grantUntil) := by
  have hmoved : Moved tx grantUntil events
      { tx with pending := some { q with descriptorDone := q.descriptorDone || changed } } := by
    cases changed with
    | true =>
      rw [Bool.or_true]
      exact .watched hpending hquiet (hseen rfl)
    | false =>
      rw [Bool.or_false, ← hpending]
      exact .idle hquiet
  apply Triple.ite
  · exact fun _ => guard (fun _ hs => hs.ends hmoved) (pure fun _ hs => hs.ends hmoved)
  intro hret
  simp only [Bool.not_eq_true', Bool.and_eq_true, Bool.not_eq_false] at hret
  obtain ⟨hdone, hfreed⟩ := hret
  refine .ite (fun _ => .pure fun s hs => hs.ends hmoved) fun _ => ?_
  rw [hdone]
  refine clear_ends H hpending hquiet hfreed ?_
  rcases Bool.or_eq_true_iff.mp hdone with hdone | hchanged
  · exact .inl hdone
  · exact .inr (hseen hchanged)

theorem reclaim_ends (hpending : tx.pending = some q) :
    Leads (At log tx []) (reclaim H.traced now q) (Ends log tx grantUntil) := by
  refine port_bind H (fun answer s hs => hs.ends (.idle (.singleton rfl))) fun didx => ?_
  refine .ite (fun _ => .fail fun s hs => hs.ends (.idle (.singleton rfl))) fun _ => ?_
  have hquiet : ∀ answer, QuietTx ([] ++ [TxEvent.call ⟨.readU32 managementTxDidx, .ok didx⟩] ++
      [.call ⟨.read .managementTxRing (q.slot.toNat * dmaDescriptorLen) dmaDescriptorLen,
        answer⟩]) :=
    fun answer => .append (.singleton rfl) (.singleton rfl)
  refine port_bind H (fun answer s hs => hs.ends (.idle (hquiet answer))) fun bytes => ?_
  refine .bind (update_at _) fun _ => ?_
  refine settle_ends H now _ hpending (hquiet _) fun hchanged => ?_
  simp only [Bool.and_eq_true, beq_iff_eq] at hchanged
  obtain ⟨⟨-, hnx⟩, hdmaDone⟩ := hchanged
  refine ⟨bytes, hdmaDone, ?_⟩
  rw [← hnx]
  exact Sublist.refl _

/-! ### With nothing in flight -/

variable {frame : QueuedFrame} {rest : List QueuedFrame}

/-- The writes of a publication, with its grant checked just now. -/
def Ready (log : List TxEvent) (tx : ClientTx) (frame : QueuedFrame) (grantUntil : Option Nat)
    (events : List TxEvent) (s : TxState (Traced η)) : Prop :=
  ∃ writes, (∀ e ∈ writes, e.publishes = false) ∧ At log tx (events ++ writes) s ∧
    (frame.data = false → ∃ ends moment, grantUntil = some ends ∧ moment < ends ∧
      (events ++ writes).getLast? = some (.clock moment))

theorem checkGrant_ready :
    Triple (Wrote log tx events) (checkGrant H.traced frame grantUntil)
      (fun _ => Ready log tx frame grantUntil events) (fun _ => Wrote log tx events) := by
  refine .ite (fun hdata => .pure fun s hs => ?_) fun _ => ?_
  · obtain ⟨writes, hwrites, hs⟩ := hs
    exact ⟨writes, hwrites, hs, fun hnot => absurd (hdata.symm.trans hnot) (by decide)⟩
  cases grantUntil with
  | none => exact .fail fun s hs => hs
  | some deadline =>
    refine .exists_pre fun writes => .and_pre fun hwrites => ?_
    refine .bind (now_at H) fun moment => ?_
    refine .ite (fun _ => .fail fun s hs => .event hs hwrites rfl) fun hpre =>
      pure fun s hs => ?_
    refine ⟨_, forall_mem_concat hwrites rfl, append_assoc .. ▸ hs, fun _ => ?_⟩
    exact ⟨deadline, moment, rfl, Nat.lt_of_not_le hpre, by simp⟩

theorem publish_ends (pid : UInt8) (encoded : Mt7921MgmtTx) (hpending : tx.pending = none)
    (hqueue : tx.queue = frame :: rest) (hquiet : QuietTx events) :
    Leads (At log tx events) (publish H.traced tx frame rest now grantUntil pid encoded)
      (Ends log tx grantUntil) := by
  let owned := tx.own frame rest pid now
  have hends : ∀ s : TxState (Traced η), Wrote log owned events s → Ends log tx grantUntil s := by
    rintro s ⟨writes, hwrites, hs⟩
    exact hs.ends (.writing hpending hqueue hquiet hwrites)
  have hport : ∀ p : Port, p.publishesTx = false → Triple (Wrote log owned events)
      (onHost (H.traced.port p)) (fun _ => Wrote log owned events)
      (fun _ => Ends log tx grantUntil) :=
    fun p hp => (port_wrote H hp).weaken_error fun _ => hends
  have hnow : Triple (Wrote log owned events) (onHost H.traced.now)
      (fun _ => Wrote log owned events) (fun _ => Ends log tx grantUntil) :=
    .exists_pre fun writes => .and_pre fun hwrites =>
      (now_at H).weaken_post fun _ _ h => .event h hwrites rfl
  have hchk : ∀ moment, Triple (Wrote log owned events)
      (onHost (H.traced.check frame.context moment)) (fun _ => Wrote log owned events)
      (fun _ => Ends log tx grantUntil) :=
    fun moment s hs => ⟨fun _ _ => hs, fun _ _ => hends s hs⟩
  refine .bind (R := fun _ => Wrote log owned events)
    (.modify fun s hs => At.wrote ⟨rfl, hs.2⟩) fun _ => ?_
  refine .bind (hport _ rfl) fun _ => ?_
  refine .bind (hport _ rfl) fun _ => ?_
  refine .bind (hport _ rfl) fun _ => ?_
  refine .bind hnow fun moment => ?_
  refine .bind (hchk moment) fun _ => ?_
  refine .bind ((checkGrant_ready H).weaken_error fun _ => hends) fun _ => ?_
  refine .exists_pre fun writes => .and_pre fun hwrites => ?_
  refine .of_pre (fun s hs => hs.2) fun hgranted => ?_
  refine .and_left ?_
  have hpub : ∀ answer (s : TxState (Traced η)), At log owned (events ++ writes ++
        [.call ⟨.writeU32 managementTxCidx owned.producer.toUInt32, answer⟩]) s →
      Ends log tx grantUntil s := by
    refine fun answer s hs => hs.ends (.published hpending hqueue ?_ hgranted)
    exact forall_mem_append.mpr ⟨fun _ => hquiet.publishes, hwrites⟩
  exact port_bind H hpub fun _ => .pure (hpub _)

/-- The hardware was only looked at. -/
def Looked (log : List TxEvent) (tx : ClientTx) (s : TxState (Traced η)) : Prop :=
  ∃ events, QuietTx events ∧ At log tx events s

theorem Looked.ends (h : Looked log tx s) : Ends log tx grantUntil s := by
  obtain ⟨events, hquiet, hs⟩ := h
  exact hs.ends (.idle hquiet)

theorem port_looked (hwrites : p.writesTx = false) (hpubl : p.publishesTx = false) :
    Triple (Looked log tx) (onHost (H.traced.port p)) (fun _ => Looked log tx)
      (fun _ => Ends log tx grantUntil) := by
  have hev : ∀ answer, TxEvent.quiet (.call ⟨p, answer⟩) = true := by
    simp [TxEvent.quiet, TxEvent.writes, TxEvent.publishes, hwrites, hpubl]
  rintro s ⟨events, hquiet, hs⟩
  obtain ⟨hok, herr⟩ := port_at H s hs
  refine ⟨fun a ha => ⟨_, hquiet.append (.singleton (hev _)), hok a ha⟩, fun e he => ?_⟩
  obtain ⟨answer, hs'⟩ := herr e he
  exact hs'.ends (.idle (hquiet.append (.singleton (hev answer))))

theorem orFail_looked {α : Type} (status : Status) (x : Option α) :
    Triple (Looked log tx) (orFail status x : Tx (Traced η) α) (fun _ => Looked log tx)
      (fun _ => Ends log tx grantUntil) := by
  cases x with
  | none => exact .fail fun s hs => hs.ends
  | some => exact .pure fun s hs => hs

theorem send_ends (hpending : tx.pending = none) :
    Leads (Looked log tx) (send H.traced now grantUntil tx) (Ends log tx grantUntil) := by
  unfold send
  split
  · exact .pure fun s hs => hs.ends
  next frame rest hqueue =>
    have hchk : Triple (Looked log tx) (onHost (H.traced.check frame.context now))
        (fun _ => Looked log tx) (fun _ => Ends log tx grantUntil) :=
      fun s hs => ⟨fun _ _ => hs, fun _ _ => Looked.ends hs⟩
    refine .bind hchk fun _ => ?_
    refine .ite (fun _ => .pure fun s hs => hs.ends) fun _ => ?_
    refine .bind (port_looked H rfl rfl) fun txwiIova => ?_
    refine .bind (port_looked H rfl rfl) fun frameIova => ?_
    refine .bind (orFail_looked _ _) fun pid => ?_
    refine .bind (orFail_looked _ _) fun encoded => ?_
    refine .bind (port_looked H rfl rfl) fun didx => ?_
    refine .bind (port_looked H rfl rfl) fun cidx => ?_
    refine .guard (fun s hs => hs.ends) ?_
    exact .exists_pre fun events => .and_pre fun hquiet =>
      publish_ends H now pid encoded hpending hqueue hquiet

theorem step_ends :
    Leads (At log tx []) (step H.traced now grantUntil) (Ends log tx grantUntil) := by
  refine .look_eq (fun s hs => hs.1) ?_
  cases hpending : tx.pending with
  | some => exact reclaim_ends H now hpending
  | none =>
    exact (send_ends H now hpending).weaken_pre fun s hs => ⟨[], by simp [QuietTx], hs⟩

end

end

end ClientTx

end Drv.Mt7921
