import Drv.Base.History
import Drv.Laws.Mt7921.Ownership

/-!
# Completion of commands

A command that was begun is polled until its slot was reclaimed and its
response, if it has one, was received. `command_completes_once` says what
a completion is worth in any run: it is the first since the command was
begun, the slot was reclaimed since, and exactly one event that answers
the command was received since. A command that failed stays with the
engine, which from then on refuses every operation.

An engine is idle, runs a command (`Running`) or holds a failed one
(`Poisoned`); each operation is checked once against these.

No time is bounded: a command whose slot never comes back stays pending.
-/

namespace Drv.Mt7921

open LoaderMechanics List Triple

variable {τ ε : Type}

/-! ## Firmware events of a log -/

/-- The descriptor that was read last. -/
def lastDescriptor (last : Option DmaDescriptor) : List (Call ε) → Option DmaDescriptor
  | [] => last
  | ⟨.readRxDescriptor _ _, .ok descriptor⟩ :: rest => lastDescriptor (some descriptor) rest
  | _ :: rest => lastDescriptor last rest

/-- The firmware event in a receive buffer, if it is one. -/
def firmwareIn (ring : McuRxIrqRing) (slot : UInt16) (bytes : Bytes) :
    Option DmaDescriptor → List FirmwareRx
  | none => []
  | some descriptor =>
    match routeMcuRxDescriptor (ringNumber ring) slot descriptor.ctrl bytes with
    | .ok (.firmware response) => [response]
    | _ => []

/-- What the last call received. -/
def receivedBy (last : Option DmaDescriptor) : Call ε → List FirmwareRx
  | ⟨.readRxBuffer ring slot _, .ok bytes⟩ => firmwareIn ring slot bytes last
  | _ => []

/-- The firmware events that the calls of a log received: buffers that
were read, each with the descriptor read before. -/
def firmwareEvents (last : Option DmaDescriptor) : List (Call ε) → List FirmwareRx
  | [] => []
  | c :: rest => receivedBy last c ++ firmwareEvents (lastDescriptor last [c]) rest

/-- An event that answers the command with a sequence number. -/
def answers (sequence : UInt8) (response : FirmwareRx) : Bool :=
  classifyFirmwareRx (some sequence) response.response = .matched

/-- The answers that a log received. -/
def answersIn (sequence : UInt8) (log : List (Call ε)) : List FirmwareRx :=
  (firmwareEvents none log).filter (answers sequence)

variable (last : Option DmaDescriptor) (a b : List (Call ε))

theorem lastDescriptor_append :
    lastDescriptor last (a ++ b) = lastDescriptor (lastDescriptor last a) b := by
  induction a generalizing last with
  | nil => rfl
  | cons c rest ih =>
    obtain ⟨r, answer⟩ := c
    cases r <;> first | exact ih _ | (cases answer <;> exact ih _)

theorem firmwareEvents_append :
    firmwareEvents last (a ++ b) =
      firmwareEvents last a ++ firmwareEvents (lastDescriptor last a) b := by
  induction a generalizing last with
  | nil => rfl
  | cons c rest ih =>
    rw [cons_append, firmwareEvents, firmwareEvents, ih, append_assoc, ← lastDescriptor_append]
    rfl

/-! ## The answers that polling receives -/

variable {wrap : ε → LoaderMechanicsError ε} {c : Call ε} {req : Request} {s s' : SessionLog τ ε}

section
variable {T : LoaderMechanicsTransport τ ε} {L : List (Call ε)} {sequence : UInt8}
  {got : List FirmwareRx}

/-- The answers received since a log, and the descriptor read last. -/
def Heard (L : List (Call ε)) (sequence : UInt8) (got : List FirmwareRx)
    (last : Option DmaDescriptor) (log : List (Call ε)) : Prop :=
  ∃ more, log = L ++ more ∧ answersIn sequence more = got ∧ lastDescriptor none more = last

/-- The answers received since a log. -/
def Since (L : List (Call ε)) (sequence : UInt8) (got : List FirmwareRx)
    (s : SessionLog τ ε) : Prop :=
  ∃ last, Heard L sequence got last s.log

theorem Heard.push {last : Option DmaDescriptor} {log log' : List (Call ε)}
    (h : Heard L sequence got last log) (hlog : log' = log ++ [c]) :
    Heard L sequence (got ++ (receivedBy last c).filter (answers sequence))
      (lastDescriptor last [c]) log' := by
  obtain ⟨more, hmore, rfl, rfl⟩ := h
  refine ⟨more ++ [c], ?_, ?_, lastDescriptor_append none more [c]⟩
  · rw [hlog, hmore, append_assoc]
  · simp [answersIn, firmwareEvents_append, firmwareEvents]

theorem Since.push (h : Since L sequence got s) (hlog : s'.log = s.log ++ [c])
    (hc : ∀ last, receivedBy last c = []) : Since L sequence got s' := by
  obtain ⟨last, hs⟩ := h
  have hs' := hs.push hlog
  rw [hc, filter_nil, append_nil] at hs'
  exact ⟨_, hs'⟩

theorem demand_since (hreq : ∀ last answer, receivedBy last (⟨req, answer⟩ : Call ε) = []) :
    Triple (Since L sequence got) (demand T.logged wrap req) (fun _ => Since L sequence got)
      (fun _ _ => True) := by
  apply demand_triple
  · exact fun s s' a hs _ hlog => hs.push hlog fun last => hreq last _
  · exact fun s s' e _ _ _ => trivial

theorem ask_triple {P : SessionLog τ ε → Prop} {Q : Except ε req.Answer → SessionLog τ ε → Prop}
    {E : LoaderMechanicsError ε → SessionLog τ ε → Prop}
    (h : ∀ s s' answer, P s → s'.mechanics = s.mechanics → s'.log = s.log ++ [⟨req, answer⟩] →
      Q answer s') : Triple P (ask T.logged req) Q E :=
  .of_outcome fun s hs => .inl ⟨_, rfl, h s _ _ hs rfl rfl⟩

variable (ring : McuRxIrqRing)

theorem repostRx_since (consumed : UInt16) :
    Triple (Since L sequence got) (repostRx T.logged ring consumed) (fun _ => Since L sequence got)
      (fun _ _ => True) := by
  refine .bind (demand_since fun _ _ => rfl) fun address => ?_
  refine .ofExcept_bind (fun fresh _ => ?_) fun _ _ _ => trivial
  refine .bind (demand_since fun _ _ => rfl) fun _ => ?_
  refine .bind (R := fun _ => Since L sequence got) (.modify fun s hs => hs) fun _ => ?_
  exact demand_since fun _ _ => rfl

theorem receiveRx_since (consumed : UInt16) (descriptor : DmaDescriptor) :
    Triple (fun s => Heard L sequence got (some descriptor) s.log)
      (receiveRx T.logged ring (some sequence) consumed descriptor)
      (fun found => Since L sequence (got ++ found.toList)) (fun _ _ => True) := by
  refine .bind (R := fun read s => ∀ bytes, read = .ok bytes → Since L sequence
    (got ++ (firmwareIn ring consumed bytes (some descriptor)).filter (answers sequence)) s)
    (ask_triple fun s s' read hs _ hlog bytes hread => ?_) fun read => ?_
  · subst hread
    exact ⟨_, hs.push hlog⟩
  cases read with
  | error => exact .bind_fail
  | ok bytes =>
    refine .weaken_pre ?_ fun s hs => hs bytes rfl
    refine .bind (demand_since fun _ _ => rfl) fun _ => ?_
    refine .bind (repostRx_since ring consumed) fun _ => ?_
    refine .bind (demand_since fun _ _ => rfl) fun _ => ?_
    -- what was read is what the code goes on to look at
    cases hroute : routeMcuRxDescriptor (ringNumber ring) consumed descriptor.ctrl bytes with
    | error => exact .fail fun _ _ => trivial
    | ok route =>
      cases route with
      | firmware response =>
        by_cases hmatch : classifyFirmwareRx (some sequence) response.response = .matched
        · simp only [if_pos hmatch]
          exact .pure fun s hs => by simpa [firmwareIn, hroute, answers, hmatch] using hs
        · simp only [if_neg hmatch]
          exact .pure fun s hs => by simpa [firmwareIn, hroute, answers, hmatch] using hs
      | _ => exact .pure fun s hs => by simpa [firmwareIn, hroute] using hs

variable (budget : Nat)

theorem drainRx_since (found : Option FirmwareRx) :
    Triple (Since L sequence (got ++ found.toList))
      (drainRx T.logged ring (some sequence) budget found)
      (fun found => Since L sequence (got ++ found.toList)) (fun _ _ => True) := by
  induction budget generalizing found with
  | zero => exact .pure fun s hs => hs
  | succ budget ih =>
    refine .look_bind fun m => ?_
    refine .bind (R := fun descriptor s => Heard L sequence (got ++ found.toList)
      (some descriptor) s.log) ?_ fun descriptor => ?_
    · apply demand_triple
      · rintro s s' descriptor ⟨⟨last, hs⟩, -⟩ _ hlog
        have hs' := hs.push hlog
        rwa [receivedBy, filter_nil, append_nil] at hs'
        simp
      · exact fun _ _ _ _ _ _ => trivial
    refine .ite (fun _ => ?_) fun _ => .pure fun s hs => ⟨_, hs⟩
    refine .bind (receiveRx_since ring _ descriptor) fun received => ?_
    cases received with
    | none => simpa using ih found
    | some response =>
      cases found with
      | some => exact .fail fun _ _ => trivial
      | none => simpa using ih (some response)

theorem drainRings_since :
    Triple (Since L sequence got) (drainRings T.logged (some sequence) budget)
      (fun found => Since L sequence (got ++ found.toList)) (fun _ _ => True) := by
  refine .bind (demand_since fun _ _ => rfl) fun status => ?_
  refine .bind (demand_since fun _ _ => rfl) fun _ => ?_
  refine .bind ((drainRx_since .wm budget none).weaken_pre fun s hs => by simpa using hs)
    fun first => ?_
  refine .bind ((drainRx_since .wm2 budget none).weaken_pre fun s hs => by simpa using hs)
    fun second => ?_
  cases first with
  | none => exact .pure fun s hs => by simpa using hs
  | some =>
    cases second with
    | none => exact .pure fun s hs => by simpa using hs
    | some => exact .fail fun _ _ => trivial

theorem pollResponse_since :
    Triple (Since L sequence got) (pollResponse T.logged (some sequence) budget)
      (fun found => Since L sequence (got ++ found.toList)) (fun _ _ => True) := by
  refine .bind (ask_triple fun s s' mask hs _ hlog => hs.push hlog fun _ => rfl) fun mask => ?_
  cases mask with
  | error => exact .bind_fail
  | ok =>
    refine .attempt_bind (drainRings_since budget) (fun found => ?_) fun error => ?_
    · refine .bind
        (ask_triple fun s s' unmask hs _ hlog => hs.push hlog fun _ => rfl) fun unmask => ?_
      cases unmask with
      | ok => exact .pure fun s hs => hs
      | error => exact .bind_fail
    · refine .bind (ask_triple fun s s' unmask hs _ hlog => trivial) fun unmask => ?_
      cases unmask with
      | ok => exact .bind_fail
      | error => exact .bind_fail

end

/-! ## Phases of a command -/

/-- A command that is left with the engine. -/
def Begun (s : SessionLog τ ε) : Prop :=
  s.mechanics.deferredCommand.isSome = true ∧ s.mechanics.pendingScatter = none

/-- A command that failed is left with the engine. -/
def Poisoned (s : SessionLog τ ε) : Prop :=
  (∃ command, s.mechanics.deferredCommand = some command ∧ command.failed = true) ∧
    s.mechanics.pendingScatter = none

section
variable (L : List (Call ε))

/-- A call was made since a log. -/
def Logged (c : Call ε) (s : SessionLog τ ε) : Prop :=
  ∃ more, s.log = L ++ more ∧ c ∈ more

/-- A slot was reclaimed since a log. -/
abbrev Reclaimed (slot : UInt16) (s : SessionLog τ ε) : Prop :=
  Logged L ⟨.reclaimCommand slot, .ok ()⟩ s

/-- What a command has of its completion, and what was received for it. -/
inductive Answered (L : List (Call ε)) (sequence : UInt8) (log : List (Call ε)) :
    LoaderCommandCompletion → Option LoaderCompletion → Prop
  | silent : Answered L sequence log .noResponse (some .noResponse)
  | heard (got : Option FirmwareRx) (hsince : ∃ last, Heard L sequence got.toList last log) :
      Answered L sequence log .response (got.map .response)

/-- A command that is with the engine since the log was `L`, and what it has
of its completion. -/
structure Ongoing (slot : UInt16) (sequence : UInt8)
    (completion : Option LoaderCompletion) (s : SessionLog τ ε) : Prop where
  deferred : s.mechanics.deferredCommand = some ⟨slot, sequence, completion, false⟩
  scatter : s.mechanics.pendingScatter = none
  log : L <+: s.log
  reclaim : s.mechanics.pendingCommand = some slot ∨
    s.mechanics.pendingCommand = none ∧ Reclaimed L slot s

/-- A command that was published when the log was `L`. -/
def Running (wants : LoaderCommandCompletion) (slot : UInt16)
    (sequence : UInt8) (s : SessionLog τ ε) : Prop :=
  ∃ completion, Ongoing L slot sequence completion s ∧ Answered L sequence s.log wants completion

end

variable {wants : LoaderCommandCompletion} {L : List (Call ε)} {sequence : UInt8}

/-- The log grew, and the engine has the same commands and chunks. -/
structure SameCommand (s s' : SessionLog τ ε) : Prop where
  deferred : s'.mechanics.deferredCommand = s.mechanics.deferredCommand
  pending : s'.mechanics.pendingCommand = s.mechanics.pendingCommand
  scatter : s'.mechanics.pendingScatter = s.mechanics.pendingScatter
  log : s.log <+: s'.log

instance : IsPreorder (SessionLog τ ε) SameCommand where
  refl s := ⟨rfl, rfl, rfl, prefix_refl s.log⟩
  trans _ _ _ h h' := ⟨h'.deferred.trans h.deferred, h'.pending.trans h.pending,
    h'.scatter.trans h.scatter, h.log.trans h'.log⟩

theorem Logged.grows (h : Logged L c s) (hlog : s.log <+: s'.log) : Logged L c s' := by
  obtain ⟨more, hmore, hmem⟩ := h
  obtain ⟨rest, hrest⟩ := hlog
  refine ⟨more ++ rest, ?_, mem_append_left _ hmem⟩
  rw [← hrest, hmore, append_assoc]

theorem Logged.now (h : L <+: s.log) (hlog : s'.log = s.log ++ [c]) : Logged L c s' := by
  obtain ⟨more, hmore⟩ := h
  exact ⟨more ++ [c], by rw [hlog, ← hmore, append_assoc], by simp⟩

section
variable {slot : UInt16} {completion : Option LoaderCompletion} {s s' : SessionLog τ ε}

theorem Ongoing.begun (h : Ongoing L slot sequence completion s) : Begun s :=
  ⟨by rw [h.deferred]; rfl, h.scatter⟩

theorem Running.begun (h : Running L wants slot sequence s) : Begun s :=
  let ⟨_, hs, _⟩ := h
  hs.begun

theorem Ongoing.same (h : Ongoing L slot sequence completion s) (hsame : SameCommand s s') :
    Ongoing L slot sequence completion s' := by
  refine ⟨hsame.deferred ▸ h.deferred, hsame.scatter ▸ h.scatter, h.log.trans hsame.log, ?_⟩
  rw [hsame.pending]
  exact h.reclaim.imp_right fun hr => ⟨hr.1, hr.2.grows hsame.log⟩

end

section
variable (T : LoaderMechanicsTransport τ ε)

theorem same_steps : Steps T.logged SameCommand (fun _ => True)
    fun m m' => m'.deferredCommand = m.deferredCommand ∧ m'.pendingCommand = m.pendingCommand ∧
      m'.pendingScatter = m.pendingScatter where
  request req _ _ := ⟨rfl, rfl, rfl, [⟨req, _⟩], rfl⟩
  update s _ hm := ⟨hm.1, hm.2.1, hm.2.2, prefix_refl s.log⟩

/-! ## Polling a command -/

variable {T} {L : List (Call ε)} {wants : LoaderCommandCompletion} {slot : UInt16}
  {sequence : UInt8}

theorem keepResponse_running {got : Option FirmwareRx} (found : Option FirmwareRx) :
    Triple (fun s : SessionLog τ ε => Since L sequence (got.toList ++ found.toList) s ∧
        Ongoing L slot sequence (got.map .response) s)
      (keepResponse found : McuLog τ ε Unit)
      (fun _ => Running L .response slot sequence) (fun _ => Begun) := by
  cases found with
  | none =>
    refine .pure fun s ⟨hsince, hs⟩ => ⟨_, hs, .heard got ?_⟩
    rwa [Option.toList_none, append_nil] at hsince
  | some response =>
    refine .look_bind fun m => ?_
    refine .ite (fun _ => .fail fun s hs => hs.1.2.begun) fun hn => .modify ?_
    rintro s ⟨⟨hsince, hs⟩, hm⟩
    cases got with
    | some =>
      rw [← hm, hs.deferred] at hn
      exact absurd rfl hn
    | none =>
      refine ⟨_, { hs with deferred := ?_ }, .heard (some response) hsince⟩
      show s.mechanics.deferredCommand.map _ = _
      rw [hs.deferred]
      rfl

theorem receive_bind {β : Type} {rest : McuLog τ ε β} {Q : β → SessionLog τ ε → Prop}
    (completion : Option LoaderCompletion)
    (hrest : Triple (Running L wants slot sequence) rest Q fun _ => Begun) :
    Triple (fun s => Ongoing L slot sequence completion s ∧
        Answered L sequence s.log wants completion)
      (do
        keepResponse (← pollResponse T.logged
          (if completion ≠ some .noResponse then some sequence else none) 7)
        rest)
      Q (fun _ => Begun) := by
  intro s₀ ⟨hs₀, hans⟩
  have hsame := (same_steps T).pollResponse (fun _ _ => trivial) (fun _ _ => ⟨rfl, rfl, rfl⟩)
  cases hans with
  | silent =>
    -- such a command asks for no response, and takes any for a duplicate
    have hp : Leads (Ongoing L slot sequence (some .noResponse)) (pollResponse T.logged none 7)
        (Ongoing L slot sequence (some .noResponse)) :=
      .of_within (hsame none 7) fun _ _ h hs => hs.same h
    have hkeep : ∀ found, Triple (Ongoing L slot sequence (some .noResponse))
        (keepResponse found : McuLog τ ε Unit)
        (fun _ => Running L .noResponse slot sequence) (fun _ => Begun) := by
      intro found
      cases found with
      | none => exact .pure fun _ hs => ⟨_, hs, .silent⟩
      | some =>
        refine .look_bind fun m => .ite (fun _ => .fail fun s hs => hs.1.begun) ?_
        intro hn
        refine of_pre (fun s hs => hn ?_) False.elim
        rw [← hs.2, hs.1.deferred]
        rfl
    exact bind (hp.weaken_error fun _ _ h => h.begun)
      (fun found => bind (hkeep found) fun _ => hrest) s₀ hs₀
  | heard got hsince =>
    have hexpects : got.map LoaderCompletion.response ≠ some .noResponse := by
      cases got <;> simp
    rw [if_pos hexpects]
    have hrecv : Triple (Since L sequence got.toList)
        (pollResponse T.logged (some sequence) 7) _ _ := pollResponse_since 7
    have hp := hrecv.and_within (I := Ongoing L slot sequence (got.map .response))
      (hsame (some sequence) 7) fun _ _ h hs => hs.same h
    exact bind (hp.weaken_error fun _ _ h => h.2.begun)
      (fun found => bind (keepResponse_running found) fun _ => hrest) s₀ ⟨hsince, hs₀⟩

variable {s : SessionLog τ ε}

theorem Running.push {s' : SessionLog τ ε} (h : Running L wants slot sequence s)
    (hm : s'.mechanics = s.mechanics) (hlog : s'.log = s.log ++ [c])
    (hc : ∀ last, receivedBy last c = []) : Running L wants slot sequence s' := by
  obtain ⟨completion, hs, hans⟩ := h
  refine ⟨_, hs.same ⟨by rw [hm], by rw [hm], by rw [hm], [c], hlog.symm⟩, ?_⟩
  cases hans with
  | silent => exact .silent
  | heard got hsince => exact .heard got (Since.push hsince hlog hc)

variable {m : LoaderMechanics}

theorem demand_running (hreq : ∀ last answer, receivedBy last (⟨req, answer⟩ : Call ε) = []) :
    Triple (fun s => Running L wants slot sequence s ∧ s.mechanics = m) (demand T.logged wrap req)
      (fun _ s => Running L wants slot sequence s ∧ s.mechanics = m) (fun _ => Begun) := by
  apply demand_triple
  · exact fun s s' a hs hm hlog => ⟨hs.1.push hm hlog fun last => hreq last _, hm.trans hs.2⟩
  · exact fun s s' e hs hm hlog => (hs.1.push hm hlog fun last => hreq last _).begun

theorem tryReclaimCommand_running :
    Triple (Running L wants slot sequence) (tryReclaimCommand T.logged)
      (fun reclaimed s => Running L wants slot sequence s ∧
        (reclaimed = true → s.mechanics.pendingCommand = none)) (fun _ => Begun) := by
  refine .look_bind fun m => ?_
  cases hpend : m.pendingCommand with
  | none => exact .pure fun s hs => ⟨hs.1, fun _ => hs.2 ▸ hpend⟩
  | some held =>
    refine .of_pre (p := held = slot) (fun s hs => ?_) ?_
    · obtain ⟨⟨_, hon, -⟩, hm⟩ := hs
      rcases hon.reclaim with hheld | ⟨hn, -⟩
      · rw [hm, hpend] at hheld
        exact Option.some.inj hheld
      · rw [hm, hpend] at hn
        cases hn
    rintro rfl
    refine .bind (R := fun _ s => Running L wants held sequence s ∧ s.mechanics = m) ?_
      fun consumed => ?_
    · refine .bind (demand_running fun _ _ => rfl) fun didx => ?_
      exact .guard (fun s hs => hs.1.begun) (.pure fun s hs => hs)
    refine .ite (fun _ => ?_) fun _ => .pure fun s hs => ⟨hs.1, by simp⟩
    refine .bind (demand_running fun _ _ => rfl) fun descriptor => ?_
    refine .ite (fun _ => ?_) fun _ => .fail fun s hs => hs.1.begun
    refine .bind (R := fun _ s => Running L wants held sequence s ∧ Reclaimed L held s) ?_
      fun _ => ?_
    · apply demand_triple
      · rintro s s' _ ⟨hs, -⟩ hm hlog
        have ⟨_, hon, _⟩ := hs
        exact ⟨hs.push hm hlog fun _ => rfl, .now hon.log hlog⟩
      · exact fun s s' e hs hm hlog => (hs.1.push hm hlog fun _ => rfl).begun
    refine .bind (R := fun _ s => Running L wants held sequence s ∧
      s.mechanics.pendingCommand = none) (.modify ?_) fun _ =>
        pure fun s hs => ⟨hs.1, fun _ => hs.2⟩
    rintro s ⟨⟨_, hs, hans⟩, hrecla⟩
    exact ⟨⟨_, { hs with reclaim := .inr ⟨rfl, hrecla⟩ }, hans⟩, rfl⟩

/-- What a completion leaves. -/
structure Completed (L : List (Call ε)) (wants : LoaderCommandCompletion) (slot : UInt16)
    (sequence : UInt8) (completion : LoaderCompletion) (s : SessionLog τ ε) :
    Prop where
  deferred : s.mechanics.deferredCommand = none
  reclaimed : Reclaimed L slot s
  answered : Answered L sequence s.log wants (some completion)

/-- What a turn leaves, by its answer. -/
def Progressed (L : List (Call ε)) (wants : LoaderCommandCompletion) (slot : UInt16)
    (sequence : UInt8) : LoaderCommandProgress → SessionLog τ ε → Prop
  | .pending _ => Running L wants slot sequence
  | .complete completion => Completed L wants slot sequence completion

theorem pumpCommand_running (before : LoaderMechanics) (completion : Option LoaderCompletion) :
    Triple (fun s => Ongoing L slot sequence completion s ∧
        Answered L sequence s.log wants completion)
      (pumpCommand T.logged sequence before (completion ≠ some .noResponse))
      (Progressed L wants slot sequence) (fun _ => Begun) := by
  simp only [pumpCommand, decide_eq_true_eq]
  apply receive_bind
  refine .bind tryReclaimCommand_running fun reclaimed => ?_
  refine .look_bind fun m => ?_
  split
  next completion hcompl =>
    refine .bind (.modify ?_) fun _ => .pure fun _ h => h
    rintro s ⟨⟨⟨kept, hs, hans⟩, hn⟩, rfl⟩
    have hk : kept = some completion := by
      rw [hs.deferred] at hcompl
      exact hcompl
    refine ⟨rfl, ?_, hk ▸ hans⟩
    rcases hs.reclaim with hheld | ⟨-, hrecla⟩
    · rw [hn rfl] at hheld
      cases hheld
    · exact hrecla
  next => exact .pure fun s hs => hs.1.1

theorem pollCommand_running :
    Triple (Running L wants slot sequence) (pollCommand T.logged) (Progressed L wants slot sequence)
      (fun _ => Poisoned) := by
  refine .look_bind fun m => ?_
  refine .weaken_pre (P := fun s => ∃ completion, (Ongoing L slot sequence completion s ∧
    Answered L sequence s.log wants completion) ∧ s.mechanics = m)
      (.exists_pre fun completion => ?_) fun s hs => ?_
  · refine .of_pre (fun s hs => (hs.2 ▸ hs.1.1.deferred :
      m.deferredCommand = some ⟨slot, sequence, completion, false⟩)) fun hdeferred => ?_
    refine .and_left ?_
    simp only [hdeferred, Bool.false_eq_true, if_false]
    refine .attempt_bind (pumpCommand_running m completion) (fun progress => ?_) fun error => ?_
    · exact .pure fun _ h => h
    · -- the failure stays with the command
      refine .bind (.modify ?_) fun _ => .fail fun _ h => h
      rintro s ⟨hdeferred, hscat⟩
      obtain ⟨command, hcmd⟩ := Option.isSome_iff_exists.mp hdeferred
      refine ⟨⟨{ command with failed := true }, ?_, rfl⟩, hscat⟩
      show s.mechanics.deferredCommand.map _ = _
      rw [hcmd]
      rfl
  · obtain ⟨⟨completion, hongoing⟩, hm⟩ := hs
    exact ⟨completion, hongoing, hm⟩

/-! ## Beginning a command -/

theorem demand_grows {I : SessionLog τ ε → Prop}
    (hI : ∀ s s', I s → s'.mechanics = s.mechanics → s.log <+: s'.log → I s') :
    Leads I (demand T.logged wrap req) I := by
  apply demand_triple
  · exact fun s s' a hs hm hlog => hI s s' hs hm ⟨_, hlog.symm⟩
  · exact fun s s' e hs hm hlog => hI s s' hs hm ⟨_, hlog.symm⟩

/-- The payload that is written for a command. -/
def payloadCall (slot : UInt16) (template : Bytes) (sequence : UInt8) : Call ε :=
  ⟨.writeCommandPayload slot (template.set 39 sequence), .ok ()⟩

def publishCall (slot : UInt16) : Call ε :=
  ⟨.publishCommandProducer (next slot mcuTxRingCount), .ok ()⟩

/-- A command was written and published since a log; its publication was the
last call. -/
def Published (L : List (Call ε)) (template : Bytes) (slot : UInt16) (sequence : UInt8)
    (log : List (Call ε)) : Prop :=
  ∃ calls, log = L ++ calls ++ [publishCall slot] ∧ payloadCall slot template sequence ∈ calls

/-- The engine has the deferred command and the chunk of `m`. -/
def HeldAs (m : LoaderMechanics) (s : SessionLog τ ε) : Prop :=
  s.mechanics.deferredCommand = m.deferredCommand ∧ s.mechanics.pendingScatter = m.pendingScatter

theorem publishReservedTemplate_published (m : LoaderMechanics) (template : Bytes) :
    Triple (fun s => s.mechanics = m ∧ L <+: s.log)
      (publishReservedTemplate T.logged sequence template wants)
      (fun _ s => HeldAs m s ∧ s.mechanics.pendingCommand = some m.commandProducer ∧
        Published L template m.commandProducer sequence s.log) (fun _ => HeldAs m) := by
  have hend : ∀ s : SessionLog τ ε, s.mechanics = m → HeldAs m s := fun s h => h ▸ ⟨rfl, rfl⟩
  let written (s : SessionLog τ ε) : Prop :=
    s.mechanics = m ∧ Logged L (payloadCall m.commandProducer template sequence) s
  have hwr : ∀ {req : Request} {wrap : ε → LoaderMechanicsError ε},
      Triple written (demand T.logged wrap req) (fun _ => written) (fun _ => HeldAs m) :=
    (demand_grows fun s s' hs hm hlog => ⟨hm.trans hs.1, hs.2.grows hlog⟩).weaken_error
      fun _ s hs => hend s hs.1
  refine .look_eq (fun s hs => hs.1) ?_
  split
  · exact .fail fun s hs => hend s hs.1
  refine .guard (fun s hs => hend s hs.1) ?_
  refine .guard (fun s hs => hend s hs.1) ?_
  refine .look_any fun capacity => .guard (fun s hs => hend s hs.1) ?_
  refine .bind ((demand_grows fun s s' hs hm hlog => ⟨hm.trans hs.1, hs.2.trans hlog⟩).weaken_error
    fun _ s hs => hend s hs.1) fun address => ?_
  refine .ofExcept_bind (fun descriptor _ => ?_) fun _ s hs => hend s hs.1
  refine .bind (R := fun _ => written) ?_ fun _ => ?_
  · apply demand_triple
    · exact fun s s' _ hs hm hlog => ⟨hm.trans hs.1, .now hs.2 hlog⟩
    · exact fun s s' e hs hm hlog => hend s' (hm.trans hs.1)
  refine .bind hwr fun _ => ?_
  refine .bind (R := fun _ => written) ?_ fun _ => ?_
  · cases wants with
    | response => exact hwr
    | noResponse => exact .pure fun _ h => h
  let moved : LoaderMechanics := { m with
    commandProducer := next m.commandProducer mcuTxRingCount
    pendingCommand := some m.commandProducer }
  refine .bind (R := fun _ s => s.mechanics = moved ∧
    Logged L (payloadCall m.commandProducer template sequence) s) (.modify ?_) fun _ => ?_
  · rintro s ⟨hm, hlogged⟩
    exact ⟨by rw [hm], hlogged⟩
  · apply demand_triple
    · rintro s s' _ ⟨hm, calls, hcs, hmem⟩ hm' hlog
      rw [HeldAs, hm'.trans hm]
      exact ⟨⟨rfl, rfl⟩, rfl, calls, by rw [hlog, hcs]; rfl, hmem⟩
    · rintro s s' e ⟨hm, -⟩ hm' -
      rw [HeldAs, hm'.trans hm]
      exact ⟨rfl, rfl⟩

/-- What a command is settled with when it begins. -/
def LoaderCommandCompletion.settled : LoaderCommandCompletion → Option LoaderCompletion
  | .response => none
  | .noResponse => some .noResponse

/-- A command is published, refused without a trace, or left with the engine
as failed. -/
theorem beginCommand_idle {s₀ : SessionLog τ ε} (hidle : s₀.mechanics.deferredCommand = none)
    (template : Bytes) :
    Triple (· = s₀) (beginCommand T.logged template wants)
      (fun _ s => ∃ slot sequence, Running s.log wants slot sequence s ∧
        Published s₀.log template slot sequence s.log)
      (fun _ s => s = s₀ ∨ s₀.mechanics.activeCommandSlot = none ∧ Poisoned s) := by
  refine .look_eq (fun s hs => congrArg Session.mechanics hs) ?_
  refine .ite (fun _ => .fail fun s hs => .inl hs) fun hscat => ?_
  cases hact : s₀.mechanics.activeCommandSlot with
  | some => exact .fail fun s hs => .inl hs
  | none =>
    refine .guard (fun s hs => .inl hs) ?_
    refine .look_bind fun capacity => ?_
    refine .guard (fun s hs => .inl hs.1) ?_
    let sequence := s₀.mechanics.sequence % 15 + 1
    let begun : LoaderMechanics := { s₀.mechanics with
      sequence := sequence
      deferredCommand := some ⟨s₀.mechanics.commandProducer, sequence, wants.settled, true⟩ }
    have hscat : s₀.mechanics.pendingScatter = none := by simpa using hscat
    refine .bind (R := fun reserved s => reserved = sequence ∧
      s.mechanics = { s₀.mechanics with sequence := sequence } ∧ s.log = s₀.log) ?_
      fun reserved => .and_pre ?_
    · refine .bind (.modify (Q := fun _ s => s.mechanics =
        { s₀.mechanics with sequence := sequence } ∧ s.log = s₀.log) ?_) fun _ => ?_
      · rintro s ⟨rfl, -⟩
        exact ⟨rfl, rfl⟩
      · exact .look_eq (fun s hs => hs.1) (.pure fun s hs => ⟨rfl, hs⟩)
    rintro rfl
    refine .bind (R := fun _ s => s.mechanics = begun ∧ s₀.log <+: s.log) (.modify ?_) fun _ => ?_
    · rintro s ⟨hm, hlog⟩
      exact ⟨hm ▸ rfl, ⟨[], (append_nil _).trans hlog.symm⟩⟩
    refine .bind ((publishReservedTemplate_published begun template).weaken_error
      fun _ s hs => .inr ⟨rfl, ⟨_, hs.1, rfl⟩, hs.2.trans hscat⟩) fun _ => modify ?_
    rintro s ⟨⟨hdeferred, hsc⟩, hpend, hpub⟩
    refine ⟨s₀.mechanics.commandProducer, sequence, ⟨wants.settled, ⟨?_, hsc.trans hscat,
      prefix_refl _, .inl hpend⟩, ?_⟩, hpub⟩
    · show s.mechanics.deferredCommand.map _ = _
      rw [hdeferred]
      rfl
    · cases wants with
      | response => exact .heard none ⟨none, [], (append_nil _).symm, rfl, rfl⟩
      | noResponse => exact .silent

/-! ## An engine that holds a command -/

theorem activeCommandSlot_of_deferred (h : m.deferredCommand.isSome = true) :
    ∃ slot, m.activeCommandSlot = some slot := by
  obtain ⟨command, hcmd⟩ := Option.isSome_iff_exists.mp h
  cases hpend : m.pendingCommand with
  | none => exact ⟨command.slot, by simp [activeCommandSlot, hpend, hcmd]⟩
  | some slot => exact ⟨slot, by simp [activeCommandSlot, hpend]⟩

theorem exec_begun (h : Begun s) (op : Op) (hop : op ≠ .pollCommand) :
    ∃ e, op.exec T.logged s = ⟨.error e, s, []⟩ := by
  obtain ⟨slot, hslot⟩ := activeCommandSlot_of_deferred h.1
  obtain ⟨command, hcmd⟩ := Option.isSome_iff_exists.mp h.1
  cases op with
  | pollCommand => exact absurd rfl hop
  | completeScatter =>
    refine ⟨.noScatterPending, ?_⟩
    simp only [Op.exec, completeScatter, mechanics, Eff.bind_apply, Eff.look_apply, h.2]
    rfl
  | publishScatter | publishReservedScatter =>
    refine ⟨.commandPending command.slot, ?_⟩
    simp only [Op.exec, publishScatter, publishReservedScatter, mechanics, Eff.bind_apply,
      Eff.look_apply, hcmd]
    rfl
  | _ =>
    refine ⟨.commandPending slot, ?_⟩
    simp only [Op.exec, beginCommand, commitCandidateCommand, reserveSequence, executeDownload,
      executeTemplate, executeReservedTemplate, pollEvents, rebaseAfterWpdmaReset, mechanics,
      Eff.bind_apply, Eff.look_apply, h.2, hslot]
    rfl

/-! ## An engine that holds no command -/

def SameDeferred (s s' : SessionLog τ ε) : Prop :=
  s'.mechanics.deferredCommand = s.mechanics.deferredCommand

instance : IsPreorder (SessionLog τ ε) SameDeferred where
  refl _ := rfl
  trans _ _ _ h h' := h'.trans h

theorem exec_idle (op : Op) (hbegin : ∀ template wants, op ≠ .beginCommand template wants)
    (hp : op ≠ .pollCommand) : Within SameDeferred (op.exec T.logged) := by
  have hsteps : Steps T.logged SameDeferred (fun _ => True)
      fun m m' => m'.deferredCommand = m.deferredCommand :=
    ⟨fun _ _ _ => rfl, fun _ _ hm => hm⟩
  have hscat : ∀ m m' : LoaderMechanics, m'.pendingCommand = m.pendingCommand →
      m'.commandProducer = m.commandProducer → m'.deferredCommand = m.deferredCommand →
      m'.deferredCommand = m.deferredCommand := fun _ _ _ _ hm => hm
  cases op with
  | beginCommand template wants => exact absurd rfl (hbegin template wants)
  | pollCommand => exact absurd rfl hp
  | publishScatter => exact hsteps.publishScatter (fun _ _ => trivial) hscat _ _
  | publishReservedScatter => exact hsteps.publishReservedScatter (fun _ _ => trivial) hscat _ _ _
  | completeScatter => exact hsteps.completeScatter (fun _ _ => trivial) hscat _ _ _ _
  | _ => exact (hsteps.commanding (fun _ _ => trivial) fun _ _ _ hm => hm).exec trivial

theorem pollCommand_idle (h : s.mechanics.deferredCommand = none) :
    pollCommand T.logged s = ⟨.error .noCommandPending, s, []⟩ := by
  simp only [pollCommand, mechanics, Eff.bind_apply, Eff.look_apply, h]
  rfl

end

/-! ## Runs -/

/-- A command was begun. -/
inductive Begins (template : Bytes) (wants : LoaderCommandCompletion) :
    StepLog τ ε → Prop
  | mk (before after) : Begins template wants ⟨before, .beginCommand template wants, .ok (), after⟩

/-- A command was told to be complete. -/
inductive Completes (completion : LoaderCompletion) : StepLog τ ε → Prop
  | mk (before after) : Completes completion
      ⟨before, .pollCommand, .ok (.complete completion), after⟩

/-- A command failed: to begin with it left with the engine, or when it was
polled. -/
inductive Poisons : StepLog τ ε → Prop
  | begun (before after template wants e) (hidle : before.mechanics.activeCommandSlot = none)
      (hleft : after.mechanics.activeCommandSlot ≠ none) :
      Poisons ⟨before, .beginCommand template wants, .error e, after⟩
  | polled (before after e) (hbegun : before.mechanics.deferredCommand ≠ none) :
      Poisons ⟨before, .pollCommand, .error e, after⟩

section
variable (past : List (StepLog τ ε))

/-- The command that is begun: nothing was begun or completed since. -/
structure Current (first : StepLog τ ε)
    (wants : LoaderCommandCompletion) (slot : UInt16) (sequence : UInt8) : Prop where
  split : ∃ earlier later, past = earlier ++ first :: later ∧ ∀ step ∈ later,
    (∀ template wants, ¬ Begins template wants step) ∧ ∀ completion, ¬ Completes completion step
  published : ∃ template, Begins template wants first ∧
    Published first.before.log template slot sequence first.after.log

/-- What may happen after a history. -/
structure Warranted (step : StepLog τ ε) : Prop where
  /-- A completion is that of the command begun last. Its slot was reclaimed
  since; if it wants a response, that is the one answer since. -/
  complete : ∀ completion, Completes completion step → ∃ first wants slot sequence,
    Current past first wants slot sequence ∧ Reclaimed first.after.log slot step.after ∧
      Answered first.after.log sequence step.after.log wants (some completion)
  /-- After a failed command every operation fails, and nothing happens. -/
  poisoned : (∃ failed ∈ past, Poisons failed) →
    (∃ e, step.result = .error e) ∧ step.after = step.before
  /-- Any other failure of these two calls is a refusal. -/
  refused : ((∃ template wants, step.op = .beginCommand template wants) ∨ step.op = .pollCommand) →
    (∃ e, step.result = .error e) → ¬ Poisons step → step.after = step.before

/-- Where a run is after a history. -/
inductive Phase (s : SessionLog τ ε) : Prop
  | idle (hdeferred : s.mechanics.deferredCommand = none) (hsound : ∀ step ∈ past, ¬ Poisons step)
  | running (first wants slot sequence) (hcurrent : Current past first wants slot sequence)
      (hrunning : Running first.after.log wants slot sequence s)
      (hsound : ∀ step ∈ past, ¬ Poisons step)
  | poisoned (hpoisoned : Poisoned s)

end

section
variable {T : LoaderMechanicsTransport τ ε} {past : List (StepLog τ ε)}
  {s : SessionLog τ ε}

theorem Current.push {first step : StepLog τ ε} {slot : UInt16}
    (h : Current past first wants slot sequence)
    (hbegins : ∀ template wants, ¬ Begins template wants step)
    (hcomp : ∀ completion, ¬ Completes completion step) :
    Current (past ++ [step]) first wants slot sequence := by
  obtain ⟨⟨earlier, later, rfl, hlater⟩, hpub⟩ := h
  exact ⟨⟨earlier, later ++ [step], by simp, forall_mem_concat hlater ⟨hbegins, hcomp⟩⟩, hpub⟩

theorem Warranted.of_refused {op : Op} {e : LoaderMechanicsError ε} :
    Warranted past ⟨s, op, .error e, s⟩ where
  complete _ h := nomatch h
  poisoned _ := ⟨⟨e, rfl⟩, rfl⟩
  refused _ _ _ := rfl

theorem Warranted.of_other {op : Op} {result : Except (LoaderMechanicsError ε) op.Ret}
    {after : SessionLog τ ε} (hbegin : ∀ template wants, op ≠ .beginCommand template wants)
    (hp : op ≠ .pollCommand) (h : ∀ step ∈ past, ¬ Poisons step) :
    Warranted past ⟨s, op, result, after⟩ where
  complete _ hstep := by cases hstep; exact absurd rfl hp
  poisoned := fun ⟨step, hmem, hfail⟩ => absurd hfail (h step hmem)
  refused := by
    rintro (⟨template, wants, hop⟩ | hop)
    · exact absurd hop (hbegin template wants)
    · exact absurd hop hp

/-- What one step gives. -/
def Steady (T : LoaderMechanicsTransport τ ε) (past : List (StepLog τ ε))
    (s : SessionLog τ ε) (op : Op) : Prop :=
  Warranted past ⟨s, op, (op.exec T.logged s).result, (op.exec T.logged s).state⟩ ∧
    Phase (past ++ [⟨s, op, (op.exec T.logged s).result, (op.exec T.logged s).state⟩])
      (op.exec T.logged s).state

theorem steady_poisoned (h : Poisoned s) (op : Op) : Steady T past s op := by
  have hrefused : ∃ e, op.exec T.logged s = ⟨.error e, s, []⟩ := by
    obtain ⟨⟨command, hcmd, hfail⟩, hscat⟩ := h
    by_cases hop : op = .pollCommand
    · subst hop
      refine ⟨.commandFailed, ?_⟩
      simp only [Op.exec, pollCommand, mechanics, Eff.bind_apply, Eff.look_apply, hcmd, hfail]
      rfl
    · exact exec_begun ⟨by rw [hcmd]; rfl, hscat⟩ op hop
  obtain ⟨e, hexec⟩ := hrefused
  rw [Steady, hexec]
  exact ⟨.of_refused, .poisoned h⟩

theorem steady_begin (hidle : s.mechanics.deferredCommand = none)
    (hsound : ∀ step ∈ past, ¬ Poisons step) (template : Bytes) (wants : LoaderCommandCompletion) :
    Steady T past s (.beginCommand template wants) := by
  have hbegin : Triple (· = s) (beginCommand T.logged template wants) _ _ :=
    beginCommand_idle hidle template
  obtain ⟨hok, herr⟩ := hbegin s rfl
  rw [Steady, Op.exec]
  have hpast : ¬ ∃ failed ∈ past, Poisons failed := by simpa using hsound
  cases hres : (beginCommand T.logged template wants s).result with
  | ok a =>
    obtain ⟨slot, sequence, hrunning, hpub⟩ := hok a hres
    refine ⟨⟨fun _ h => (by cases h), fun h => absurd h hpast, fun _ h => absurd h (by simp)⟩, ?_⟩
    refine .running _ wants slot sequence ⟨⟨past, [], rfl, by simp⟩, ⟨template, ?_, hpub⟩⟩
      hrunning (forall_mem_concat hsound fun h => by cases h)
    exact .mk _ _
  | error e =>
    rcases herr e hres with hsame | ⟨hact, hpoisoned⟩
    · rw [hsame]
      refine ⟨.of_refused, .idle hidle (forall_mem_concat hsound ?_)⟩
      rintro ⟨⟩
      contradiction
    · obtain ⟨slot, hslot⟩ := activeCommandSlot_of_deferred
        (by obtain ⟨⟨command, hcmd, -⟩, -⟩ := hpoisoned; rw [hcmd]; rfl)
      refine ⟨⟨fun _ h => (by cases h), fun h => absurd h hpast, fun _ _ h => absurd ?_ h⟩,
        .poisoned hpoisoned⟩
      exact .begun _ _ _ _ _ hact (by simp [hslot])

theorem steady_idle (hidle : s.mechanics.deferredCommand = none)
    (hsound : ∀ step ∈ past, ¬ Poisons step) (op : Op) : Steady T past s op := by
  by_cases hp : op = .pollCommand
  · subst hp
    rw [Steady, Op.exec, pollCommand_idle hidle]
    refine ⟨.of_refused, .idle hidle (forall_mem_concat hsound ?_)⟩
    rintro ⟨⟩
    contradiction
  by_cases hbegin : ∀ template wants, op ≠ .beginCommand template wants
  · refine ⟨.of_other hbegin hp hsound, .idle ?_ (forall_mem_concat hsound ?_)⟩
    · exact (exec_idle op hbegin hp s).trans hidle
    · intro h
      generalize (op.exec T.logged s).result = result at h
      cases h with
      | begun => exact absurd rfl (hbegin _ _)
      | polled => exact absurd rfl hp
  · push Not at hbegin
    obtain ⟨template, wants, rfl⟩ := hbegin
    exact steady_begin hidle hsound template wants

theorem steady_running {first : StepLog τ ε} {slot : UInt16}
    (hcurrent : Current past first wants slot sequence)
    (hrunning : Running first.after.log wants slot sequence s)
    (hsound : ∀ step ∈ past, ¬ Poisons step) (op : Op) : Steady T past s op := by
  by_cases hp : op = .pollCommand
  · subst hp
    obtain ⟨hok, herr⟩ := pollCommand_running s hrunning
    rw [Steady, Op.exec]
    have hpast : ¬ ∃ failed ∈ past, Poisons failed := by simpa using hsound
    cases hres : (pollCommand T.logged s).result with
    | error e =>
      refine ⟨⟨fun _ h => (by cases h), fun h => absurd h hpast, fun _ _ h => absurd ?_ h⟩,
        .poisoned (herr e hres)⟩
      refine .polled _ _ _ fun hn => ?_
      have hbegun := hrunning.begun.1
      rw [hn] at hbegun
      cases hbegun
    | ok progress =>
      have hprog := hok progress hres
      cases progress with
      | pending =>
        refine ⟨⟨fun _ h => (by cases h), fun h => absurd h hpast,
          fun _ h => absurd h (by simp)⟩, ?_⟩
        exact .running first wants slot sequence
          (hcurrent.push (fun _ _ h => (by cases h)) fun _ h => by cases h) hprog
          (forall_mem_concat hsound fun h => by cases h)
      | complete =>
        refine ⟨⟨?_, fun h => absurd h hpast, fun _ h => absurd h (by simp)⟩, ?_⟩
        · rintro _ ⟨⟩
          exact ⟨first, wants, slot, sequence, hcurrent, hprog.reclaimed, hprog.answered⟩
        · exact .idle hprog.deferred (forall_mem_concat hsound fun h => by cases h)
  · obtain ⟨e, hexec⟩ := exec_begun hrunning.begun op hp
    rw [Steady, hexec]
    refine ⟨.of_refused, .running first wants slot sequence
      (hcurrent.push (fun _ _ h => (by cases h)) fun _ h => by cases h) hrunning
      (forall_mem_concat hsound ?_)⟩
    rintro ⟨⟩
    · contradiction
    · exact hp rfl

theorem Phase.steady (h : Phase past s) (op : Op) : Steady T past s op := by
  cases h with
  | idle hidle hsound => exact steady_idle hidle hsound op
  | running first wants slot sequence hcurrent hrunning hsound =>
    exact steady_running hcurrent hrunning hsound op
  | poisoned hpoisoned => exact steady_poisoned hpoisoned op

theorem run_warranted (ops : List Op) (h : Phase past s) :
    JustifiedAfter Warranted past (run T.logged s ops).1 := by
  induction ops generalizing past s with
  | nil => exact trivial
  | cons op rest ih =>
    obtain ⟨hstep, hphase⟩ := h.steady op
    exact ⟨hstep, ih hphase⟩

/-- A command is told to be complete at most once, after its slot was
reclaimed and, if it wants a response, after exactly one answer since its
publication; a command that failed stops the engine. -/
theorem command_completes_once (T : LoaderMechanicsTransport τ ε) (sequence : UInt8) (t : τ)
    (ops : List Op) :
    Justified Warranted (run T.logged ⟨new sequence, (t, [])⟩ ops).1 :=
  run_warranted ops (.idle rfl (by simp))

end

/-- A firmware event with the sequence number 1. -/
def eventBytes (option : UInt8) : Bytes :=
  [0, 0, 0, 0x38] ++ replicate 20 0 ++ [12, 0, 0, 0, 1, 1, option, 0] ++ replicate 4 0

/-- A transport that has two such events, the first of them unsolicited. -/
def answering : LoaderMechanicsTransport Unit Unit where
  commandPayloadCapacity _ _ := loaderCommandMaxBytes
  handle
    | .commandDmaIndex, t => (.ok (1 : UInt32), t)
    | .readRxDescriptor ring slot, t =>
      (.ok (if ring = .wm ∧ slot < 2 then ⟨0, 0xc0240000, 0, 0⟩ else ⟨0, 0, 0, 0⟩), t)
    | .readRxBuffer _ slot _, t => (.ok (eventBytes (if slot = 0 then 4 else 0)), t)
    | req, t => (.ok req.blank, t)

/-- A command is begun after another was refused, and is complete after two
events with its sequence number: unsolicited events are not counted. -/
theorem completed_after_refusal : ∃ first second third,
    (run answering.logged ⟨new 0, ((), [])⟩ [.beginCommand [] .response,
      .beginCommand (replicate 48 0) .response, .pollCommand]).1 = [first, second, third] ∧
    (∃ e, first.result = .error e) ∧ Begins (replicate 48 0) .response second ∧
    (∃ completion, Completes completion third) ∧
    ((firmwareEvents none third.after.log).filter (·.response.sequence = 1)).length = 2 := by
  refine ⟨_, _, _, rfl, ⟨_, rfl⟩, .mk _ _, ?_, by decide +kernel⟩
  exact ⟨.response ⟨⟨12, 0, 1, 1, 0, 0⟩, eventBytes 0⟩, .mk _ _⟩

end Drv.Mt7921
