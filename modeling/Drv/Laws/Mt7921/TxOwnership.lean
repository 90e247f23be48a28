import Drv.Laws.Mt7921.Transmit

/-!
# Ownership of the transmit memory

Every operation of a run of `ClientTx` is allowed after those before it
(`Allowed`): the memory shared for transmission is written only while
nothing is published or after the published frame came back, the hardware
is not called after a fatal error, and a frame that is not data is
published only under a grant of its channel.

What one operation does to the frame in flight is `Turned`; the runs
follow from it by induction, with `Owned` as the invariant.

That a published frame comes back, or is sent at all, is up to the
device.
-/

namespace Drv.Mt7921

open Drv.Softmac List TxEvent

/-! ## The property -/

namespace TxStep

/-- The operation wrote the producer index, and this is the frame in flight. -/
def publishes (s : TxStep) (p : PublishedFrame) : Prop :=
  (∃ e ∈ s.events, e.publishes = true) ∧ s.after.pending = some p

/-- The operation is a transmit completion with the token of the frame. -/
def frees (s : TxStep) (p : PublishedFrame) : Prop :=
  ∃ free, s.op = .txFree free ∧ free.token = p.token

/-- The operation is a validated grant for a request, which then lasts until `ends`. -/
def grants (s : TxStep) (token : UInt8) (channel : CandidateChannel) (ends : Nat) : Prop :=
  ∃ grant now, s.op = .rocGrant grant now ∧ s.result = .ok () ∧ grant.token = token ∧
    grant.valid channel = true ∧ ends = grant.lasts now ∧
    ∃ roc, s.before.roc = some roc ∧ roc.token = token ∧ roc.channel = channel

/-- An error of an operation other than `enqueue`. -/
def fatal (s : TxStep) : Prop :=
  (∀ context bytes rate channel, s.op ≠ .enqueue context bytes rate channel) ∧
    ∃ status, s.result = .error status

end TxStep

namespace ClientTx

/-- A published frame came back: it was seen done, and its token freed. -/
def Returned (p : PublishedFrame) (later : List TxStep) (events : List TxEvent) : Prop :=
  ((∃ s ∈ later, Seen p s.events) ∨ Seen p events) ∧ ∃ s ∈ later, s.frees p

/-- A frame is published right after the clock was read before the end of
a validated grant, which the request for its channel holds. -/
def Granted (past : List TxStep) (after : ClientTx) (p : PublishedFrame)
    (events : List TxEvent) : Prop :=
  ∃ roc ends now, after.roc = some roc ∧ roc.phase = .granted ends ∧
    roc.channel = p.frame.channel ∧ events.getLast? = some (.clock now) ∧ now < ends ∧
    ∃ s ∈ past, s.grants roc.token roc.channel ends

/-- What an operation may do after those before it. -/
structure Allowed (past : List TxStep) (s : TxStep) : Prop where
  /-- The memory is written before anything is published by the same
  operation, and once everything published earlier came back. -/
  writes : ∀ events e rest, s.events = events ++ e :: rest → e.writes = true →
    (∀ d ∈ events, d.publishes = false) ∧ ∀ earlier s₀ later p, past = earlier ++ s₀ :: later →
      s₀.publishes p → Returned p later events
  /-- After a fatal error the hardware is not called. -/
  stopped : (∃ s₀ ∈ past, s₀.fatal) → ∀ c, call c ∉ s.events
  /-- What is published is the frame in flight, granted if it is not data. -/
  published : ∀ events e rest, s.events = events ++ e :: rest → e.publishes = true →
    ∃ p answer, s.after.pending = some p ∧
      e = .call ⟨.writeU32 managementTxCidx p.next.toUInt32, answer⟩ ∧
      (p.frame.data = false → Granted past s.after p events)

/-! ## What one operation does -/

/-- The same publication, whatever was learned of it since. -/
def SameFrame (p q : PublishedFrame) : Prop := p.slot = q.slot ∧ p.next = q.next ∧ p.token = q.token

variable {p : PublishedFrame}

theorem Seen.of_same {q : PublishedFrame} (h : SameFrame p q) {events : List TxEvent}
    (hseen : Seen q events) : Seen p events := by
  obtain ⟨bytes, hdone, hsubl⟩ := hseen
  rw [← h.1, ← h.2.1] at hsubl
  exact ⟨bytes, hdone, hsubl⟩

variable {a b : List TxEvent}

theorem Seen.mono (h : Seen p a) (hsub : a.Sublist b) : Seen p b := by
  obtain ⟨bytes, hdone, hsubl⟩ := h
  exact ⟨bytes, hdone, hsubl.trans hsub⟩

/-- The frame in flight, if there is one, was freed and seen done. -/
def Released (tx : ClientTx) (events : List TxEvent) : Prop :=
  ∀ q, tx.pending = some q → q.freed = true ∧ (q.descriptorDone = true ∨ Seen q events)

theorem Released.mono {tx : ClientTx} (h : Released tx a) (hsub : a.Sublist b) : Released tx b := by
  intro q hq
  obtain ⟨hfreed, hdone⟩ := h q hq
  exact ⟨hfreed, hdone.imp_right fun hseen => hseen.mono hsub⟩

namespace Moved

variable {tx tx' : ClientTx} {grantUntil : Option Nat} {events : List TxEvent}
section
variable (h : Moved tx grantUntil events tx')
include h

theorem frame : tx'.roc = tx.roc ∧ tx'.queue ⊆ tx.queue ∧ tx'.failed = tx.failed := by
  have hpop : ∀ {frame : QueuedFrame} {rest : List QueuedFrame}, tx.queue = frame :: rest →
      rest ⊆ tx.queue := fun hqueue => hqueue ▸ subset_cons_self _ _
  cases h with
  | idle | watched | clearing => exact ⟨rfl, Subset.refl _, rfl⟩
  | writing _ hqueue | published _ hqueue => exact ⟨rfl, hpop hqueue, rfl⟩

variable {before after : List TxEvent}

/-- The memory is written before the publication, once the frame in
flight is released. -/
theorem writes {e : TxEvent} (hsplit : events = before ++ e :: after) (he : e.writes = true) :
    (∀ d ∈ before, d.publishes = false) ∧ Released tx before := by
  have hin : e ∈ events := by simp [hsplit]
  have hfree : tx.pending = none → Released tx before := by
    intro hn q hq
    rw [hn] at hq
    cases hq
  have hbefore : ∀ {first more later : List TxEvent}, QuietTx first →
      (∀ d ∈ more ++ later, d.publishes = false) → ∀ d ∈ first ++ more, d.publishes = false :=
    fun hquiet hwr => forall_mem_append.mpr
      ⟨fun _ => hquiet.publishes, (forall_mem_append.mp hwr).1⟩
  cases h with
  | idle hquiet | watched _ hquiet =>
    rw [hquiet.writes hin] at he
    cases he
  | @clearing first writes q _ _ hpend hquiet hwr hfreed hdone =>
    obtain ⟨more, rfl, rfl⟩ := hquiet.split hsplit (loud_of_writes he)
    refine ⟨hbefore hquiet hwr, fun q' hq' => ?_⟩
    · cases hpend.symm.trans hq'
      exact ⟨hfreed, hdone.imp_right fun hseen => hseen.mono (sublist_append_left _ _)⟩
  | writing hpend _ hquiet hwr =>
    obtain ⟨more, rfl, rfl⟩ := hquiet.split hsplit (loud_of_writes he)
    exact ⟨hbefore hquiet hwr, hfree hpend⟩
  | published hpend _ hevs =>
    refine ⟨fun d hd => ?_, hfree hpend⟩
    rcases append_eq_append_iff.mp hsplit with ⟨more, rfl, hrest⟩ | ⟨more, rfl, -⟩
    · cases more with
      | nil =>
        cases hrest
        cases he
      | cons => simp at hrest
    · exact hevs d (mem_append_left _ hd)

theorem kept {q : PublishedFrame} (hq : tx.pending = some q) :
    (q.freed = true ∧ (q.descriptorDone = true ∨ Seen q events)) ∨
      ∃ q', tx'.pending = some q' ∧ SameFrame q q' ∧ q'.freed = q.freed ∧
        (q'.descriptorDone = true → q.descriptorDone = true ∨ Seen q events) := by
  cases h with
  | idle => exact .inr ⟨q, hq, ⟨rfl, rfl, rfl⟩, rfl, .inl⟩
  | watched hpend _ hseen =>
    cases hpend.symm.trans hq
    exact .inr ⟨_, rfl, ⟨rfl, rfl, rfl⟩, rfl, fun _ => .inr hseen⟩
  | clearing hpend _ _ hfreed hdone =>
    cases hpend.symm.trans hq
    exact .inl ⟨hfreed, hdone.imp_right fun hseen => hseen.mono (sublist_append_left _ _)⟩
  | writing hpend | published hpend =>
    rw [hpend] at hq
    cases hq

/-- What is published is a fresh frame from the queue, granted if it is
not data. -/
theorem published_spec {e : TxEvent} (hsplit : events = before ++ e :: after)
    (he : e.publishes = true) :
    ∃ p answer, tx'.pending = some p ∧ p.descriptorDone = false ∧ p.freed = false ∧
      p.frame ∈ tx.queue ∧ e = .call ⟨.writeU32 managementTxCidx p.next.toUInt32, answer⟩ ∧
      (p.frame.data = false → ∃ ends moment, grantUntil = some ends ∧ moment < ends ∧
        before.getLast? = some (.clock moment)) := by
  have hin : e ∈ events := by simp [hsplit]
  have hquietly : ∀ {first writes : List TxEvent}, events = first ++ writes → QuietTx first →
      (∀ d ∈ writes, d.publishes = false) → False := by
    intro first writes hevs hquiet hwr
    rw [hevs] at hin
    rcases mem_append.mp hin with hin | hin
    · rw [hquiet.publishes hin] at he
      cases he
    · rw [hwr e hin] at he
      cases he
  cases h with
  | idle hquiet | watched _ hquiet =>
    rw [hquiet.publishes hin] at he
    cases he
  | clearing _ hquiet hwr | writing _ _ hquiet hwr => exact (hquietly rfl hquiet hwr).elim
  | @published first frame rest pid now answer hpend hqueue hevs hgrant =>
    rcases eq_nil_or_concat' after with rfl | ⟨after, last, rfl⟩
    · obtain ⟨rfl, hl⟩ := append_inj' hsplit rfl
      cases hl
      exact ⟨_, answer, rfl, rfl, rfl, by simp [hqueue], rfl, hgrant⟩
    · rw [← cons_append, ← append_assoc] at hsplit
      obtain ⟨rfl, -⟩ := append_inj' hsplit rfl
      rw [hevs e (by simp)] at he
      cases he

end

end Moved

theorem grantUntil_some {tx : ClientTx} {ends : Nat} (h : tx.grantUntil = some ends) :
    ∃ roc, tx.roc = some roc ∧ roc.phase = .granted ends := by
  unfold grantUntil at h
  split at h
  next roc =>
    cases h
    exact ⟨_, roc, rfl⟩
  next => cases h

/-! ## Turns of `drive` -/

section
variable {η : Type} (H : Host η)

/-- The transmitter gave up. -/
def mark (s : TxState (Traced η)) : TxState (Traced η) :=
  { s with tx := { s.tx with failed := true } }

/-- A silent part, and then a part of `step`. -/
def Acted (s s' : TxState (Traced η)) : Prop :=
  ∃ s₁ events tx', Preparing s s₁ ∧ (host s').2 = (host s₁).2 ++ events ∧
    Moved s₁.tx s₁.tx.grantUntil events tx' ∧ (s'.tx = tx' ∨ s'.tx = { tx' with failed := true })

variable {s : TxState (Traced η)}

theorem Acted.mark {s' : TxState (Traced η)} (h : Acted s s') : Acted s (mark s') := by
  obtain ⟨s₁, events, tx', hprep, hlog, hmoved, htx⟩ := h
  refine ⟨s₁, events, tx', hprep, hlog, hmoved, .inr ?_⟩
  rcases htx with htx | htx <;> simp [ClientTx.mark, htx]

variable {x : Tx (Traced η) Bool}

theorem failing_triple {P Q : TxState (Traced η) → Prop} (hx : Leads P x Q)
    (hP : ∀ s, P s → s.tx.failed = false) :
    Triple P (failing x) (fun _ => Q) (fun _ s => ∃ s', Q s' ∧ s = mark s') := by
  refine .look_pre (p := (·.failed = false)) hP fun tx hfail => ?_
  rw [hfail]
  refine .attempt_bind hx (fun b => .pure fun _ h => h) fun e => ?_
  exact .bind (.modify fun s hs => ⟨s, hs, rfl⟩) fun _ => .fail fun _ h => h

theorem prepare_triple (hx : Within Preparing x) (s : TxState (Traced η)) :
    Triple (Preparing s) x (fun _ => Preparing s) (fun _ => Acted s) :=
  (Triple.of_within hx fun _ _ h hs => Preparing.trans hs h).weaken_error fun _ s' h =>
    ⟨s', [], s'.tx, h, (append_nil _).symm, .idle (by simp [QuietTx]), .inl rfl⟩

theorem drive_acted (now : Nat) (hfail : s.tx.failed = false) :
    Triple (· = s) (drive H.traced now) (fun _ => Acted s)
      (fun _ s' => ∃ s₁, Acted s s₁ ∧ s' = mark s₁) := by
  refine failing_triple ?_ fun s' hs' => hs' ▸ hfail
  refine .weaken_pre (P := Preparing s) ?_ fun s' hs' => hs' ▸ refl_of Preparing s
  refine .bind (prepare_triple (retainLive_preparing H now) s) fun discarded => ?_
  refine .bind (prepare_triple (requestRoc_preparing H now) s) fun requested => ?_
  refine .bind (prepare_triple (driveRoc_preparing H now) s) fun driven => ?_
  refine .of_state fun s₁ hs₁ => .look_eq (fun s' hs' => congrArg TxState.tx hs') ?_
  have hdma : Triple (At (host s₁).2 s₁.tx []) (driveDma H.traced now s₁.tx.grantUntil)
      (fun _ => Ends (host s₁).2 s₁.tx s₁.tx.grantUntil)
      (fun _ s' => ∃ s₂, Ends (host s₁).2 s₁.tx s₁.tx.grantUntil s₂ ∧ s' = mark s₂) :=
    failing_triple (step_ends H now) fun s' hs' => by rw [hs'.1, hs₁.failed, hfail]
  have hends : ∀ s', Ends (host s₁).2 s₁.tx s₁.tx.grantUntil s' → Acted s s' := by
    rintro s' ⟨events, hlog, hmoved⟩
    exact ⟨s₁, events, s'.tx, hs₁, hlog, hmoved, .inl rfl⟩
  refine .bind (hdma.conseq (fun s' hs' => ?_) (fun _ _ h => h) ?_) fun moved =>
    .pure fun s' hs' => hends s' hs'
  · exact ⟨by rw [hs'], by rw [hs', append_nil]⟩
  · rintro _ s' ⟨s₂, hs₂, rfl⟩
    exact (hends s₂ hs₂).mark

theorem drive_failed (now : Nat) (hfail : s.tx.failed = true) :
    drive H.traced now s = ⟨.error .badState, s, []⟩ := by
  show failing _ s = _
  rw [failing, get, Eff.look_bind, hfail]
  rfl

/-! ## Single operations -/

/-- What one operation does to the frame in flight and to the request. -/
structure Turned (s : TxStep) : Prop where
  tuned : ∀ V, Tuned V s.before →
    Tuned (fun token channel ends => V token channel ends ∨ s.grants token channel ends) s.after
  writes : ∀ events e rest, s.events = events ++ e :: rest → e.writes = true →
    (∀ d ∈ events, d.publishes = false) ∧ Released s.before events
  kept : ∀ q, s.before.pending = some q →
    (q.freed = true ∧ (q.descriptorDone = true ∨ Seen q s.events)) ∨
      ∃ q', s.after.pending = some q' ∧ SameFrame q q' ∧
        (q'.freed = true → q.freed = true ∨ s.frees q) ∧
        (q'.descriptorDone = true → q.descriptorDone = true ∨ Seen q s.events)
  published : ∀ V, Tuned V s.before → ∀ events e rest, s.events = events ++ e :: rest →
    e.publishes = true → ∃ p answer, s.after.pending = some p ∧ p.descriptorDone = false ∧
      p.freed = false ∧ e = .call ⟨.writeU32 managementTxCidx p.next.toUInt32, answer⟩ ∧
      (p.frame.data = false → ∃ roc ends now, s.after.roc = some roc ∧
        roc.phase = .granted ends ∧ roc.channel = p.frame.channel ∧
        events.getLast? = some (.clock now) ∧ now < ends ∧ V roc.token roc.channel ends)
  stopped : s.before.failed = true → ∀ c, call c ∉ s.events
  failed : s.before.failed = true ∨ s.fatal → s.after.failed = true

variable {s : TxStep}

/-- The frame in flight stays, but for what the operation tells of it. -/
def Stays (s : TxStep) : Prop :=
  ∀ q, s.before.pending = some q → ∃ q', s.after.pending = some q' ∧ SameFrame q q' ∧
    (q'.freed = true → q.freed = true ∨ s.frees q) ∧
    (q'.descriptorDone = true → q.descriptorDone = true)

theorem Stays.of_pending (h : s.after.pending = s.before.pending) : Stays s :=
  fun q hq => ⟨q, h.trans hq, ⟨rfl, rfl, rfl⟩, .inl, id⟩

/-- An operation without a call that leaves the frame in flight alone,
but for what it is told. -/
theorem Turned.of_uncalled (hcs : ∀ c, call c ∉ s.events)
    (htuned : ∀ V, Tuned V s.before →
      Tuned (fun token channel ends => V token channel ends ∨ s.grants token channel ends) s.after)
    (hk : Stays s)
    (hfail : s.before.failed = true ∨ s.fatal → s.after.failed = true) : Turned s := by
  have hsil : ∀ events e rest, s.events = events ++ e :: rest → e.quiet = true := by
    intro events e rest hsplit
    cases e with
    | call c => exact absurd (by simp [hsplit]) (hcs c)
    | clock => rfl
  refine ⟨htuned, fun events e rest hsplit he => ?_, fun q hq => ?_, fun V _ events e rest hsplit he
    => ?_, fun _ => hcs, hfail⟩
  · have hquiet := hsil events e rest hsplit
    rw [loud_of_writes he] at hquiet
    cases hquiet
  · obtain ⟨q', hq', hsame, hfreed, hdone⟩ := hk q hq
    exact .inr ⟨q', hq', hsame, hfreed, fun h => .inl (hdone h)⟩
  · have hquiet := hsil events e rest hsplit
    rw [loud_of_publishes he] at hquiet
    cases hquiet

variable (session : Session (η × RxRouting)) (tx : ClientTx)

theorem exec_drive (now : Nat) (s : TxState (Traced η)) :
    (exec H.traced (.drive now) s).state = (drive H.traced now s).state ∧
      ∀ e, (exec H.traced (.drive now) s).result = .error e →
        (drive H.traced now s).result = .error e := by
  show ((drive H.traced now >>= fun _ => pure ()) s).state = _ ∧ ∀ e,
    ((drive H.traced now >>= fun _ => pure ()) s).result = _ → _
  rw [Eff.bind_apply]
  cases (drive H.traced now s).result with
  | ok => exact ⟨rfl, fun e he => by cases he⟩
  | error =>
    refine ⟨rfl, fun e' he' => ?_⟩
    cases he'
    rfl

theorem Acted.turned {s₀ s' : TxState (Traced η)} (h : Acted s₀ s')
    (hpre : s₀.tx = s.before) (hstart : (host s₀).2 = []) (hpost : s'.tx = s.after)
    (hevs : (host s').2 = s.events) (hlive : s.before.failed = false)
    (hfatal : s.fatal → s.after.failed = true) : Turned s := by
  obtain ⟨s₁, events, tx', hprep, hlog, hmoved, htx⟩ := h
  obtain ⟨quiet, hquiet, hlog₁⟩ := hprep.silent
  rw [hstart, nil_append] at hlog₁
  rw [hlog₁, hevs] at hlog
  have hpend₁ : s₁.tx.pending = s.before.pending := hpre ▸ hprep.pending
  obtain ⟨hroc, hqueue, -⟩ := hmoved.frame
  obtain ⟨hpend, hroc', hqueue'⟩ : s.after.pending = tx'.pending ∧ s.after.roc = s₁.tx.roc ∧
      s.after.queue ⊆ s₁.tx.queue := by
    rw [← hpost]
    rcases htx with htx | htx <;> rw [htx] <;> exact ⟨rfl, hroc, hqueue⟩
  have htuned : ∀ V, Tuned V s.before → Tuned V s₁.tx := fun V hV => hprep.tuned V (hpre ▸ hV)
  refine ⟨fun V hV => ?_, fun before e after hsplit he => ?_, fun q hq => ?_,
    fun V hV before e after hsplit he => ?_, fun hfail => ?_, fun hfail => ?_⟩
  · exact (htuned V hV).kept hqueue' hroc'
  · rw [hlog] at hsplit
    obtain ⟨more, rfl, hm⟩ := hquiet.split hsplit (loud_of_writes he)
    obtain ⟨hfst, hrel⟩ := hmoved.writes hm he
    refine ⟨forall_mem_append.mpr ⟨fun _ => hquiet.publishes, hfst⟩, fun q hq => ?_⟩
    · exact (hrel.mono (sublist_append_right _ _)) q (hpend₁.trans hq)
  · have hsub : events.Sublist s.events := hlog ▸ sublist_append_right _ _
    rcases hmoved.kept (hpend₁.trans hq) with ⟨hfreed, hdone⟩ | ⟨q', hq', hsame, hfreed, hdone⟩
    · exact .inl ⟨hfreed, hdone.imp_right fun hseen => hseen.mono hsub⟩
    · exact .inr ⟨q', hpend.trans hq', hsame, fun h => .inl (hfreed ▸ h),
        fun h => (hdone h).imp_right fun hseen => hseen.mono hsub⟩
  · rw [hlog] at hsplit
    obtain ⟨more, rfl, hm⟩ := hquiet.split hsplit (loud_of_publishes he)
    obtain ⟨p, answer, hp, hdone, hfreed, hframe, rfl, hgrant⟩ := hmoved.published_spec hm he
    refine ⟨p, answer, hpend.trans hp, hdone, hfreed, rfl, fun hdata => ?_⟩
    obtain ⟨ends, moment, hends, hmoment, hl⟩ := hgrant hdata
    obtain ⟨roc, hr, hphase⟩ := grantUntil_some hends
    refine ⟨roc, ends, moment, hroc'.trans hr, hphase, ?_, ?_, hmoment, ?_⟩
    · exact ((htuned V hV).channel roc hr p.frame hframe).symm
    · rw [getLast?_append, hl, Option.some_or]
    · exact (htuned V hV).granted roc hr ends (.inl hphase)
  · rw [hlive] at hfail
    cases hfail
  · rcases hfail with hfail | hfail
    · rw [hlive] at hfail
      cases hfail
    · exact hfatal hfail

theorem drive_turned (now : Nat) : Turned (turn H tx ⟨.drive now, session⟩) := by
  obtain ⟨hst, herror⟩ := exec_drive H now (start tx session)
  cases hfail : tx.failed with
  | true =>
    have hdrive := drive_failed H now (s := start tx session) hfail
    rw [hdrive] at hst
    have hpost : (turn H tx ⟨.drive now, session⟩).after = tx := congrArg TxState.tx hst
    have hevs : (turn H tx ⟨.drive now, session⟩).events = [] := congrArg (fun s => (host s).2) hst
    refine .of_uncalled (by simp [hevs]) (fun V hV => ?_) (.of_pending (by rw [hpost]; rfl))
      fun _ => by rw [hpost]; exact hfail
    rw [hpost]
    exact hV.mono fun _ _ _ => .inl
  | false =>
    obtain ⟨hok, herr⟩ := drive_acted H now (s := start tx session) hfail _ rfl
    have hacted : Acted (start tx session) (drive H.traced now (start tx session)).state := by
      cases hr : (drive H.traced now (start tx session)).result with
      | ok b => exact hok b hr
      | error e =>
        obtain ⟨s₁, hs₁, heq⟩ := herr e hr
        exact heq ▸ hs₁.mark
    refine hacted.turned rfl rfl (congrArg TxState.tx hst).symm
      (congrArg (fun s => (host s).2) hst).symm hfail fun hfatal => ?_
    obtain ⟨-, e, he⟩ := hfatal
    obtain ⟨s₁, -, heq⟩ := herr e (herror e he)
    rw [show (turn H tx ⟨.drive now, session⟩).after = (mark s₁).tx from
      congrArg TxState.tx (hst.trans heq)]
    rfl

/-! ### Events from the firmware -/

theorem rocGrant_cases (grant : ClientJoinRocGrant) (now : Nat) :
    tx.rocGrant grant now = (.ok (), tx) ∨
    tx.rocGrant grant now = (.error .ioDataIntegrity, { tx with failed := true }) ∨
    ∃ roc commands deadline, tx.roc = some roc ∧ grant.token = roc.token ∧
      grant.valid roc.channel = true ∧ tx.rocGrant grant now =
        (.ok (), tx.setPhase (.acquiring commands deadline (some (grant.lasts now)))) := by
  unfold rocGrant
  cases hroc : tx.roc with
  | none => exact .inl rfl
  | some roc =>
    by_cases htoken : grant.token = roc.token
    · simp only [htoken, ne_eq, not_true_eq_false, if_false]
      cases roc.phase with
      | acquiring commands deadline =>
        dsimp only
        split
        · exact .inr (.inl (by rw [← hroc]))
        next hval =>
          refine .inr (.inr ⟨roc, commands, deadline, rfl, rfl, ?_, by simp [setPhase, hroc]⟩)
          rw [not_or] at hval
          simpa using hval.1
      | granted => exact .inl rfl
      | releasing => exact .inl rfl
    · simp [htoken]

/-- An event is passed over, refused for good, or taken in. -/
theorem event_turned {op : TxOp} {f : ClientTx → Except Status Unit × ClientTx}
    (hexec : exec H.traced op = event f)
    (hcases : f tx = (.ok (), tx) ∨ f tx = (.error .ioDataIntegrity, { tx with failed := true }) ∨
      ∃ tx', f tx = (.ok (), tx') ∧ tx'.failed = tx.failed ∧ Stays ⟨op, tx, [], .ok (), tx'⟩ ∧
        ∀ V, Tuned V tx → Tuned (fun token channel ends => V token channel ends ∨
          TxStep.grants ⟨op, tx, [], .ok (), tx'⟩ token channel ends) tx') :
    Turned (turn H tx ⟨op, session⟩) := by
  have hturn : turn H tx ⟨op, session⟩ = ⟨op, tx, [], (f tx).1, (f tx).2⟩ := by
    simp only [turn, hexec, event, start]
  rcases hcases with heq | heq | ⟨tx', heq, hfail', hk, htuned⟩
  all_goals rw [hturn, heq]
  · exact .of_uncalled (by simp) (fun V hV => hV.mono fun _ _ _ => .inl) (.of_pending rfl)
      fun hfail => hfail.resolve_right fun ⟨_, _, h⟩ => nomatch h
  · exact .of_uncalled (by simp) (fun V hV => hV.kept (Subset.refl _) rfl) (.of_pending rfl)
      fun _ => rfl
  · exact .of_uncalled (by simp) htuned hk
      fun hfail => hfail'.trans (hfail.resolve_right fun ⟨_, _, h⟩ => nomatch h)

theorem txFree_turned (free : Mt7921TxFree) : Turned (turn H tx ⟨.txFree free, session⟩) := by
  apply event_turned H session tx (f := (·.txFree free)) rfl
  dsimp only [ClientTx.txFree]
  cases hq : tx.pending with
  | none => exact .inl rfl
  | some q =>
    by_cases htoken : free.token = q.token
    · simp only [htoken, ne_eq, not_true_eq_false, if_false]
      split
      · exact .inr (.inl (by rw [← hq]))
      · refine .inr (.inr ⟨_, rfl, rfl, fun q' hq' => ?_, fun V hV => ?_⟩)
        · cases hq.symm.trans hq'
          exact ⟨_, rfl, ⟨rfl, rfl, rfl⟩, fun _ => .inr ⟨free, rfl, htoken⟩, id⟩
        · exact hV.kept (List.Subset.refl _) rfl
    · simp [htoken]

theorem txStatus_turned (status : Mt7921TxStatus) :
    Turned (turn H tx ⟨.txStatus status, session⟩) := by
  apply event_turned H session tx (f := (·.txStatus status)) rfl
  dsimp only [ClientTx.txStatus]
  cases hq : tx.pending with
  | none => exact .inl rfl
  | some q =>
    dsimp only
    split
    · exact .inl rfl
    · split
      · exact .inr (.inl (by rw [← hq]))
      · refine .inr (.inr ⟨_, rfl, rfl, fun q' hq' => ?_, fun V hV => ?_⟩)
        · cases hq.symm.trans hq'
          exact ⟨_, rfl, ⟨rfl, rfl, rfl⟩, .inl, id⟩
        · exact hV.kept (List.Subset.refl _) rfl

theorem rocGrant_turned (grant : ClientJoinRocGrant) (now : Nat) :
    Turned (turn H tx ⟨.rocGrant grant now, session⟩) := by
  apply event_turned H session tx (f := (·.rocGrant grant now)) rfl
  refine (rocGrant_cases tx grant now).imp_right fun h => h.imp_right ?_
  rintro ⟨roc, commands, deadline, hroc, htoken, hval, heq⟩
  refine ⟨_, heq, rfl, .of_pending rfl, fun V hV => ?_⟩
  refine (hV.mono fun _ _ _ => .inl).setPhase hroc ?_
  rintro ends (hends | ⟨_, _, hends⟩)
  · cases hends
  · cases hends
    exact .inr ⟨grant, now, rfl, rfl, htoken, hval, rfl, roc, hroc, rfl, rfl⟩

/-! ### Admission -/

theorem Tuned.push {V : UInt8 → CandidateChannel → Nat → Prop} {tx : ClientTx}
    {context : OperationContext} {bytes : Bytes} {rate : UInt8} {channel : CandidateChannel}
    {frame : QueuedFrame} (h : Tuned V tx)
    (hacc : tx.accept context bytes rate channel = .ok frame) :
    Tuned V { tx with queue := tx.queue ++ [frame] } := by
  obtain ⟨-, hacc⟩ := guard_eq_ok.mp hacc
  obtain ⟨hchan, hacc⟩ := guard_eq_ok.mp hacc
  obtain ⟨-, hacc⟩ := guard_eq_ok.mp hacc
  obtain ⟨-, hacc⟩ := guard_eq_ok.mp hacc
  dsimp only at hacc
  obtain ⟨-, hacc⟩ := guard_eq_ok.mp hacc
  obtain ⟨-, hacc⟩ := guard_eq_ok.mp hacc
  rw [not_or] at hchan
  have hframe : frame.channel = channel := by
    split at hacc
    next => cases hacc
    next sent _ =>
      cases hacc
      rfl
  have hqueue : ∀ f ∈ tx.queue ++ [frame], f.channel = channel := by
    refine forall_mem_concat (fun f hf => ?_) hframe
    cases hq : tx.queue with
    | nil => simp [hq] at hf
    | cons first =>
      rw [h.together f hf first (by simp [hq])]
      simpa [hq] using hchan.2
  refine ⟨fun f hf g hg => (hqueue f hf).trans (hqueue g hg).symm, ?_, h.granted⟩
  intro roc (hr : tx.roc = some roc) f hf
  have hroc : roc.channel = channel := by simpa [hr] using hchan.1
  rw [hqueue f hf, hroc]

/-- Admission reads the clock, and queues a frame or refuses it. -/
theorem enqueue_turned (context : OperationContext) (bytes : Bytes) (rate : UInt8)
    (channel : CandidateChannel) :
    Turned (turn H tx ⟨.enqueue context bytes rate channel, session⟩) := by
  have henqueue : Leads (At [] tx []) (enqueue H.traced context bytes rate channel) fun s =>
      ∃ now after, At [] after [.clock now] s ∧ (after = tx ∨ ∃ frame,
        tx.accept context bytes rate channel = .ok frame ∧
        after = { tx with queue := tx.queue ++ [frame] }) := by
    refine .bind (now_at H) fun now => ?_
    refine .bind (R := fun _ => At [] tx [.clock now])
      (fun _ hs => ⟨fun _ _ => hs, fun _ _ => ⟨now, tx, hs, .inl rfl⟩⟩) fun _ => ?_
    refine .look_eq (fun s hs => hs.1) ?_
    cases hacc : tx.accept context bytes rate channel with
    | error => exact .fail fun s hs => ⟨now, tx, hs, .inl rfl⟩
    | ok frame =>
      exact (update_at (fun tx => { tx with queue := tx.queue ++ [frame] })).weaken_post
        fun _ s hs => ⟨now, _, hs, .inr ⟨frame, rfl, rfl⟩⟩
  obtain ⟨now, after, ⟨hafter, hevs⟩, hpost⟩ := henqueue.state (s := start tx session) ⟨rfl, rfl⟩
  change (turn H tx ⟨.enqueue context bytes rate channel, session⟩).after = after at hafter
  change (turn H tx ⟨.enqueue context bytes rate channel, session⟩).events = _ at hevs
  have hfatal : ¬ (turn H tx ⟨.enqueue context bytes rate channel, session⟩).fatal :=
    fun h => h.1 context bytes rate channel rfl
  refine .of_uncalled (by simp [hevs]) (fun V hV => ?_) (.of_pending ?_) fun hfail => ?_
  · refine .mono ?_ fun _ _ _ => Or.inl
    rw [hafter]
    rcases hpost with rfl | ⟨frame, hacc, rfl⟩
    · exact hV
    · exact .push hV hacc
  · rw [hafter]
    rcases hpost with rfl | ⟨frame, -, rfl⟩ <;> rfl
  · have hpre : tx.failed = true := hfail.resolve_right hfatal
    rw [hafter]
    rcases hpost with rfl | ⟨frame, -, rfl⟩ <;> exact hpre

theorem turn_turned (t : TxTurn η) : Turned (turn H tx t) := by
  obtain ⟨op, session⟩ := t
  cases op with
  | enqueue context bytes rate channel =>
    exact enqueue_turned H session tx context bytes rate channel
  | txFree free => exact txFree_turned H session tx free
  | txStatus status => exact txStatus_turned H session tx status
  | rocGrant grant now => exact rocGrant_turned H session tx grant now
  | drive now => exact drive_turned H session tx now

/-! ## Runs -/

/-- What the operations so far have to do with the transmitter they left. -/
structure Owned (past : List TxStep) (tx : ClientTx) : Prop where
  returned : ∀ earlier s₀ later p, past = earlier ++ s₀ :: later → s₀.publishes p →
    Returned p later [] ∨ ∃ q, tx.pending = some q ∧ SameFrame p q ∧
      (q.freed = true → ∃ s ∈ later, s.frees p) ∧
      (q.descriptorDone = true → ∃ s ∈ later, Seen p s.events)
  failed : (∃ s₀ ∈ past, s₀.fatal) → tx.failed = true
  tuned : Tuned (fun token channel ends => ∃ s ∈ past, s.grants token channel ends) tx

theorem Returned.mono {later more : List TxStep} (h : Returned p later a) (hlater : later ⊆ more)
    (hsub : a.Sublist b) : Returned p more b := by
  obtain ⟨hseen, s, hs, hfrees⟩ := h
  refine ⟨?_, s, hlater hs, hfrees⟩
  rcases hseen with ⟨s', hs', hseen⟩ | hseen
  · exact .inl ⟨s', hlater hs', hseen⟩
  · exact .inr (hseen.mono hsub)

variable {past : List TxStep}

theorem Owned.allowed (h : Owned past s.before) (hturned : Turned s) : Allowed past s where
  writes events e rest hsplit he := by
    obtain ⟨hfst, hrel⟩ := hturned.writes events e rest hsplit he
    refine ⟨hfst, fun earlier s₀ later p hpast hp => ?_⟩
    -- what is released now has returned
    rcases h.returned earlier s₀ later p hpast hp with hret | ⟨q, hq, hsame, hfrees, hseen⟩
    · exact hret.mono (Subset.refl _) (nil_sublist _)
    · obtain ⟨hfreed, hdone⟩ := hrel q hq
      exact ⟨hdone.imp hseen fun hnow => hnow.of_same hsame, hfrees hfreed⟩
  stopped hfatal := hturned.stopped (h.failed hfatal)
  published events e rest hsplit he := by
    obtain ⟨p, answer, hp, -, -, hev, hgrant⟩ := hturned.published _ h.tuned events e rest hsplit he
    exact ⟨p, answer, hp, hev, hgrant⟩

theorem Owned.step (h : Owned past s.before)
    (hturned : Turned s) : Owned (past ++ [s]) s.after where
  returned earlier s₀ later p hpast hp := by
    rcases eq_nil_or_concat' later with rfl | ⟨later, last, rfl⟩
    · -- the frame was published just now
      obtain ⟨-, hl⟩ := append_inj' hpast rfl
      cases hl
      obtain ⟨⟨e, he, hpub⟩, hpost⟩ := hp
      obtain ⟨events, rest, hsplit⟩ := append_of_mem he
      obtain ⟨p', _, hp', hdone, hfreed, -⟩ := hturned.published _ h.tuned events e rest hsplit hpub
      cases hpost.symm.trans hp'
      refine .inr ⟨p, hpost, ⟨rfl, rfl, rfl⟩, fun h => ?_, fun h => ?_⟩
      · rw [hfreed] at h
        cases h
      · rw [hdone] at h
        cases h
    · have hsplit : past ++ [s] = (earlier ++ s₀ :: later) ++ [last] := by simp [hpast]
      obtain ⟨hpre, hl⟩ := append_inj' hsplit rfl
      cases hl
      have hm : later ⊆ later ++ [s] := subset_append_left _ _
      rcases h.returned earlier s₀ later p hpre hp with hret | ⟨q, hq, hsame, hfrees, hseen⟩
      · exact .inl (hret.mono hm (Sublist.refl _))
      have hlater : ∀ {Q : TxStep → Prop}, (∃ s' ∈ later, Q s') → ∃ s' ∈ later ++ [s], Q s' :=
        fun ⟨s', hs', hQ⟩ => ⟨s', hm hs', hQ⟩
      have hseenNow : q.descriptorDone = true ∨ Seen q s.events →
          ∃ s' ∈ later ++ [s], Seen p s'.events := by
        rintro (hdone | hnow)
        · exact hlater (hseen hdone)
        · exact ⟨s, by simp, hnow.of_same hsame⟩
      rcases hturned.kept q hq with ⟨hfreed, hdone⟩ | ⟨q', hq', hsame', hfree', hd'⟩
      · exact .inl ⟨.inl (hseenNow hdone), hlater (hfrees hfreed)⟩
      · refine .inr ⟨q', hq', ?_, fun h => ?_, fun h => hseenNow (hd' h)⟩
        · exact ⟨hsame.1.trans hsame'.1, hsame.2.1.trans hsame'.2.1, hsame.2.2.trans hsame'.2.2⟩
        · rcases hfree' h with hfreed | hnow
          · exact hlater (hfrees hfreed)
          · obtain ⟨free, hop, htoken⟩ := hnow
            exact ⟨s, by simp, free, hop, htoken.trans hsame.2.2.symm⟩
  failed := by
    rintro ⟨s₀, hs₀, hfatal⟩
    rcases mem_append.mp hs₀ with hs₀ | hs₀
    · exact hturned.failed (.inl (h.failed ⟨s₀, hs₀, hfatal⟩))
    · rw [mem_singleton.mp hs₀] at hfatal
      exact hturned.failed (.inr hfatal)
  tuned := by
    refine (hturned.tuned _ h.tuned).mono ?_
    rintro token channel ends (⟨s', hs', hgr⟩ | hgr)
    · exact ⟨s', mem_append_left _ hs', hgr⟩
    · exact ⟨s, by simp, hgr⟩

theorem owned_default : Owned [] ClientTx.default where
  returned _ _ _ _ hpast := by simp at hpast
  failed := by simp
  tuned := ⟨by simp [ClientTx.default], by simp [ClientTx.default], by simp [ClientTx.default]⟩

theorem history_allowed (turns : List (TxTurn η)) (h : Owned past tx) :
    JustifiedAfter Allowed past (history H tx turns) := by
  induction turns generalizing past tx with
  | nil => trivial
  | cons t rest ih =>
    have hturned := turn_turned H tx t
    have hpre : Owned past (turn H tx t).before := h
    exact ⟨hpre.allowed hturned, ih _ (hpre.step hturned)⟩

/-- Every operation of every run is allowed after those before it. -/
theorem transmit_memory_owned (H : Host η) (turns : List (TxTurn η)) :
    Justified Allowed (history H ClientTx.default turns) :=
  history_allowed H _ turns owned_default

end

/-! ### A refused frame does not stop the transmitter -/

/-- A host on which everything succeeds at once. -/
def idleHost : Host Unit where
  payloadsLen _ := 0
  handle p _ :=
    (match p with
      | .readU32 _ => .ok 0
      | .writeU32 .. => .ok ()
      | .deviceAddress .. => .ok 0x1000
      | .read .. => .ok []
      | .write .. => .ok ()
      | .waitUntil _ => .ok true
      | .sleepBefore _ => .ok true, ())
  instantNow _ := (0, ())
  isLive _ _ := (true, ())
  activeMcuViews _ := (.ok (), ())

/-- A key handshake frame to an access point. -/
def eapolFrame : Bytes := [0x08, 1] ++ replicate 22 0 ++ [0xaa, 0xaa, 3, 0, 0, 0, 0x88, 0x8e]

def idleTurn (op : TxOp) : TxTurn Unit := ⟨op, .new 0, ((), .default 0)⟩

/-- A frame, a frame that is refused, and a turn. -/
def refusedBetween : List TxStep :=
  history idleHost ClientTx.default
    [idleTurn (.enqueue ⟨0, none, 1⟩ eapolFrame 12 ⟨.ghz5, 36, 5180⟩),
      idleTurn (.enqueue ⟨0, none, 1⟩ [] 12 ⟨.ghz5, 36, 5180⟩), idleTurn (.drive 0)]

/-- The frame is written and published after the error of the other. -/
theorem published_after_refusal :
    refusedBetween.map (fun s => s.result) = [.ok (), .error .notSupported, .ok ()] ∧
      refusedBetween.map (fun s => (s.events.any TxEvent.writes, s.events.any TxEvent.publishes)) =
        [(false, false), (false, false), (true, true)] := by
  decide +kernel

end ClientTx

end Drv.Mt7921
