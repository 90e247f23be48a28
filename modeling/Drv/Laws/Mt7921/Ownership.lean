import Drv.Base.Hoare
import Drv.Laws.Mt7921.Engine

/-!
# Published memory is left alone

Commands and chunks of firmware are published alike: the payload and the
descriptor are written, then the producer index. From then on the device
owns both until the consumer index was read at the producer and the
descriptor was read as done. `payload_retained` says that in between
nothing of the kind is written.

For commands this holds in every run, since the slot is kept before the
index is written. A chunk of firmware is kept only when the transport
answers that its index was written, so there it takes that no further
chunk is published once such a write was refused
(`refused_chunk_overwritten`).

That the device stays within what was published is not shown.
-/

namespace Drv.Mt7921

open LoaderMechanics List Triple

variable {τ ε : Type}

/-! ## The calls of a run -/

/-- A request and its answer. -/
abbrev Call (ε : Type) := (r : Request) × Except ε r.Answer

abbrev SessionLog (τ ε : Type) := Session (τ × List (Call ε))

abbrev McuLog (τ ε : Type) := Mcu (τ × List (Call ε)) ε

abbrev StepLog (τ ε : Type) := Step (τ × List (Call ε)) ε

/-- The same transport, with a log of its calls. -/
def LoaderMechanicsTransport.logged (T : LoaderMechanicsTransport τ ε) :
    LoaderMechanicsTransport (τ × List (Call ε)) ε where
  commandPayloadCapacity slot t := T.commandPayloadCapacity slot t.1
  handle r t := ((T.handle r t.1).1, (T.handle r t.1).2, t.2 ++ [⟨r, (T.handle r t.1).1⟩])

def Session.log (s : SessionLog τ ε) : List (Call ε) := s.transport.2

/-- The two rings that the host writes payloads for. -/
inductive Lane where
  | command | scatter

namespace Lane

/-- The requests that write the payload or a descriptor. Reclaiming wipes
both. -/
def Writes : Lane → Request → Prop
  | command, .writeCommandPayload .. | command, .writeCommandDescriptor ..
  | command, .reclaimCommand _ => True
  | scatter, .writeScatterPayload _ | scatter, .writeScatterDescriptor ..
  | scatter, .reclaimScatter _ => True
  | _, _ => False

/-- The index that a request publishes. -/
def published : Lane → Request → Option UInt16
  | command, .publishCommandProducer producer => some producer
  | scatter, .publishScatterProducer producer => some producer
  | _, _ => none

def count : Lane → UInt16
  | command => mcuTxRingCount
  | scatter => fwdlRingCount

/-- The consumer index was read at a producer. -/
inductive Consumed : Lane → UInt16 → Call ε → Prop
  | command (producer : UInt16) : Consumed command producer
      ⟨.commandDmaIndex, .ok producer.toUInt32⟩
  | scatter (producer : UInt16) : Consumed scatter producer
      ⟨.scatterDmaIndex, .ok producer.toUInt32⟩

/-- The descriptor before a producer was read as done. -/
inductive Done : Lane → UInt16 → Call ε → Prop
  | command {slot : UInt16} {descriptor : DmaDescriptor} : descriptor.isDmaDone →
    Done command (next slot command.count) ⟨.readCommandDescriptor slot, .ok descriptor⟩
  | scatter {slot : UInt16} {descriptor : DmaDescriptor} : descriptor.isDmaDone →
    Done scatter (next slot scatter.count) ⟨.readScatterDescriptor slot, .ok descriptor⟩

/-- The slot that the engine keeps for the device, with its producer. -/
def held : Lane → LoaderMechanics → Option (UInt16 × UInt16)
  | command, m => m.pendingCommand.map fun slot => (slot, m.commandProducer)
  | scatter, m => m.pendingScatter.map fun pending => (pending.slot, pending.producer)

end Lane

open Lane

variable {lane : Lane} {log more : List (Call ε)} {c d : Call ε} {producer : UInt16} {i j : Nat}

/-- Between two places of a log, the consumer reached the producer and the
descriptor was then done. -/
def Released (lane : Lane) (log : List (Call ε)) (producer : UInt16) (i j : Nat) : Prop :=
  ∃ k l, i < k ∧ k < l ∧ l < j ∧ (∃ c, log[k]? = some c ∧ lane.Consumed producer c) ∧
    ∃ d, log[l]? = some d ∧ lane.Done producer d

/-- No write comes after a publication before it was released. -/
def Guarded (lane : Lane) (log : List (Call ε)) : Prop :=
  ∀ i j c d producer, i < j → log[i]? = some c → log[j]? = some d →
    lane.published c.1 = some producer → lane.Writes d.1 → Released lane log producer i j

/-- Every publication so far was released, except those in `p`. -/
def Owed (lane : Lane) (p : UInt16 → Prop) (log : List (Call ε)) : Prop :=
  ∀ i c producer, log[i]? = some c → lane.published c.1 = some producer →
    Released lane log producer i log.length ∨ p producer

/-- Every publication so far was released. -/
def Free (lane : Lane) (log : List (Call ε)) : Prop := Owed lane (fun _ => False) log

theorem Released.append (h : Released lane log producer i j) (hj : j ≤ log.length) :
    Released lane (log ++ more) producer i j := by
  obtain ⟨k, l, hik, hkl, hlj, ⟨c, hc, hcons⟩, d, hd, hdone⟩ := h
  refine ⟨k, l, hik, hkl, hlj, ⟨c, ?_, hcons⟩, d, ?_, hdone⟩
  · rw [getElem?_append_left (by omega)]
    exact hc
  · rw [getElem?_append_left (by omega)]
    exact hd

theorem Released.le {j' : Nat} (h : Released lane log producer i j) (hj : j ≤ j') :
    Released lane log producer i j' := by
  obtain ⟨k, l, hik, hkl, hlj, hc, hd⟩ := h
  exact ⟨k, l, hik, hkl, Nat.lt_of_lt_of_le hlj hj, hc, hd⟩

variable {α : Type}

theorem getElem?_push {l : List α} {a b : α} {i : Nat} (h : (l ++ [a])[i]? = some b) :
    l[i]? = some b ∨ i = l.length ∧ b = a := by
  rcases Nat.lt_or_ge i l.length with hlt | hge
  · rw [getElem?_append_left hlt] at h
    exact .inl h
  · rw [getElem?_append_right hge] at h
    cases hi : i - l.length with
    | zero =>
      rw [hi] at h
      cases h
      exact .inr ⟨by omega, rfl⟩
    | succ =>
      rw [hi] at h
      cases h

theorem Owed.push {p p' : UInt16 → Prop} (h : Owed lane p log) (hp : ∀ q, p q → p' q)
    (hc : ∀ q, lane.published c.1 = some q → p' q) : Owed lane p' (log ++ [c]) := by
  intro i d producer hd hprod
  rcases getElem?_push hd with hd | ⟨-, rfl⟩
  · rcases h i d producer hd hprod with hrel | hq
    · exact .inl ((hrel.append (Nat.le_refl _)).le (by simp))
    · exact .inr (hp _ hq)
  · exact .inr (hc producer hprod)

theorem Guarded.push (h : Guarded lane log) (hc : lane.Writes c.1 → Free lane log) :
    Guarded lane (log ++ [c]) := by
  intro i j b d producer hij hb hd hprod hwr
  rcases getElem?_push hd with hd | ⟨hj, rfl⟩
  · have hb : log[i]? = some b := by
      rw [getElem?_append_left (Nat.lt_trans hij (lt_of_getElem? hd))] at hb
      exact hb
    exact (h i j b d producer hij hb hd hprod hwr).append (Nat.le_of_lt (lt_of_getElem? hd))
  · have hb : log[i]? = some b := by
      rw [getElem?_append_left (by omega)] at hb
      exact hb
    subst hj
    exact ((hc hwr i b producer hb hprod).resolve_right id).append (Nat.le_refl _)

theorem Owed.released (h : Owed lane (· = producer) log) (hc : lane.Consumed producer c)
    (hd : lane.Done producer d) : Free lane (log ++ [c] ++ [d]) := by
  intro i b q hb hq
  have hn : ∀ {e : Call ε}, lane.published e.1 = none → b ≠ e := by
    rintro e he rfl
    rw [he] at hq
    cases hq
  rcases getElem?_push hb with hb | ⟨-, heq⟩
  · rcases getElem?_push hb with hb | ⟨-, heq⟩
    · left
      rcases h i b q hb hq with hrel | rfl
      · rw [append_assoc]
        exact (hrel.append (Nat.le_refl _)).le (by simp)
      · refine ⟨log.length, log.length + 1, lt_of_getElem? hb, by omega, by simp,
          ⟨c, ?_, hc⟩, d, ?_,
          hd⟩
        · simp
        · simp
    · exact absurd heq (hn (by cases hc <;> rfl))
  · exact absurd heq (hn (by cases hd <;> rfl))

/-! ## The invariant of a lane -/

variable {s s' : SessionLog τ ε}

/-- Only the publication of the slot that the engine keeps may be open. -/
structure Kept (lane : Lane) (s : SessionLog τ ε) : Prop where
  guarded : Guarded lane s.log
  owed : Owed lane (fun p => ∃ slot, lane.held s.mechanics = some (slot, p)) s.log
  slot : ∀ slot p, lane.held s.mechanics = some (slot, p) → next slot lane.count = p

/-- Nothing is open. -/
structure Clear (lane : Lane) (s : SessionLog τ ε) : Prop where
  guarded : Guarded lane s.log
  free : Free lane s.log

theorem Kept.clear (h : Kept lane s) (hn : lane.held s.mechanics = none) : Clear lane s := by
  refine ⟨h.guarded, fun i c p hc hp => (h.owed i c p hc hp).imp_right ?_⟩
  rintro ⟨slot, hheld⟩
  rw [hn] at hheld
  cases hheld

theorem Clear.kept_of_slot (h : Clear lane s)
    (hslot : ∀ slot p, lane.held s.mechanics = some (slot, p) → next slot lane.count = p) :
    Kept lane s :=
  ⟨h.guarded, fun i c p hc hp => (h.free i c p hc hp).imp_right False.elim, hslot⟩

theorem Clear.kept (h : Clear lane s) (hn : lane.held s.mechanics = none) : Kept lane s := by
  apply h.kept_of_slot
  intro slot p hheld
  rw [hn] at hheld
  cases hheld

theorem Clear.push (h : Clear lane s) (hc : lane.published c.1 = none)
    (hlog : s'.log = s.log ++ [c]) : Clear lane s' := by
  refine ⟨?_, ?_⟩
  · rw [hlog]
    exact h.guarded.push fun _ => h.free
  · rw [hlog]
    refine .push h.free (fun _ => id) fun q hq => ?_
    rw [hc] at hq
    cases hq

/-! ## What leaves a lane alone -/

/-- The lane is not written or published, and the engine keeps the same
slot. -/
structure Quiet (lane : Lane) (s s' : SessionLog τ ε) : Prop where
  held : lane.held s'.mechanics = lane.held s.mechanics
  log : ∃ more, s'.log = s.log ++ more ∧
    ∀ c ∈ more, lane.published c.1 = none ∧ ¬ lane.Writes c.1

theorem Quiet.refl (lane : Lane) (s : SessionLog τ ε) : Quiet lane s s :=
  ⟨rfl, [], by simp, by simp⟩

theorem Quiet.trans {s'' : SessionLog τ ε} (h : Quiet lane s s')
    (h' : Quiet lane s' s'') : Quiet lane s s'' := by
  obtain ⟨hheld, more, hlog, hmore⟩ := h
  obtain ⟨hheld', more', hlog', hmore'⟩ := h'
  refine ⟨hheld'.trans hheld, more ++ more', ?_, ?_⟩
  · rw [hlog', hlog, append_assoc]
  · intro c hc
    exact (mem_append.mp hc).elim (hmore c) (hmore' c)

instance : IsPreorder (SessionLog τ ε) (Quiet lane) where
  refl := Quiet.refl lane
  trans _ _ _ := Quiet.trans

theorem owed_append {p : UInt16 → Prop} (h : Owed lane p log)
    (hmore : ∀ c ∈ more, lane.published c.1 = none) : Owed lane p (log ++ more) := by
  induction more generalizing log with
  | nil => simpa using h
  | cons c rest ih =>
    rw [append_cons]
    apply ih
    · refine h.push (fun _ => id) fun q hq => ?_
      rw [hmore c mem_cons_self] at hq
      cases hq
    · exact fun d hd => hmore d (mem_cons_of_mem _ hd)

theorem guarded_append (h : Guarded lane log) (hmore : ∀ c ∈ more, ¬ lane.Writes c.1) :
    Guarded lane (log ++ more) := by
  induction more generalizing log with
  | nil => simpa using h
  | cons c rest ih =>
    rw [append_cons]
    exact ih (h.push fun hw => absurd hw (hmore c mem_cons_self))
      fun d hd => hmore d (mem_cons_of_mem _ hd)

theorem Kept.quiet (hs : Kept lane s) (h : Quiet lane s s') : Kept lane s' := by
  obtain ⟨hheld, more, hlog, hmore⟩ := h
  refine ⟨?_, ?_, ?_⟩
  · rw [hlog]
    exact guarded_append hs.guarded fun c hc => (hmore c hc).2
  · rw [hlog, hheld]
    exact owed_append hs.owed fun c hc => (hmore c hc).1
  · rw [hheld]
    exact hs.slot

/-- The requests that neither write nor publish. -/
abbrev Lane.Idle (lane : Lane) (req : Request) : Prop :=
  lane.published req = none ∧ ¬ lane.Writes req

theorem quiet_steps (T : LoaderMechanicsTransport τ ε) (lane : Lane) :
    Steps T.logged (Quiet lane) lane.Idle fun m m' => lane.held m' = lane.held m where
  request req hreq s := ⟨rfl, [⟨req, _⟩], rfl, forall_mem_singleton.mpr hreq⟩
  update s m hm := ⟨hm, [], by simp [Session.log], by simp⟩

/-! ## Requests one by one -/

section
variable {T : LoaderMechanicsTransport τ ε} {P : SessionLog τ ε → Prop} {req : Request}

variable {wrap : ε → LoaderMechanicsError ε}

theorem demand_triple {Q : req.Answer → SessionLog τ ε → Prop}
    {E : LoaderMechanicsError ε → SessionLog τ ε → Prop}
    (hok : ∀ s s' a, P s → s'.mechanics = s.mechanics → s'.log = s.log ++ [⟨req, .ok a⟩] → Q a s')
    (herr : ∀ s s' e, P s → s'.mechanics = s.mechanics →
      s'.log = s.log ++ [⟨req, .error e⟩] → E (wrap e) s') :
    Triple P (demand T.logged wrap req) Q E := by
  refine .of_outcome fun s hs => ?_
  have hask : ask T.logged req s = ⟨.ok (T.handle req s.transport.1).1, { s with transport :=
          ((T.handle req s.transport.1).2, s.log ++ [⟨req, (T.handle req s.transport.1).1⟩]) },
      []⟩ := rfl
  rw [demand, Eff.bind_of_silent hask]
  generalize (T.handle req s.transport.1).2 = t
  cases (T.handle req s.transport.1).1 with
  | ok a => exact .inl ⟨a, rfl, hok s _ a hs rfl rfl⟩
  | error e => exact .inr ⟨wrap e, rfl, herr s _ e hs rfl rfl⟩

variable {m : LoaderMechanics}

theorem demand_clear (hreq : lane.published req = none) (hn : lane.held m = none) :
    Triple (fun s => Clear lane s ∧ s.mechanics = m) (demand T.logged wrap req)
      (fun _ s => Clear lane s ∧ s.mechanics = m) (fun _ => Kept lane) := by
  apply demand_triple
  · intro s s' a hs hm hlog
    exact ⟨hs.1.push hreq hlog, hm.trans hs.2⟩
  · intro s s' e hs hm hlog
    apply (hs.1.push hreq hlog).kept
    rw [hm, hs.2]
    exact hn

theorem kept_of_within {x : McuLog τ ε α} (h : Within (Quiet lane) x) : Keeps (Kept lane) x :=
  fun s hs => hs.quiet (h s)

theorem Kept.released (hs : Kept lane s) {slot : UInt16}
    (hheld : lane.held s.mechanics = some (slot, producer)) (hc : lane.Consumed producer c)
    (hd : lane.Done producer d) (hcw : ¬ lane.Writes c.1) (hdw : ¬ lane.Writes d.1)
    (hlog : s'.log = s.log ++ [c] ++ [d]) : Clear lane s' := by
  refine ⟨?_, ?_⟩
  · rw [hlog]
    exact (hs.guarded.push fun h => absurd h hcw).push fun h => absurd h hdw
  · rw [hlog]
    refine .released (fun i b q hb hq => (hs.owed i b q hb hq).imp_right ?_) hc hd
    rintro ⟨other, hother⟩
    rw [hheld] at hother
    cases hother
    rfl

/-! ## Commands -/

theorem publishReservedTemplate_kept (sequence : UInt8) (template : Bytes)
    (completion : LoaderCommandCompletion) :
    Keeps (Kept .command) (publishReservedTemplate T.logged sequence template completion) := by
  refine keeps (look_bind fun m => ?_)
  cases hpend : m.pendingCommand with
  | some => exact fail fun s hs => hs.1
  | none =>
    have hn : command.held m = none := by rw [held, hpend]; rfl
    refine guard (fun s hs => hs.1) ?_
    refine guard (fun s hs => hs.1) ?_
    refine .look_bind fun capacity => ?_
    refine .guard (fun s hs => hs.1.1) ?_
    -- from here on the lane is clear until the index is written
    refine .weaken_pre (P := fun s => Clear .command s ∧ s.mechanics = m) ?_
      fun s hs => ⟨hs.1.1.clear (by rw [hs.1.2]; exact hn), hs.1.2⟩
    refine .bind (demand_clear rfl hn) fun address => ?_
    refine .ofExcept_bind (fun descriptor _ => ?_) fun _ s hs => hs.1.kept (by rw [hs.2]; exact hn)
    refine .bind (demand_clear rfl hn) fun _ => ?_
    refine .bind (demand_clear rfl hn) fun _ => ?_
    refine bind (R := fun _ s => Clear .command s ∧ s.mechanics = m) ?_ fun _ => ?_
    · cases completion with
      | response => exact demand_clear rfl hn
      | noResponse => exact pure fun _ h => h
    refine bind (R := fun _ s => Clear .command s ∧ command.held s.mechanics =
        some (m.commandProducer, next m.commandProducer mcuTxRingCount)) ?_ fun _ => ?_
    · apply Triple.modify
      rintro s ⟨hs, -⟩
      exact ⟨⟨hs.guarded, hs.free⟩, rfl⟩
    have hpublish : ∀ (s s' : SessionLog τ ε) answer, (Clear .command s ∧
        command.held s.mechanics =
          some (m.commandProducer, next m.commandProducer mcuTxRingCount)) →
        s'.mechanics = s.mechanics →
        s'.log = s.log ++ [⟨.publishCommandProducer (next m.commandProducer mcuTxRingCount),
          answer⟩] → Kept .command s' := by
      rintro s s' answer ⟨hs, hheld⟩ hm hlog
      refine ⟨?_, ?_, ?_⟩
      · rw [hlog]
        exact hs.guarded.push fun h => h.elim
      · rw [hlog, hm, hheld]
        refine .push hs.free (fun _ h => h.elim) fun q hq => ⟨m.commandProducer, ?_⟩
        cases hq
        rfl
      · rw [hm, hheld]
        rintro slot p ⟨⟩
        rfl
    exact demand_triple (fun s s' a => hpublish s s' (.ok a)) fun s s' e => hpublish s s' (.error e)

/-- The consumer index was read last, at the producer of the slot that the
engine keeps. -/
structure Seen (lane : Lane) (m : LoaderMechanics) (producer : UInt16)
    (s : SessionLog τ ε) : Prop where
  mechanics : s.mechanics = m
  kept : Kept lane s
  consumed : ∃ (before : SessionLog τ ε) (c : Call ε), Kept lane before ∧
    before.mechanics = m ∧ s.log = before.log ++ [c] ∧ lane.Consumed producer c

theorem Kept.push_read (hs : Kept lane s) (hc : lane.Idle c.1)
    (hm : s'.mechanics = s.mechanics) (hlog : s'.log = s.log ++ [c]) : Kept lane s' :=
  hs.quiet ⟨by rw [hm], [c], hlog, forall_mem_singleton.mpr hc⟩

theorem demand_seen {p : req.Answer → Prop} (m : LoaderMechanics) (hidle : lane.Idle req)
    (hc : ∀ a, p a → lane.Consumed producer (⟨req, .ok a⟩ : Call ε)) :
    Triple (fun s => Kept lane s ∧ s.mechanics = m) (demand T.logged .containmentRequired req)
      (fun a s => Kept lane s ∧ s.mechanics = m ∧ (p a → Seen lane m producer s))
      (fun _ => Kept lane) := by
  apply demand_triple
  · rintro s s' a ⟨hs, hm⟩ hm' hlog
    have hs' := hs.push_read hidle hm' hlog
    exact ⟨hs', hm'.trans hm, fun ha => ⟨hm'.trans hm, hs', s, _, hs, hm, hlog, hc a ha⟩⟩
  · rintro s s' e ⟨hs, -⟩ hm' hlog
    exact hs.push_read hidle hm' hlog

theorem consumed_seen {didx limit : UInt32} {e : LoaderMechanicsError ε} :
    Triple (fun s => Kept lane s ∧ s.mechanics = m ∧
        (didx = producer.toUInt32 → Seen lane m producer s))
      (if didx ≥ limit then Eff.fail e else return didx = producer.toUInt32 : McuLog τ ε Bool)
      (fun consumed s => Kept lane s ∧ s.mechanics = m ∧
        (consumed = true → Seen lane m producer s)) (fun _ => Kept lane) := by
  refine .guard (fun s hs => hs.1) (.pure ?_)
  rintro s ⟨hs, hm, hseen⟩
  exact ⟨hs, hm, fun h => hseen (of_decide_eq_true h)⟩

theorem demand_done {done : req.Answer → Bool} {slot : UInt16}
    (hheld : lane.held m = some (slot, producer)) (hidle : lane.Idle req)
    (hd : ∀ a, done a → lane.Done (next slot lane.count) (⟨req, .ok a⟩ : Call ε)) :
    Triple (Seen lane m producer) (demand T.logged .containmentRequired req)
      (fun a s => Kept lane s ∧ (done a → Clear lane s)) (fun _ => Kept lane) := by
  apply demand_triple
  · intro s s' a hs hm hlog
    refine ⟨hs.kept.push_read hidle hm hlog, fun hdone => ?_⟩
    have hend := hd a hdone
    rw [hs.kept.slot slot producer (by rw [hs.mechanics]; exact hheld)] at hend
    obtain ⟨before, c, hpre, hm, hcs, hc⟩ := hs.consumed
    refine hpre.released (by rw [hm]; exact hheld) hc hend ?_ ?_ (by rw [hlog, hcs])
    · cases hc <;> exact id
    · cases hend <;> exact id
  · intro s s' e hs hm hlog
    exact hs.kept.push_read hidle hm hlog

variable {f : LoaderMechanics → LoaderMechanics}

theorem reclaim_kept {a : α} (hp : lane.published req = none) (hf : ∀ m, lane.held (f m) = none) :
    Leads (fun s => Kept lane s ∧ Clear lane s)
      (demand T.logged .containmentRequired req >>= fun _ => update f >>= fun _ => Pure.pure a)
      (Kept lane) := by
  refine .bind (R := fun _ s => Clear lane s) ?_ fun _ =>
    .bind (.modify fun s hs => ?_) fun _ => .pure fun _ h => h
  · apply demand_triple
    · rintro s s' _ ⟨-, hclear⟩ _ hlog
      exact hclear.push hp hlog
    · rintro s s' e ⟨hs, hclear⟩ hm hlog
      exact (hclear.push hp hlog).kept_of_slot (by rw [hm]; exact hs.slot)
  · exact Clear.kept ⟨hs.guarded, hs.free⟩ (hf s.mechanics)

theorem tryReclaimCommand_kept : Keeps (Kept .command) (tryReclaimCommand T.logged) := by
  refine keeps (look_bind fun m => ?_)
  cases hpend : m.pendingCommand with
  | none => exact pure fun s hs => hs.1
  | some slot =>
    have hheld : command.held m = some (slot, m.commandProducer) := by
      rw [held, hpend]
      rfl
    refine bind (.bind (demand_seen m ⟨rfl, id⟩ ?_) fun _ => consumed_seen) fun consumed => ?_
    · rintro _ rfl
      exact .command m.commandProducer
    refine ite (fun hcons => ?_) fun _ => .pure fun s hs => hs.1
    refine .bind ((demand_done hheld ⟨rfl, id⟩ fun _ => .command).weaken_pre
      fun s hs => hs.2.2 hcons) fun descriptor => ?_
    refine .ite (fun hdone => ?_) fun _ => .fail fun s hs => hs.1
    exact (reclaim_kept rfl fun _ => rfl).weaken_pre fun s hs => ⟨hs.1, hs.2 hdone⟩

theorem receives_idle (lane : Lane) (h : req.Receives) : lane.Idle req := by
  cases lane <;> cases req <;> first | exact h.elim | exact ⟨rfl, id⟩

theorem waits_idle (lane : Lane) (h : req.Waits) : lane.Idle req := by
  cases lane <;> cases req <;> first | exact h.elim | exact ⟨rfl, id⟩

theorem commands_idle (h : req.Commands) : scatter.Idle req := by
  cases req <;> first | exact h.elim | exact ⟨rfl, id⟩

theorem scatters_idle (h : req.Scatters) : command.Idle req := by
  cases req <;> first | exact h.elim | exact ⟨rfl, id⟩

theorem update_quiet (hf : ∀ m, lane.held (f m) = lane.held m) :
    Within (Quiet lane) (update f : McuLog τ ε Unit) :=
  fun _ => ⟨hf _, [], (append_nil _).symm, by simp⟩

theorem reserve_quiet (lane : Lane) :
    Within (Quiet lane) (reserveSequenceUnchecked : McuLog τ ε UInt8) :=
  Within.bind (update_quiet fun _ => by cases lane <;> rfl) fun _ =>
    .look_bind fun _ => .pure _

theorem activeCommandSlot_none (h : m.activeCommandSlot = none) : m.pendingCommand = none := by
  unfold activeCommandSlot at h
  cases hpend : m.pendingCommand with
  | none => rfl
  | some =>
    rw [hpend] at h
    cases h

/-- Only publication and reclaim touch the slot that is kept. -/
theorem commanding_kept :
    Commanding T.logged fun s s' : SessionLog τ ε => Kept .command s → Kept .command s' where
  publish := publishReservedTemplate_kept
  reclaim := tryReclaimCommand_kept
  poll sequence budget := kept_of_within ((quiet_steps T .command).pollResponse
    (fun _ => receives_idle .command) (fun _ _ => rfl) sequence budget)
  wait hreq := kept_of_within ((quiet_steps T .command).demand (waits_idle _ hreq))
  reserve := kept_of_within (reserve_quiet .command)
  move s m hact hpend _ _ hs := by
    have hn : s.mechanics.pendingCommand = none := activeCommandSlot_none hact
    have hclear := hs.clear (by rw [held, hn]; rfl)
    exact Clear.kept ⟨hclear.guarded, hclear.free⟩ (by rw [held, hpend, hn]; rfl)

theorem exec_kept_command (op : Op) : Keeps (Kept .command) (op.exec T.logged) := by
  have hscat : ∀ req : Request, req.Scatters ∨ req.Waits → command.Idle req :=
    fun req hreq => hreq.elim scatters_idle (waits_idle _)
  have hheld : ∀ m m' : LoaderMechanics, m'.pendingCommand = m.pendingCommand →
      m'.commandProducer = m.commandProducer → m'.deferredCommand = m.deferredCommand →
      command.held m' = command.held m := by
    intro m m' hpend hprod _
    rw [held, held, hpend, hprod]
  have hdefer : ∀ f : LoaderMechanics → Option DeferredCommand, Keeps (Kept .command)
      (update fun m => { m with deferredCommand := f m } : McuLog τ ε Unit) :=
    fun f => kept_of_within (update_quiet fun _ => rfl)
  cases op with
  | beginCommand => exact commanding_kept.beginCommand hdefer _ _
  | pollCommand => exact commanding_kept.pollCommand hdefer
  | publishScatter part chunk =>
    exact kept_of_within ((quiet_steps T .command).publishScatter hscat hheld part chunk)
  | publishReservedScatter part sequence chunk =>
    exact kept_of_within
      ((quiet_steps T .command).publishReservedScatter hscat hheld part sequence chunk)
  | completeScatter part sequence deadline turns =>
    exact kept_of_within
      ((quiet_steps T .command).completeScatter hscat hheld part sequence deadline turns)
  | _ => exact commanding_kept.exec trivial

/-! ## Chunks of firmware -/

/-- A producer index of the download ring was refused. -/
def Refused (log : List (Call ε)) : Prop :=
  ∃ producer error, (⟨.publishScatterProducer producer, .error error⟩ : Call ε) ∈ log

/-- The engine forgot a chunk whose index was refused. -/
structure Lost (s : SessionLog τ ε) : Prop where
  guarded : Guarded .scatter s.log
  held : scatter.held s.mechanics = none
  refused : Refused s.log

theorem Lost.quiet (hs : Lost s) (h : Quiet .scatter s s') : Lost s' := by
  obtain ⟨hheld, more, hlog, hmore⟩ := h
  obtain ⟨producer, error, hmem⟩ := hs.refused
  refine ⟨?_, hheld.trans hs.held, producer, error, ?_⟩
  · rw [hlog]
    exact guarded_append hs.guarded fun c hc => (hmore c hc).2
  · rw [hlog]
    exact mem_append_left _ hmem

theorem scatterConsumed_seen (m : LoaderMechanics) (producer : UInt16) :
    Triple (fun s => Kept .scatter s ∧ s.mechanics = m) (scatterConsumed T.logged producer)
      (fun consumed s => Kept .scatter s ∧ s.mechanics = m ∧
        (consumed = true → Seen .scatter m producer s)) (fun _ => Kept .scatter) := by
  refine .bind (demand_seen m ⟨rfl, id⟩ ?_) fun _ => consumed_seen
  rintro _ rfl
  exact .scatter producer

theorem waitScatter_seen (m : LoaderMechanics) (producer : UInt16) (deadline : UInt64)
    (turns : Nat) :
    Triple (fun s => Kept .scatter s ∧ s.mechanics = m)
      (waitScatter T.logged producer deadline turns)
      (fun waited s => Kept .scatter s ∧ (waited.isSome → Seen .scatter m producer s))
      (fun _ => Kept .scatter) := by
  induction turns with
  | zero => exact .pure fun s hs => ⟨hs.1, nofun⟩
  | succ turns ih =>
    refine .bind (scatterConsumed_seen m producer) fun consumed => ?_
    refine .ite (fun h => .pure fun s hs => ⟨hs.1, fun _ => hs.2.2 h⟩) fun _ => ?_
    refine .bind (R := fun _ s => Kept .scatter s ∧ s.mechanics = m) ?_ fun waited => ?_
    · apply demand_triple
      · rintro s s' _ ⟨hs, hm, -⟩ hm' hlog
        exact ⟨hs.push_read ⟨rfl, id⟩ hm' hlog, hm'.trans hm⟩
      · rintro s s' e ⟨hs, -⟩ hm' hlog
        exact hs.push_read ⟨rfl, id⟩ hm' hlog
    refine .ite (fun _ => ih) fun _ => ?_
    refine .bind (scatterConsumed_seen m producer) fun consumed => ?_
    exact .ite (fun h => .pure fun s hs => ⟨hs.1, fun _ => hs.2.2 h⟩) fun _ =>
      fail fun s hs => hs.1

variable (part : FirmwareImagePart)

theorem completeScatter_kept (sequence : UInt8) (deadline : UInt64) (turns : Nat) :
    Leads (Kept .scatter) (completeScatter T.logged part sequence deadline turns)
      (Kept .scatter) := by
  refine .look_bind fun m => ?_
  cases hpend : m.pendingScatter with
  | none => exact .fail fun s hs => hs.1
  | some pending =>
    have hheld : scatter.held m = some (pending.slot, pending.producer) := by
      rw [held, hpend]
      rfl
    refine .guard (fun s hs => hs.1) ?_
    refine .bind (waitScatter_seen m pending.producer deadline turns) fun waited => ?_
    cases waited with
    | none => exact .pure fun s hs => hs.1
    | some =>
      refine .bind ((demand_done hheld ⟨rfl, id⟩ fun _ => .scatter).weaken_pre fun s hs => hs.2 rfl)
        fun descriptor => ?_
      refine .ite (fun hdone => ?_) fun _ => .fail fun s hs => hs.1
      exact (reclaim_kept rfl fun _ => rfl).weaken_pre fun s hs => ⟨hs.1, hs.2 hdone⟩

/-- The chunk is lost when its index is refused, and kept otherwise. -/
theorem publishReservedScatter_kept (sequence : UInt8) (chunk : Bytes) :
    Triple (Kept .scatter) (publishReservedScatter T.logged part sequence chunk)
      (fun _ => Kept .scatter) (fun _ s => Kept .scatter s ∨ Lost s) := by
  refine .look_bind fun m => ?_
  split
  · exact .fail fun s hs => .inl hs.1
  refine .guard (fun s hs => .inl hs.1) ?_
  refine .ite (fun _ => .fail fun s hs => .inl hs.1) fun hpend => ?_
  refine .guard (fun s hs => .inl hs.1) ?_
  have hn : scatter.held m = none := by
    rw [held, Option.not_isSome_iff_eq_none.mp hpend]
    rfl
  refine .weaken_pre (P := fun s => Clear .scatter s ∧ s.mechanics = m) ?_
    fun s hs => ⟨hs.1.clear (by rw [hs.2]; exact hn), hs.2⟩
  have hdemand : ∀ {req : Request}, scatter.published req = none →
      Triple (fun s => Clear .scatter s ∧ s.mechanics = m) (demand T.logged .transport req)
        (fun _ s => Clear .scatter s ∧ s.mechanics = m) (fun _ s => Kept .scatter s ∨ Lost s) :=
    fun hreq => (demand_clear hreq hn).weaken_error fun _ _ => .inl
  refine .bind (hdemand rfl) fun address => ?_
  refine .ofExcept_bind (fun descriptor _ => ?_)
    fun _ s hs => .inl (hs.1.kept (by rw [hs.2]; exact hn))
  refine bind (hdemand rfl) fun _ => ?_
  refine bind (hdemand rfl) fun _ => ?_
  refine bind (R := fun _ s => Guarded .scatter s.log ∧
    Owed .scatter (· = next m.fwdlProducer fwdlRingCount) s.log) ?_ fun _ => ?_
  · apply demand_triple
    · rintro s s' _ ⟨hs, -⟩ _ hlog
      rw [hlog]
      refine ⟨hs.guarded.push fun h => h.elim, Owed.push hs.free (fun _ h => h.elim) ?_⟩
      rintro q ⟨⟩
      rfl
    · rintro s s' e ⟨hs, hm⟩ hm' hlog
      refine .inr ⟨?_, by rw [hm', hm]; exact hn, next m.fwdlProducer fwdlRingCount, e, ?_⟩
      · rw [hlog]
        exact hs.guarded.push fun h => h.elim
      · rw [hlog]
        exact mem_append_right _ mem_cons_self
  · apply Triple.modify
    rintro s ⟨hguard, howed⟩
    refine ⟨hguard, fun i c p hc hp => (howed i c p hc hp).imp_right ?_, ?_⟩
    · rintro rfl
      exact ⟨m.fwdlProducer, rfl⟩
    · rintro slot p ⟨⟩
      rfl

theorem publishScatter_kept (chunk : Bytes) :
    Triple (Kept .scatter) (publishScatter T.logged part chunk) (fun _ => Kept .scatter)
      (fun _ s => Kept .scatter s ∨ Lost s) := by
  refine .look_any fun m => ?_
  split
  · exact .fail fun s hs => .inl hs
  refine .guard (fun s hs => .inl hs) ?_
  refine .guard (fun s hs => .inl hs) ?_
  refine .bind ((kept_of_within (reserve_quiet .scatter)).triple.weaken_error
    fun _ _ => .inl) fun sequence => ?_
  exact .bind (publishReservedScatter_kept part sequence chunk) fun _ =>
    .pure fun _ h => h

/-- A chunk of firmware is published. -/
def LoaderMechanics.Op.Scatters : Op → Prop
  | .publishScatter .. | .publishReservedScatter .. => True
  | _ => False

theorem exec_quiet_scatter {op : Op} (hscatt : ¬ op.Scatters)
    (hcompl : ∀ part sequence deadline turns, op ≠ .completeScatter part sequence deadline turns) :
    Within (Quiet .scatter) (op.exec T.logged) := by
  have hsteps := quiet_steps T .scatter
  have hK : ∀ req : Request, req.Receives ∨ req.Commands ∨ req.Waits → scatter.Idle req := by
    rintro req (hreq | hreq | hreq)
    · exact receives_idle _ hreq
    · exact commands_idle hreq
    · exact waits_idle _ hreq
  have hcmds : Commanding T.logged (Quiet (τ := τ) (ε := ε) .scatter) := by
    refine hsteps.commanding hK fun m m' h _ => ?_
    rw [held, held, h]
  cases op with
  | beginCommand => exact hcmds.beginCommand (fun _ => update_quiet fun _ => rfl) _ _
  | pollCommand => exact hcmds.pollCommand fun _ => update_quiet fun _ => rfl
  | publishScatter part chunk | publishReservedScatter part sequence chunk =>
    exact absurd trivial hscatt
  | completeScatter => exact absurd rfl (hcompl _ _ _ _)
  | _ => exact hcmds.exec trivial

theorem exec_scatter {op : Op} (hs : Kept .scatter s ∨ Lost s)
    (hop : op.Scatters → ¬ Refused s.log) :
    Kept .scatter (op.exec T.logged s).state ∨ Lost (op.exec T.logged s).state := by
  have hk : op.Scatters → Kept .scatter s :=
    fun h => hs.resolve_right fun hlost => hop h hlost.refused
  by_cases hscatt : op.Scatters
  · cases op with
    | publishScatter part chunk =>
      exact ((publishScatter_kept part chunk).weaken_post fun _ _ => .inl).state (hk trivial)
    | publishReservedScatter part sequence chunk =>
      exact ((publishReservedScatter_kept part sequence chunk).weaken_post fun _ _ => .inl).state
        (hk trivial)
    | _ => exact hscatt.elim
  by_cases hcompl : ∀ part sequence deadline turns,
      op ≠ .completeScatter part sequence deadline turns
  · have hquiet : Quiet .scatter s (op.exec T.logged s).state := exec_quiet_scatter hscatt hcompl s
    exact hs.imp (·.quiet hquiet) (·.quiet hquiet)
  · push Not at hcompl
    obtain ⟨part, sequence, deadline, turns, rfl⟩ := hcompl
    rcases hs with hs | hs
    · exact .inl ((completeScatter_kept part sequence deadline turns).state hs)
    · -- nothing is kept, so there is nothing to complete
      have hn : s.mechanics.pendingScatter = none := Option.map_eq_none_iff.mp hs.held
      right
      have hexec : (Op.completeScatter part sequence deadline turns).exec T.logged s =
          ⟨.error .noScatterPending, s, []⟩ := by
        change completeScatter T.logged part sequence deadline turns s = _
        rw [completeScatter, mechanics, Eff.look_bind, hn]
        rfl
      rw [hexec]
      exact hs

/-! ## Runs -/

/-- No chunk is published once an index of the download ring was
refused. -/
def LoaderMechanics.Step.Allowed (step : StepLog τ ε) : Prop :=
  step.op.Scatters → ¬ Refused step.before.log

theorem run_guarded (ops : List Op) (hcmd : Kept .command s) (hscat : Kept .scatter s ∨ Lost s)
    (hallowed : ∀ step ∈ (run T.logged s ops).1, step.Allowed) (lane : Lane) :
    Guarded lane (run T.logged s ops).2.log := by
  induction ops generalizing s with
  | nil =>
    cases lane with
    | command => exact hcmd.guarded
    | scatter => exact hscat.elim (·.guarded) (·.guarded)
  | cons op rest ih =>
    have hop : op.Scatters → ¬ Refused s.log := hallowed _ mem_cons_self
    apply ih
    · exact exec_kept_command op s hcmd
    · exact exec_scatter hscat hop
    · exact fun step hstep => hallowed step (mem_cons_of_mem _ hstep)

theorem start_kept (lane : Lane) (sequence : UInt8) (t : τ) :
    Kept lane (⟨new sequence, (t, ([] : List (Call ε)))⟩ : SessionLog τ ε) := by
  apply Clear.kept
  · exact ⟨fun i j c d producer _ hc => (by cases hc), fun i c producer hc => (by cases hc)⟩
  · cases lane <;> rfl

/-- Once an index was written for a command or a chunk, whatever the
transport answered, no payload or descriptor of that ring is written before
the consumer index was read at it and the descriptor was read as done. -/
theorem payload_retained (T : LoaderMechanicsTransport τ ε) (t : τ) (sequence : UInt8)
    (ops : List Op)
    (hallowed : ∀ step ∈ (run T.logged ⟨new sequence, (t, [])⟩ ops).1, step.Allowed)
    (lane : Lane) : Guarded lane (run T.logged ⟨new sequence, (t, [])⟩ ops).2.log :=
  run_guarded ops (start_kept _ _ _) (.inl (start_kept _ _ _)) hallowed lane

/-- An answer for every request, with every descriptor done. -/
def Request.blank : (req : Request) → req.Answer
  | .commandPayloadAddress _ | .rxBufferAddress .. | .scatterPayloadAddress => (0 : UInt64)
  | .commandDmaIndex | .responseInterruptStatus | .scatterDmaIndex => (0 : UInt32)
  | .readCommandDescriptor _ | .readRxDescriptor .. | .readScatterDescriptor _ =>
    DmaDescriptor.reset
  | .waitForInterrupt _ | .waitForProgress _ => false
  | .readRxBuffer .. => ([] : Bytes)
  | .writeCommandPayload .. | .writeCommandDescriptor .. | .enableResponseInterrupts _
  | .publishCommandProducer _ | .reclaimCommand _ | .maskResponseInterrupts
  | .acknowledgeResponseInterrupts _ | .repostRxDescriptor .. | .publishRxProducer ..
  | .prepareRxResult .. | .completeRxResult .. | .abortRx | .writeScatterPayload _
  | .writeScatterDescriptor .. | .publishScatterProducer _ | .reclaimScatter _ => ()

/-- A transport whose write of the download index fails. -/
def refusing : LoaderMechanicsTransport Unit Unit where
  commandPayloadCapacity _ _ := loaderCommandMaxBytes
  handle
    | .publishScatterProducer _, t => (.error (), t)
    | req, t => (.ok req.blank, t)

theorem payload_retained_refusing :
    Guarded .scatter (run refusing.logged ⟨new 0, ((), [])⟩
      [.publishScatter .patch [1], .pollEvents]).2.log := by
  apply payload_retained
  rintro step (_ | ⟨_, _ | ⟨_, hstep⟩⟩)
  · rintro - ⟨producer, error, hmem⟩
    cases hmem
  · exact False.elim
  · cases hstep

/-- The next chunk is written over the one whose index was refused, with no
look at the device in between. -/
theorem refused_chunk_overwritten :
    ¬ Guarded .scatter (run refusing.logged ⟨new 0, ((), [])⟩
      [.publishScatter .patch [1], .publishScatter .patch [2]]).2.log := by
  intro h
  obtain ⟨k, l, hik, hkl, hlj, -⟩ := h 3 5 ⟨.publishScatterProducer 1, .error ()⟩
    ⟨.writeScatterPayload [2], .ok ()⟩ 1 (by omega) (by rfl) (by rfl) rfl trivial
  omega

end

end Drv.Mt7921
