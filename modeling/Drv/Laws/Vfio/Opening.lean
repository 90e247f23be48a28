import Drv.Laws.Vfio.Release

/-!
# Opening memory to the device

An allocation that succeeds is guarded from the start. One that fails has
opened nothing, or what it opened is closed before its pages go, unless
the kernel refuses to close it (`Event.Unclosed`); nothing is said of
that case.
-/

namespace Drv.Vfio

open Drv.Hardware (Error Method DmaDirection DmaConstraints)
open List LinuxVfio Mapping

/-- A request to close that is refused. -/
def Event.Unclosed : Event → Prop
  | ⟨.ioasUnmap _ length, unmapped⟩ => unmapped ≠ some length
  | ⟨.broker command, none⟩ => command.operation = .unmap
  | _ => False

/-- Pages that grants are on were mapped before. -/
def Fresh (t : Trace) : Prop :=
  ∀ g ∈ ledger t, ∀ memory, g.storage = .process memory → memory < t.length

/-- The trace grows by requests that keep the rule, up to pages mapped
since when one of them was not closed; new grants are on such pages. -/
def Tidy (t t' : Trace) : Prop :=
  ∃ ext, t' = t ++ ext ∧
    (AllFine (fun _ => False) t ext ∨ (AllFine (t.length ≤ ·) t ext ∧ ∃ e ∈ ext, e.Unclosed)) ∧
    ∀ g ∈ ledger t', g ∈ ledger t ∨ ∀ memory, g.storage = .process memory →
      t.length ≤ memory ∧ memory < t'.length

section
variable {t t' t'' : Trace}

theorem AllFine.mono {X Y : Nat → Prop} {ext : Trace} (h : AllFine X t ext)
    (hXY : ∀ memory, X memory → Y memory) : AllFine Y t ext := by
  intro pre e post heq
  have hfine := h pre e post heq
  unfold Fine at hfine ⊢
  split
  next memory len hcall =>
    rw [hcall] at hfine
    exact hfine.imp_left (hXY memory)
  next => exact trivial

theorem Tidy.advances (h : Tidy t t') : Advances t t' := by
  obtain ⟨ext, hext, -, hgr⟩ := h
  refine ⟨⟨ext, hext⟩, fun g hg => ?_⟩
  exact (hgr g hg).imp_right fun hnew memory hs => (hnew memory hs).1

theorem Tidy.fresh (h : Tidy t t') (ht : Fresh t) : Fresh t' := by
  obtain ⟨ext, rfl, -, hgr⟩ := h
  intro g hg memory hstore
  rcases hgr g hg with hg | hnew
  · have := ht g hg memory hstore
    rw [length_append]
    omega
  · exact (hnew memory hstore).2

theorem Retreats.tidy (h : Retreats (fun _ => False) t t') : Tidy t t' := by
  obtain ⟨ext, hext, hfine, hgr⟩ := h
  exact ⟨ext, hext, .inl hfine, fun g hg => .inl (hgr g hg)⟩

theorem Tidy.retreats (h : Tidy t t') (h' : Retreats (fun _ => False) t' t'') : Tidy t t'' := by
  obtain ⟨ext, rfl, hfine, hgr⟩ := h
  obtain ⟨ext', rfl, hfine', hgr'⟩ := h'
  refine ⟨ext ++ ext', append_assoc .., ?_, fun g hg => ?_⟩
  · rcases hfine with hfine | ⟨hfine, e, he, hbad⟩
    · exact .inl (allFine_append hfine hfine')
    · refine .inr ⟨allFine_append hfine (hfine'.mono fun _ h => h.elim), e, ?_, hbad⟩
      exact mem_append_left _ he
  · refine (hgr g (hgr' g hg)).imp_right fun hnew memory hs => ?_
    obtain ⟨hle, hlt⟩ := hnew memory hs
    refine ⟨hle, ?_⟩
    rw [length_append]
    omega

/-- A request to close that was refused excuses what follows. -/
theorem Tidy.unclosed {e : Event} (h : Tidy t t') (he : [e] <:+ t') (hlen : t.length < t'.length)
    (hbad : e.Unclosed) (h' : Retreats (t.length ≤ ·) t' t'') : Tidy t t'' := by
  obtain ⟨ext, rfl, hfine, hgr⟩ := h
  have he : e ∈ ext := by
    have hsuf := suffix_of_suffix_length_le he (suffix_append t ext) (by
      rw [length_append] at hlen
      simp
      omega)
    exact hsuf.subset (mem_singleton.mpr rfl)
  obtain ⟨ext', rfl, hfine', hgr'⟩ := h'
  refine ⟨ext ++ ext', append_assoc .., .inr ⟨?_, e, mem_append_left _ he, hbad⟩, ?_⟩
  · rcases hfine with hfine | ⟨hfine, -⟩
    · exact allFine_append (hfine.mono fun _ h => h.elim) hfine'
    · exact allFine_append hfine hfine'
  · intro g hg
    refine (hgr g (hgr' g hg)).imp_right fun hnew memory hs => ?_
    obtain ⟨hle, hlt⟩ := hnew memory hs
    refine ⟨hle, ?_⟩
    rw [length_append]
    omega

/-! ## Fresh pages -/

section
variable {X : Nat → Prop} (P : Platform)

theorem mmap_run (backing : Backing) (len : Nat) (t : Trace) :
    mmap P backing len t = (if P.answer t (.mmap backing len) then some t.length else none,
      t ++ [⟨.mmap backing len, P.answer t (.mmap backing len)⟩]) := by
  show (if P.answer t (.mmap backing len) = true then _ else _ : Sys (Option Nat)) _ = _
  split
  · rfl
  · rfl

theorem mmap_retreats (backing : Backing) (len : Nat) (t : Trace) :
    Retreats X t (t ++ [⟨.mmap backing len, P.answer t (.mmap backing len)⟩]) :=
  retreats_ask P trivial trivial

theorem storage_mmap (t ext : Trace) (backing : Backing) (len : Nat) (ok : Bool) :
    storage (t ++ ⟨.mmap backing len, ok⟩ :: ext) t.length =
      match backing with
      | .anonymous => .process t.length
      | .device offset => .device offset := by
  rw [storage, getElem?_append_right (Nat.le_refl _), Nat.sub_self, getElem?_cons_zero]
  cases backing with
  | anonymous => rfl
  | device => rfl

theorem fine_of_fresh (hfresh : Fresh t) {t' : Trace} (hold : ∀ g ∈ ledger t', g ∈ ledger t)
    {memory : Nat} (hmemory : t.length ≤ memory) (hstore : storage t' memory = .process memory)
    (len : Nat) (ok : Bool) : Fine X t' ⟨.munmap memory len, ok⟩ := by
  right
  right
  intro hvis
  obtain ⟨g, hg, hgs⟩ := hvis
  have := hfresh g (hold g hg) memory (hgs.trans hstore)
  omega

/-- The trace after fresh pages were mapped and offered to the device. -/
def offered (t : Trace) (len : Nat) (offer : Event) : Trace :=
  t ++ [⟨.mmap .anonymous len, true⟩] ++ [offer]

/-- An offer that was refused opens nothing, so the pages may go. -/
theorem refused_offer (hfresh : Fresh t) (len : Nat) (offer : Event) (hfine : ∀ t, Fine X t offer)
    (hsame : ∀ grants, enter grants offer = grants) :
    Retreats X t (offered t len offer) ∧
      ∀ ok, Fine X (offered t len offer) ⟨.munmap t.length len, ok⟩ := by
  have hoff : Retreats X (t ++ [⟨.mmap .anonymous len, true⟩]) (offered t len offer) :=
    retreats_concat (hfine _) fun g hg => by rwa [hsame] at hg
  have hmap : Retreats X t (t ++ [⟨.mmap .anonymous len, true⟩]) :=
    retreats_concat trivial fun _ hg => hg
  have hret := hmap.trans hoff
  refine ⟨hret, fun ok => ?_⟩
  obtain ⟨-, -, -, hold⟩ := hret
  refine fine_of_fresh hfresh hold (Nat.le_refl _) ?_ len ok
  rw [offered, append_assoc]
  exact storage_mmap ..

section
variable (hfresh : Fresh t) (len : Nat) (offer : Event) {key : Key}
  (hfine : ∀ t, Fine (fun _ => False) t offer)
  (hopens : ∀ grants, enter grants offer = grants ++ [⟨key, .process t.length⟩])
include hfresh hfine hopens

/-- An offer that was taken opens the fresh pages under one key, and
guards the allocation that remembers it. -/
theorem taken_offer : Tidy t (offered t len offer) ∧
    ∀ d : Dma, d.memory.pages = some t.length → d.key = some key →
        Guarded (offered t len offer) d := by
  have hled : ledger (offered t len offer) = ledger t ++ [⟨key, .process t.length⟩] := by
    rw [offered, ledger_concat, hopens, ledger_concat]
    rfl
  have hlen : (offered t len offer).length = t.length + 2 := by
    simp [offered]
  constructor
  · refine ⟨[⟨.mmap .anonymous len, true⟩] ++ [offer], append_assoc .., .inl ?_, ?_⟩
    · exact allFine_append (allFine_singleton trivial) (allFine_singleton (hfine _))
    · rw [hled]
      refine forall_mem_concat (fun _ => .inl) (.inr fun memory hs => ?_)
      cases hs
      omega
  · intro d hpgs hkey
    have hview := view_of_pages hpgs
    refine ⟨by omega, fun hn => ?_, fun g hg memory hmem hs => ?_⟩
    · rw [hpgs] at hn
      cases hn
    · rw [hpgs] at hmem
      cases hmem
      rw [hled] at hg
      rcases mem_append.mp hg with hg | hg
      · exact absurd (hfresh g hg _ hs) (Nat.lt_irrefl _)
      · rw [mem_singleton.mp hg]
        exact hkey

theorem closed_offer {c : Event} (hclosing : c.call.Closing)
    (hcfine : ∀ t, Fine (fun _ => False) t c)
    (hc : c.Unclosed ∨ ∀ t, Freed (t ++ [c]) (some key)) (ok : Bool) :
    Tidy t (offered t len offer ++ [c] ++ [⟨.munmap t.length len, ok⟩]) := by
  have hclose : Retreats (fun _ => False) (offered t len offer) (offered t len offer ++ [c]) :=
    retreats_concat (hcfine _) fun _ hg => mem_of_mem_enter hclosing hg
  have htidy := (taken_offer hfresh len offer hfine hopens).1.retreats hclose
  rcases hc with hc | hfreed
  · apply htidy.unclosed (suffix_append _ _) _ hc
    · exact retreats_concat (.inl (Nat.le_refl _)) fun _ hg => hg
    · simp [offered]
  · apply htidy.retreats
    refine retreats_concat (fine_of_fresh hfresh (fun g hg => ?_) (Nat.le_refl _) ?_ len ok)
      fun _ hg => hg
    · have hkey := hfreed _ g hg
      rw [ledger_concat] at hg
      have hold := mem_of_mem_enter hclosing hg
      rw [offered, ledger_concat, hopens, ledger_concat] at hold
      rcases mem_append.mp hold with hold | hnew
      · exact hold
      · rw [mem_singleton.mp hnew] at hkey
        exact absurd rfl hkey
    · rw [offered, append_assoc, append_assoc]
      exact storage_mmap ..

end

/-! ## In the IOAS -/

theorem mapWithFlags_spec (hfresh : Fresh t) (iova len : Nat) (deviceReads deviceWrites : Bool) :
    let r := DmaMapping.mapWithFlags P iova len deviceReads deviceWrites t
    Tidy t r.2 ∧ ∀ m, r.1 = some m →
      ∀ size direction, Guarded r.2 ⟨.ioas m, iova, size, direction, none⟩ := by
  unfold DmaMapping.mapWithFlags
  split
  · exact ⟨(Retreats.refl t).tidy, fun m hm => by cases hm⟩
  · have hmmap := mmap_retreats (X := fun _ => False) P .anonymous len t
    rw [bind_run, mmap_run]
    generalize P.answer t (.mmap .anonymous len) = ok at hmmap
    cases ok with
    | false => exact ⟨hmmap.tidy, fun m hm => by cases hm⟩
    | true =>
      simp only [if_true]
      rw [bind_run, ask_run]
      generalize P.answer (t ++ [⟨.mmap .anonymous len, true⟩])
        (.ioasMap iova len t.length deviceReads deviceWrites) = answer
      cases answer with
      | none =>
        obtain ⟨hoff, hfine⟩ := refused_offer hfresh len
          ⟨.ioasMap iova len t.length deviceReads deviceWrites, none⟩
          (fun _ => trivial) fun _ => rfl
        have hmunmap := retreats_ask P (c := .munmap t.length len) trivial (hfine _)
        exact ⟨(hoff.trans hmunmap).tidy, fun m hm => by cases hm⟩
      | some given =>
        by_cases hgiven : given = iova
        · obtain ⟨htidy, hguard⟩ := taken_offer hfresh len
            ⟨.ioasMap iova len t.length deviceReads deviceWrites, some given⟩
            (fun _ => trivial) fun _ => rfl
          dsimp only
          rw [if_neg (not_not.mpr hgiven)]
          refine ⟨htidy, fun m hm size direction => ?_⟩
          cases hm
          apply hguard
          · rfl
          · rw [hgiven]
            rfl
        · dsimp only
          rw [if_pos hgiven, bind_run, ask_run]
          generalize P.answer _ (.ioasUnmap given len) = unmapped
          have hcl : Event.Unclosed ⟨.ioasUnmap given len, unmapped⟩ ∨
              ∀ t, Freed (t ++ [⟨.ioasUnmap given len, unmapped⟩]) (some (.iova given len)) := by
            by_cases hunmap : unmapped = some len
            · rw [hunmap]
              exact .inr fun t => freed_ioasUnmap t given len
            · exact .inl hunmap
          refine ⟨?_, fun m hm => by cases hm⟩
          exact closed_offer (c := ⟨.ioasUnmap given len, unmapped⟩) hfresh len
            ⟨.ioasMap iova len t.length deviceReads deviceWrites, some given⟩
            (fun _ => trivial) (fun _ => rfl) trivial (fun _ => trivial) hcl _

/-- The making of an allocation keeps the rule, and its answer is guarded. -/
def Opens (s : LinuxVfio) (o : Outcome LinuxVfio Empty Error Dma) : Prop :=
  Tidy s.trace o.state.trace ∧
    ∀ d, o.result = .ok d → Guarded o.state.trace d

variable {s : LinuxVfio} {size : Nat} {constraints : DmaConstraints} {s' : LinuxVfio}

theorem opens_fail (h : Tidy s.trace s'.trace) (e : Error) : Opens s ⟨.error e, s', []⟩ :=
  ⟨h, fun _ hd => by cases hd⟩

theorem opens_ok {d : Dma} (h : Tidy s.trace s'.trace) (hd : Guarded s'.trace d) :
    Opens s ⟨.ok d, s', []⟩ := by
  refine ⟨h, fun d' hd' => ?_⟩
  cases hd'
  exact hd

theorem allocIoas_opens (hfresh : Fresh s.trace) (mappedLen : Nat) (direction : DmaDirection) :
    Opens s (allocIoas P size mappedLen constraints direction s) := by
  rw [allocIoas, Eff.look_bind]
  cases halign : aligned s.nextIova constraints.alignment with
  | error e =>
    exact opens_fail (Retreats.refl _).tidy e
  | ok iova =>
    obtain ⟨htidy, hguard⟩ := mapWithFlags_spec (P := P) hfresh iova mappedLen
      (deviceReads direction) (deviceWrites direction)
    rw [Eff.bind_of_silent (Eff.ofExcept_apply _ _)]
    split
    · exact opens_fail (Retreats.refl _).tidy _
    · rw [sys_bind]
      generalize DmaMapping.mapWithFlags P iova mappedLen (deviceReads direction)
        (deviceWrites direction) s.trace = r at htidy hguard
      obtain ⟨mapping, t'⟩ := r
      cases mapping with
      | none => exact opens_fail htidy _
      | some mapping =>
        have hguar := hguard mapping rfl size direction
        dsimp only
        split
        · exact opens_ok htidy hguar
        · exact opens_fail (htidy.retreats (dmaMapping_teardown P hguar rfl).1) _

/-! ## Through the broker -/

/-- What the broker opened is taken back by its handle. -/
def Dma.Brokered (d : Dma) : Prop := ∀ key, d.key = some key → key.isHandle

theorem Dma.Brokered.of_key {d d' : Dma} (h : d.Brokered) (hkey : d'.key = d.key ∨ d'.key = none) :
    d'.Brokered := by
  intro key hk
  rcases hkey with hsame | hn
  · exact h key (hsame ▸ hk)
  · rw [hn] at hk
    cases hk

/-- The broker's answer is taken back by its handle. -/
def Brokers (s : LinuxVfio) (o : Outcome LinuxVfio Empty Error Dma) : Prop :=
  Opens s o ∧ ∀ d, o.result = .ok d → d.Brokered

theorem brokers_fail (h : Tidy s.trace s'.trace) (e : Error) : Brokers s ⟨.error e, s', []⟩ :=
  ⟨opens_fail h e, fun _ hd => by cases hd⟩

theorem brokers_ok {d : Dma} (h : Tidy s.trace s'.trace) (hd : Guarded s'.trace d)
    (hkey : d.key = d.brokerHandle.map .handle) : Brokers s ⟨.ok d, s', []⟩ := by
  refine ⟨opens_ok h hd, fun d' hd' key hk => ?_⟩
  cases hd'
  rw [hkey] at hk
  obtain ⟨handle, -, rfl⟩ := Option.map_eq_some_iff.mp hk
  rfl

variable {command : DmaBrokerCommand}

theorem broker_answered {reply : Option DmaBrokerCommand}
    (h : P.answer s.trace (.broker command) = reply) :
    broker P command s = ⟨reply.elim (.error .deviceFault) .ok,
      { s with trace := s.trace ++ [⟨.broker command, reply⟩] }, []⟩ := by
  rw [broker, sys_bind, ask_run, h]
  cases reply <;> rfl

theorem tidy_allocCoherent (t : Trace) (hop : command.operation = .allocCoherent)
    (answer : Option DmaBrokerCommand) : Tidy t (t ++ [⟨.broker command, answer⟩]) := by
  refine ⟨[⟨.broker command, answer⟩], rfl, .inl (allFine_singleton trivial), fun g hg => ?_⟩
  rw [ledger_concat] at hg
  cases answer with
  | none => exact .inl hg
  | some =>
    simp only [enter, hop] at hg
    rcases mem_append.mp hg with hg | hg
    · exact .inl hg
    · rw [mem_singleton.mp hg]
      exact .inr fun memory hs => by cases hs

theorem mapping_device (offset len : Nat) (t : Trace) :
    let r := device P offset len t
    Retreats X t r.2 ∧ ∀ m, r.1 = some m →
      m.memory < r.2.length ∧ storage r.2 m.memory = .device offset := by
  rw [device]
  split
  · exact ⟨.refl t, fun m hm => by cases hm⟩
  · have hmmap := mmap_retreats (X := X) P (.device offset) len t
    rw [bind_run, mmap_run]
    generalize P.answer t (.mmap (.device offset) len) = ok at hmmap
    cases ok with
    | false => exact ⟨hmmap, fun m hm => by cases hm⟩
    | true =>
      refine ⟨hmmap, fun m hm => ?_⟩
      cases hm
      have hplace (e : Event) : t.length < length (t ++ [e]) := by
        simp
      exact ⟨hplace _, storage_mmap t [] (.device offset) len true⟩

theorem allocCoherent_opens (direction : DmaDirection) :
    Brokers s (allocCoherent P size constraints direction s) := by
  have hfree : ∀ (t : Trace) (handle : Nat),
      Retreats (fun _ => False) t (ask P (.broker { operation := .free, handle }) t).2 :=
    fun t handle => retreats_ask P ⟨by simp, by simp⟩ trivial
  rw [allocCoherent]
  generalize hcmd : ({ operation := .allocCoherent, size, alignment := constraints.alignment,
                           maxDeviceAddress := constraints.maxDeviceAddress } :
    DmaBrokerCommand) = command
  have hop : command.operation = .allocCoherent := by rw [← hcmd]
  cases hans : P.answer s.trace (.broker command) with
  | none =>
    rw [Eff.bind_of_error (broker_answered P hans)]
    exact brokers_fail (tidy_allocCoherent _ hop _) _
  | some reply =>
    have htidy : Tidy s.trace _ := tidy_allocCoherent s.trace hop (some reply)
    rw [Eff.bind_of_silent (broker_answered P hans)]
    split
    · exact brokers_fail (htidy.retreats (hfree _ reply.handle)) _
    · rw [sys_bind]
      generalize s.trace ++ [_] = t' at htidy
      obtain ⟨hret, hview⟩ := mapping_device P reply.mmapOffset size t'
      generalize device P reply.mmapOffset size t' = r at hret hview
      obtain ⟨mapping, t''⟩ := r
      cases mapping with
      | none =>
        dsimp only
        exact brokers_fail ((htidy.retreats hret).retreats (hfree _ reply.handle)) _
      | some mapping =>
        obtain ⟨hplace, hstore⟩ := hview mapping rfl
        refine brokers_ok (htidy.retreats hret) ?_ rfl
        exact ⟨hplace, fun _ => ⟨_, hstore⟩, fun g hg memory hpgs => by cases hpgs⟩

theorem mapping_anonymous (len : Nat) (t : Trace) :
    let r := anonymous P len t
    (r.1 = none ∧ Retreats X t r.2) ∨
      (r.1 = some ⟨t.length, len, true⟩ ∧ r.2 = t ++ [⟨.mmap .anonymous len, true⟩]) := by
  rw [anonymous]
  split
  · exact .inl ⟨rfl, .refl t⟩
  · have hmmap := mmap_retreats (X := X) P .anonymous len t
    rw [bind_run, mmap_run]
    generalize P.answer t (.mmap .anonymous len) = ok at hmmap
    cases ok with
    | false => exact .inl ⟨rfl, hmmap⟩
    | true => exact .inr ⟨rfl, rfl⟩

theorem teardown_trace (memory len : Nat) (t : Trace) :
    (teardown P ⟨memory, len, true⟩ t).2 =
      t ++ [⟨.munmap memory len, P.answer t (.munmap memory len)⟩] := by
  rw [teardown, if_pos rfl, bind_run, ask_run]
  split
  · rfl
  · rfl

theorem allocStreaming_opens (hfresh : Fresh s.trace) (mappedLen : Nat) (direction : DmaDirection) :
    Brokers s (allocStreaming P size mappedLen constraints direction s) := by
  have harena := mapping_anonymous (X := fun _ => False) P mappedLen s.trace
  rw [allocStreaming, sys_bind]
  generalize anonymous P mappedLen s.trace = r at harena
  obtain ⟨arena, t'⟩ := r
  rcases harena with ⟨rfl, hret⟩ | ⟨rfl, rfl⟩
  · exact brokers_fail hret.tidy _
  · dsimp only
    generalize hcmd : ({ operation := .mapStreaming, size,
                             alignment := constraints.alignment,
                             maxDeviceAddress := constraints.maxDeviceAddress,
                             userAddress := s.trace.length,
                             direction := directionNumber direction } :
      DmaBrokerCommand) = command
    have hop : command.operation = .mapStreaming := by rw [← hcmd]
    have huser : command.userAddress = s.trace.length := by rw [← hcmd]
    rw [sys_bind, ask_run]
    cases P.answer (s.trace ++ [⟨.mmap .anonymous mappedLen, true⟩]) (.broker command) with
    | none =>
      obtain ⟨hoff, hfine⟩ := refused_offer hfresh mappedLen
        ⟨.broker command, none⟩ (fun _ => trivial) fun _ => rfl
      have htear := teardown_retreats P ⟨s.trace.length, mappedLen, true⟩ hfine
      dsimp only
      exact brokers_fail (hoff.trans htear.1).tidy _
    | some reply =>
      have hopens : ∀ grants, enter grants ⟨.broker command, some reply⟩ =
          grants ++ [⟨.handle reply.handle, .process s.trace.length⟩] := by
        intro grants
        simp only [enter, hop, huser]
      dsimp only
      split
      · rw [sys_bind, ask_run, sys_bind]
        apply brokers_fail
        generalize P.answer _ (.broker { operation := .unmap, handle := reply.handle }) = closed
        have hcl : Event.Unclosed
            ⟨.broker { operation := .unmap, handle := reply.handle }, closed⟩ ∨
            ∀ t, Freed (t ++ [⟨.broker { operation := .unmap, handle := reply.handle }, closed⟩])
              (some (.handle reply.handle)) := by
          cases closed with
          | none => exact .inl rfl
          | some closed => exact .inr fun t => freed_broker t (.inr rfl) closed
        show Tidy s.trace (teardown P ⟨s.trace.length, mappedLen, true⟩
          (offered s.trace mappedLen ⟨.broker command, some reply⟩ ++
            [⟨.broker { operation := .unmap, handle := reply.handle }, closed⟩])).2
        rw [teardown_trace]
        apply closed_offer hfresh mappedLen _ _ hopens _ _ hcl
        · exact fun _ => trivial
        · exact ⟨by simp, by simp⟩
        · exact fun _ => trivial
      · obtain ⟨htidy, hguard⟩ := taken_offer hfresh mappedLen ⟨.broker command, some reply⟩
          (fun _ => trivial) hopens
        exact brokers_ok htidy (hguard _ rfl rfl) rfl

theorem allocDma_opens (hfresh : Fresh s.trace) (mappedLen : Nat) (direction : DmaDirection)
    (coherent : Bool) :
    let o := allocDma P size mappedLen constraints direction coherent s
    Opens s o ∧ (s.flavor = .broker → ∀ d, o.result = .ok d → d.Brokered) := by
  rw [allocDma, Eff.look_bind]
  cases s.flavor with
  | coherent | pciCoherent => exact ⟨allocIoas_opens P hfresh mappedLen direction, nofun⟩
  | broker =>
    split
    · exact (allocCoherent_opens P direction).imp_right fun h _ => h
    · exact (allocStreaming_opens P hfresh mappedLen direction).imp_right fun h _ => h

end

end

end Drv.Vfio
