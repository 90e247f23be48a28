import Drv.Base.History
import Drv.Laws.Mt7921.Port

/-!
# Replay protection

A frame is accepted only with a packet number above the one retained for
its TID, and the retained numbers of a key are set anew when a key is
installed. So within one association the numbers of the frames accepted
under a key increase as long as no installation sets them back
(`FreshInstall`): `replay_protected`. The installation does not look at
the numbers it replaces, and installing the same key again lets an old
frame through (`reinstalled_key_replays`). Whether a key comes twice is up
to the handshake, which is not modelled.
-/

namespace Drv.Mt7921

open List hiding Vector
open ClientOp

variable {τ : Type}

/-! ## The accepted frames -/

inductive RxClass where
  | pairwise
  | group
  | management
  deriving DecidableEq

structure AcceptedFrame where
  kind : RxClass
  /-- The bytes of the key that was acknowledged last for the class. -/
  key : Option Bytes
  tid : UInt8
  pn : UInt64
  deriving DecidableEq

/-- The keys that were acknowledged last, and the frames accepted in the
current association, oldest first. -/
structure ReplayHistory where
  ptk : Option Bytes
  gtk : Option Bytes
  frames : List AcceptedFrame

variable (h : ReplayHistory)

namespace ReplayHistory

/-- Protected management frames are under the pairwise key. -/
def key : RxClass → Option Bytes
  | .group => h.gtk
  | .pairwise | .management => h.ptk

def accept (kind : RxClass) (rx : ClientRxCandidate) : ReplayHistory :=
  { h with frames := h.frames ++ [⟨kind, h.key kind, rx.tid, rx.packetNumber⟩] }

/-- What an operation adds. A plain EAPOL frame is under no key. -/
def next : ClientOp → Except String Unit → ReplayHistory
  | .associate .., .ok () => { h with frames := [] }
  | .installPtk key _, .ok () => { h with ptk := some key }
  | .installGtk _ key _, .ok () => { h with gtk := some key }
  | .deliverRx rx, .ok () =>
    if rx.securityMode = 0 ∧ rx.eapol then h
    else h.accept (if rx.group then .group else .pairwise) rx
  | .deliverProtectedManagementRx rx, .ok () => h.accept .management rx
  | _, _ => h

theorem next_error (op : ClientOp) (error : String) : h.next op (.error error) = h := by
  cases op <;> rfl

end ReplayHistory

def replayHistory (steps : List (ClientStep τ)) : ReplayHistory :=
  steps.foldl (fun h step => h.next step.op step.result) ⟨none, none, []⟩

/-- Of two frames of one class, key and TID the later has the larger number. -/
def Ascends (f g : AcceptedFrame) : Prop :=
  f.kind = g.kind → f.key = g.key → f.tid = g.tid → f.pn < g.pn

/-- An installation whose counter is below a number that was accepted
under the same bytes. -/
def ClientOp.setsBack : ClientOp → AcceptedFrame → Bool
  | .installPtk key rsc, f => f.kind ≠ .group && f.key = some key && Client.maskRsc rsc < f.pn
  | .installGtk _ key rsc, f => f.kind = .group && f.key = some key && Client.maskRsc rsc < f.pn
  | _, _ => false

/-- No counter is set back. -/
def FreshInstall (op : ClientOp) (result : Except String Unit) : Prop :=
  result.isOk → ∀ f ∈ h.frames, op.setsBack f = false

instance (op : ClientOp) (result : Except String Unit) : Decidable (FreshInstall h op result) :=
  inferInstanceAs (Decidable (_ → _))

def Fresh (past : List (ClientStep τ)) (step : ClientStep τ) : Prop :=
  FreshInstall (replayHistory past) step.op step.result

instance (past : List (ClientStep τ)) (step : ClientStep τ) : Decidable (Fresh past step) :=
  inferInstanceAs (Decidable (FreshInstall _ _ _))

/-! ## The retained numbers -/

def retainedPn (counters : Vector UInt64 16) (tid : UInt8) : UInt64 := counters[tid.toNat]?.getD 0

variable {rx : ClientRxCandidate} {replayed : UInt64 → String}
  {counters counters' : Vector UInt64 16}

/-! ## The invariant -/

/-- No frame of these is above what is retained. -/
def Covers (counters : Vector UInt64 16) (frames : List AcceptedFrame)
    (these : AcceptedFrame → Prop) : Prop :=
  ∀ f ∈ frames, these f → f.pn ≤ retainedPn counters f.tid

/-- The frames under the current pairwise key. -/
def ReplayHistory.Pairwise (f : AcceptedFrame) : Prop := f.kind ≠ .group ∧ f.key = h.ptk

/-- The frames under the current group key. -/
def ReplayHistory.Group (f : AcceptedFrame) : Prop := f.kind = .group ∧ f.key = h.gtk

structure ReplaySafe (v : View) (h : ReplayHistory) : Prop where
  tids : ∀ f ∈ h.frames, f.tid < 16
  ptk : ∀ counters, v.ptkRxPn = some counters → Covers counters h.frames h.Pairwise
  gtk : ∀ id counters, v.gtkRxPn = some (id, counters) → Covers counters h.frames h.Group
  ascending : h.frames.Pairwise Ascends

variable {these : AcceptedFrame → Prop} {frames : List AcceptedFrame}

/-- An accepted frame is above those before it, and is covered itself. -/
theorem Covers.accept (hcov : Covers counters frames these) (htid : rx.tid < 16)
    (hadv : advance counters rx replayed = .ok counters') (kind : RxClass) (key : Option Bytes) :
    (∀ f ∈ frames, these f → f.tid = rx.tid → f.pn < rx.packetNumber) ∧
      Covers counters' (frames ++ [⟨kind, key, rx.tid, rx.packetNumber⟩]) these := by
  have hlt : rx.tid.toNat < 16 := UInt8.lt_iff_toNat_lt.mp htid
  simp only [advance] at hadv
  split at hadv
  · cases hadv
  next hle =>
  have hnew := UInt64.not_le.mp hle
  -- an accepted number takes the place of the retained one
  have hset : ∀ tid, retainedPn counters' tid =
      if tid = rx.tid then rx.packetNumber else retainedPn counters tid := by
    intro tid
    cases hadv
    by_cases heq : tid = rx.tid
    · simp [retainedPn, heq, hlt]
    · have hne : rx.tid.toNat ≠ tid.toNat := fun h => heq (UInt8.toNat_inj.mp h.symm)
      simp [retainedPn, heq, hne]
  refine ⟨fun f hf hthese hsame => ?_, forall_mem_concat (fun f hf hthese => ?_) fun _ => ?_⟩
  · exact UInt64.lt_of_le_of_lt (hsame ▸ hcov f hf hthese) hnew
  · -- no retained number goes down
    refine UInt64.le_trans (hcov f hf hthese) ?_
    rw [hset]
    split
    next heq => exact heq ▸ UInt64.le_of_lt hnew
    next => exact UInt64.le_refl _
  · rw [hset, if_pos rfl]
    exact UInt64.le_refl _

theorem Covers.skip (hcov : Covers counters frames these) {f : AcceptedFrame} (hf : ¬ these f) :
    Covers counters (frames ++ [f]) these :=
  forall_mem_concat hcov fun h => absurd h hf

namespace ReplaySafe

variable {v v' : View} {h : ReplayHistory}

theorem of_nil (hnil : h.frames = []) : ReplaySafe v h where
  tids := by simp [hnil]
  ptk := by simp [Covers, hnil]
  gtk := by simp [Covers, hnil]
  ascending := by simp [hnil]

section
variable (hg : ReplaySafe v h)
include hg

theorem of_same (hptk : v'.ptkRxPn = v.ptkRxPn ∨ v'.ptkRxPn = none)
    (hgtk : v'.gtkRxPn = v.gtkRxPn ∨ v'.gtkRxPn = none) : ReplaySafe v' h := by
  refine ⟨hg.tids, fun counters hctr => ?_, fun id counters hctr => ?_, hg.ascending⟩
  · rcases hptk with hptk | hptk
    · exact hg.ptk counters (hptk ▸ hctr)
    · cases hptk.symm.trans hctr
  · rcases hgtk with hgtk | hgtk
    · exact hg.gtk id counters (hgtk ▸ hctr)
    · cases hgtk.symm.trans hctr

theorem of_closes (hcl : Closes v v') : ReplaySafe v' h := hg.of_same hcl.ptkRxPn hcl.gtkRxPn

theorem accept_pairwise (hctr : v.ptkRxPn = some counters) (htid : rx.tid < 16)
    (hadv : advance counters rx replayed = .ok counters') {kind : RxClass} (hkind : kind ≠ .group) :
    ReplaySafe { v with ptkRxPn := some counters' } (h.accept kind rx) := by
  have hkey : h.key kind = h.ptk := by
    cases kind with
    | group => exact absurd rfl hkind
    | pairwise | management => rfl
  obtain ⟨habove, hcov⟩ := (hg.ptk counters hctr).accept htid hadv kind (h.key kind)
  refine ⟨forall_mem_concat hg.tids htid, ?_, fun id counters hctr => ?_, ?_⟩
  · rintro _ ⟨⟩
    exact hcov
  · exact (hg.gtk id counters hctr).skip fun hgroup => hkind hgroup.1
  · refine pairwise_append.mpr ⟨hg.ascending, pairwise_singleton .., ?_⟩
    intro f hf g hmem hclass hsame htids
    obtain rfl := mem_singleton.mp hmem
    exact habove f hf ⟨hclass ▸ hkind, hsame.trans hkey⟩ htids

theorem accept_group {id : UInt8} (hctr : v.gtkRxPn = some (id, counters)) (htid : rx.tid < 16)
    (hadv : advance counters rx replayed = .ok counters') :
    ReplaySafe { v with gtkRxPn := some (id, counters') } (h.accept .group rx) := by
  obtain ⟨habove, hcov⟩ := (hg.gtk id counters hctr).accept htid hadv .group h.gtk
  refine ⟨forall_mem_concat hg.tids htid, fun counters hctr => ?_, ?_, ?_⟩
  · exact (hg.ptk counters hctr).skip fun hpair => hpair.1 rfl
  · rintro _ _ ⟨⟩
    exact hcov
  · refine pairwise_append.mpr ⟨hg.ascending, pairwise_singleton .., ?_⟩
    intro f hf g hmem hclass hsame htids
    obtain rfl := mem_singleton.mp hmem
    exact habove f hf ⟨hclass, hsame⟩ htids

theorem covers_replicate {rsc : UInt64}
    (hfresh : ∀ f ∈ h.frames, these f → f.pn ≤ Client.maskRsc rsc) :
    Covers (Vector.replicate 16 (Client.maskRsc rsc)) h.frames these := by
  intro f hf hthese
  have hlt : f.tid.toNat < 16 := UInt8.lt_iff_toNat_lt.mp (hg.tids f hf)
  simpa [retainedPn, hlt] using hfresh f hf hthese

end

end ReplaySafe

theorem Turned.replaySafe {v v' : View} {h : ReplayHistory} {op : ClientOp}
    {result : Except String Unit} (hturn : Turned v op result v')
    (hfresh : FreshInstall h op result) (hg : ReplaySafe v h) :
    ReplaySafe v' (h.next op result) := by
  cases hturn with
  | quiet hop =>
    have hsame : h.next op result = h := by cases op <;> first | rfl | exact hop.elim
    exact hsame.symm ▸ hg
  | refused => exact (h.next_error op _).symm ▸ hg
  | stopped hcl => exact (h.next_error op _).symm ▸ hg.of_closes hcl
  | unassociated | igtk | opened | published | completed => exact hg.of_same (.inl rfl) (.inl rfl)
  | associated => exact .of_nil rfl
  | @ptk key rsc =>
    refine ⟨hg.tids, ?_, hg.gtk, hg.ascending⟩
    rintro _ ⟨⟩
    refine hg.covers_replicate fun f hf hthese => ?_
    have hback := hfresh rfl f hf
    have hkey : f.key = some key := hthese.2
    simpa [setsBack, hthese.1, hkey] using hback
  | @gtk keyId key rsc =>
    refine ⟨hg.tids, hg.ptk, ?_, hg.ascending⟩
    rintro _ _ ⟨⟩
    refine hg.covers_replicate fun f hf hthese => ?_
    have hback := hfresh rfl f hf
    have hkey : f.key = some key := hthese.2
    simpa [setsBack, hthese.1, hkey] using hback
  | closed hcl | torn hcl => exact hg.of_closes hcl
  | stayed => exact hg
  | plain hplain =>
    rw [ReplayHistory.next, if_pos hplain]
    exact hg
  | @pairwise rx _ _ _ hprot hgroup _ hctr htid hadv =>
    have hkeyed : ¬ (rx.securityMode = 0 ∧ rx.eapol = true) := by simp [hprot]
    rw [ReplayHistory.next, if_neg hkeyed, hgroup]
    exact hg.accept_pairwise hctr htid hadv (by decide)
  | @group rx _ _ _ hprot hgroup _ hctr htid hadv =>
    have hkeyed : ¬ (rx.securityMode = 0 ∧ rx.eapol = true) := by simp [hprot]
    rw [ReplayHistory.next, if_neg hkeyed, hgroup]
    exact hg.accept_group hctr htid hadv
  | management hctr htid hadv => exact hg.accept_pairwise hctr htid hadv (by decide)

/-! ## Runs -/

theorem run_ascending (L : ClientLink τ) (ops : List ClientOp) (s : ClientSession τ)
    (past : List (ClientStep τ)) (hs : ReplaySafe s.view (replayHistory past))
    (h : JustifiedAfter Fresh past (run L s ops)) {done rest : List (ClientStep τ)}
    (hrun : run L s ops = done ++ rest) :
    (replayHistory (past ++ done)).frames.Pairwise Ascends := by
  induction ops generalizing s past done with
  | nil =>
    obtain ⟨rfl, -⟩ := append_eq_nil_iff.mp hrun.symm
    rw [append_nil]
    exact hs.ascending
  | cons op ops ih =>
    cases done with
    | nil =>
      rw [append_nil]
      exact hs.ascending
    | cons =>
      obtain ⟨rfl, hr⟩ := cons.inj hrun
      have hnx : ReplaySafe (op.exec L s).state.view
          (replayHistory (past ++ [⟨s, op, (op.exec L s).result, (op.exec L s).state⟩])) := by
        rw [replayHistory, foldl_append]
        exact (turned L op s).replaySafe h.1 hs
      rw [append_cons]
      exact ih _ _ hnx h.2 hr

/-- In a run whose installations do not set a counter back, the frames that
were accepted in one association under one key ascend at every point. -/
theorem replay_protected (L : ClientLink τ) (t : τ) (ops : List ClientOp)
    (h : Justified Fresh (run L ⟨.default, t⟩ ops)) {done rest : List (ClientStep τ)}
    (hrun : run L ⟨.default, t⟩ ops = done ++ rest) :
    (replayHistory done).frames.Pairwise Ascends :=
  run_ascending L ops _ [] (.of_nil rfl) h hrun

/-- A pairwise frame with a packet number of one byte. -/
def exampleRx (generation : ClientDataGeneration) (pn : UInt8) : ClientRxCandidate where
  generation := generation
  eapol := false
  wcid := 1
  tid := 0
  group := false
  keyId := 0
  securityMode := 4
  cm := false
  clm := false
  icvError := false
  micError := false
  fcsError := false
  pn := #v[0, 0, 0, 0, 0, pn]

/-- An association whose port is open. -/
def receiving : List ClientOp := associating ++ keying ++ [.setControlledPort true]

/-- Receive a frame, install the pairwise key again, receive another frame. -/
def reinstalling (rsc : UInt64) (pn : UInt8) : List ClientOp :=
  receiving ++ [.deliverRx (exampleRx (.authorized 2) 5), .installPtk (replicate 16 7) rsc,
    .deliverRx (exampleRx (.authorized 2) pn)]

theorem replay_protected_reinstalling :
    Justified Fresh (run accepting ⟨.default, ()⟩ (reinstalling 5 6)) ∧
      (replayHistory (run accepting ⟨.default, ()⟩ (reinstalling 5 6))).frames.Pairwise
        Ascends := by
  have h : Justified Fresh (run accepting ⟨.default, ()⟩ (reinstalling 5 6)) := by
    decide +kernel
  exact ⟨h, replay_protected accepting () (reinstalling 5 6) h (append_nil _).symm⟩

/-- The same frame is accepted twice under one key. -/
theorem reinstalled_key_replays :
    ¬ (replayHistory (run accepting ⟨.default, ()⟩ (reinstalling 0 5))).frames.Pairwise
      Ascends := by
  have hframes : (replayHistory (run accepting ⟨.default, ()⟩ (reinstalling 0 5))).frames =
        [⟨.pairwise, some (replicate 16 7), 0, 5⟩,
          ⟨.pairwise, some (replicate 16 7), 0, 5⟩] := by decide +kernel
  rw [hframes]
  simp [Ascends]

end Drv.Mt7921
