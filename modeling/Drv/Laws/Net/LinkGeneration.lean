import Drv.Net.LinkGeneration

/-!
# Receiver, supervisor and provider agree on the Ethernet generation

A generation is shared as long as a request about a link that is up is
acknowledged. `Heard` says when a request leaves a supervisor in step with
its provider: one that stays unanswered ends the provider and the
supervisor's link, of which the receiver is not told. The packets that pass
through a frame socket are not followed.
-/

namespace Drv.Net.LinkGeneration

open NetworkServiceSupervisor ProviderLink World

variable {l : ProviderLink}

theorem ProviderLink.control_attach {generation : Nat} (frame : Frame)
    (hnew : l.lastLinkGeneration < generation) :
    l.control (.attach generation frame) =
      (.applied, ⟨some frame, some generation, generation⟩) := by
  simp [control, valid, hnew]

theorem ProviderLink.control_detach {generation : Nat}
    (hact : l.activeLinkGeneration = some generation) :
    l.control (.detach generation) =
      (.applied, { l with ethernet := none, activeLinkGeneration := none }) := by
  simp [control, valid, hact]

theorem ProviderLink.control_rejected {request : Request} (h : (l.control request).1 = .rejected) :
    (l.control request).2 = l := by
  unfold control at h ⊢
  split
  · rfl
  · cases request <;> simp_all

/-! ## The supervisor -/

namespace NetworkServiceSupervisor

variable {env : Surroundings} {s : NetworkServiceSupervisor} {generation : Nat} {frame : Frame}

/-- A provider that runs has the link that the supervisor keeps. -/
def Carries (s : NetworkServiceSupervisor) : Prop :=
  ∀ p, s.kernelProcess = some p → p.running → ∀ g, s.kernelLink.generation = some g →
    p.link.activeLinkGeneration = some g

/-- The provider is there and acknowledges, or the request is not sent;
where there is none, the one that is started applies it. -/
def Heard (s : NetworkServiceSupervisor) : Conduct → Prop
  | .answers => ∀ p, s.kernelProcess = some p → p.running
  | .refuses => ∃ p, s.kernelProcess = some p ∧ p.running
  | .misses _ _ => False
  | .unsent _ => s.kernelProcess.isSome

theorem carries_of_none (h : s.kernelProcess = none) : s.Carries := by
  intro p hp
  rw [h] at hp
  cases hp

theorem carries_of_offline (h : s.kernelLink = .offline) : s.Carries := by
  intro p hp hrunning g hg
  rw [h] at hg
  cases hg

section
variable (hclean : env.cleanup = .ok ())
include hclean

theorem terminateKernelProcess_eq :
    s.terminateKernelProcess env = (.ok (), { s with kernelProcess := none }) := by
  unfold terminateKernelProcess
  rw [hclean]
  obtain ⟨mac, next, process, link⟩ := s
  cases process <;> rfl

theorem failClosed_eq {α : Type} (error : String) :
    (s.failClosed env error : Except String α × _) =
      (.error error, { s with kernelProcess := none, kernelLink := .offline }) := by
  unfold failClosed
  rw [terminateKernelProcess_eq hclean]

theorem startProvider_spec (hn : s.kernelProcess = none) :
    let r := s.startProvider env
    r.2.kernelLink = s.kernelLink ∧ ((∃ e, r.1 = .error e ∧ r.2.kernelProcess = none) ∨
        ∃ p, r.1 = .ok p ∧ r.2.kernelProcess = some p ∧ p.running ∧ p.link = .start) := by
  simp only [startProvider, hn, Option.isSome_none]
  cases env.spawn with
  | error e => exact ⟨rfl, .inl ⟨e, rfl, hn⟩⟩
  | ok =>
    by_cases hl : s.nextProviderGeneration + 1 ≥ 2 ^ 64
    · rw [if_pos hl]
      exact ⟨rfl, .inl ⟨_, rfl, hn⟩⟩
    · simp only [hl, if_false, Bool.false_eq_true]
      cases env.bootstrap with
      | ok => exact ⟨rfl, .inr ⟨_, rfl, rfl, rfl, rfl⟩⟩
      | error e =>
        rw [terminateKernelProcess_eq hclean]
        exact ⟨rfl, .inl ⟨e, rfl, rfl⟩⟩

/-- The four ways a request to a process ends. -/
inductive Exchanged (env : Surroundings) (s : NetworkServiceSupervisor) (process : KernelProcess)
    (request : Request) (link : KernelLink) : Supervised Nat → Prop
  | unsent (e : String) (h : env.conduct = .unsent e) : Exchanged env s process request link
      (.error e, s)
  | applied (h : env.conduct = .answers) (hrunning : process.running)
      (happlied : (process.link.control request).1 = .applied) :
    Exchanged env s process request link (.ok process.generation, { s with
      kernelProcess := some { process with link := (process.link.control request).2 }
      kernelLink := link })
  | rejected (e : String) (hrunning : process.running)
      (h : env.conduct = .refuses ∨
        env.conduct = .answers ∧ (process.link.control request).1 = .rejected) :
    Exchanged env s process request link (.error e, { s with kernelProcess := some process })
  | lost (e : String) (hsent : ∀ text, env.conduct ≠ .unsent text)
      (h : process.running → ∃ taken text, env.conduct = .misses taken text) :
    Exchanged env s process request link
      (.error e, { s with kernelProcess := none, kernelLink := .offline })

theorem exchange_spec (process : KernelProcess) (request : Request) (link : KernelLink)
    (text : String) :
    Exchanged env s process request link (s.exchange env process request link text) := by
  unfold exchange KernelProcess.ask
  cases hcond : env.conduct with
  | unsent error => exact .unsent error hcond
  | misses taken error =>
    simp only [failClosed_eq hclean]
    exact .lost error (by simp [hcond]) fun _ => ⟨taken, error, hcond⟩
  | refuses =>
    by_cases hrunning : process.running
    · simp only [hrunning, if_true]
      exact .rejected text hrunning (.inl hcond)
    · simp only [hrunning, if_false, Bool.false_eq_true, failClosed_eq hclean]
      exact .lost _ (by simp [hcond]) fun h => absurd h hrunning
  | answers =>
    by_cases hrunning : process.running
    · cases hstat : process.link.control request with
      | mk status after =>
        have hpost : (process.link.control request).2 = after := by rw [hstat]
        have hfst : (process.link.control request).1 = status := by rw [hstat]
        simp only [if_pos hrunning]
        cases status with
        | applied =>
          have happlied : Exchanged env s process request link _ := .applied hcond hrunning hfst
          rwa [hpost] at happlied
        | rejected =>
          rw [← hpost, control_rejected hfst]
          exact .rejected text hrunning (.inr ⟨hcond, hfst⟩)
    · simp only [hrunning, if_false, Bool.false_eq_true, failClosed_eq hclean]
      exact .lost _ (by simp [hcond]) fun h => absurd h hrunning

end

/-- A supervisor keeps its link or has the new one, and its provider has it. -/
def Settled (s : NetworkServiceSupervisor) (generation : Nat) (r : Supervised Nat) : Prop :=
  r.2.Carries ∧ match r.1 with
    | .ok _ => r.2.kernelLink.generation = some generation
    | .error _ => r.2.kernelLink.generation = s.kernelLink.generation

theorem Exchanged.settled {process : KernelProcess} {r : Except String Nat × _}
    (h : Exchanged env s process (.attach generation frame) (.attached generation frame) r)
    (hprocess : s.kernelProcess = some process) (hk : ¬ (env.conduct = .answers ∧ process.running ∧
      (process.link.control (.attach generation frame)).1 = .applied) → s.Carries)
    (hlost : (process.running → ∃ taken text, env.conduct = .misses taken text) →
      (∀ text, env.conduct ≠ .unsent text) → s.kernelLink = .offline) : s.Settled generation r := by
  cases h with
  | unsent e he => exact ⟨hk (by simp [he]), rfl⟩
  | applied hans hrunning happlied =>
    refine ⟨fun p hp _ g hg => ?_, rfl⟩
    cases hp
    cases hg
    by_cases hnew : process.link.lastLinkGeneration < generation
    · simp [control_attach frame hnew]
    · simp [ProviderLink.control, ProviderLink.valid, hnew] at happlied
  | rejected =>
    rw [← hprocess]
    exact ⟨hk fun ⟨hcond, _, happlied⟩ => by simp_all, rfl⟩
  | lost e hsent hmisses =>
    refine ⟨carries_of_none rfl, ?_⟩
    show none = s.kernelLink.generation
    rw [hlost hmisses hsent]
    rfl

/-- A provider that was just started applies the attach; with the link up, it is heard. -/
theorem exchange_started {p : KernelProcess} (frame : Frame) (text : String)
    (hclean : env.cleanup = .ok ()) (hprocess : s.kernelProcess = some p) (hrunning : p.running)
    (hstart : p.link = .start) (hz : generation ≠ 0)
    (hans : s.kernelLink ≠ .offline → env.conduct = .answers) :
    s.Settled generation
      (s.exchange env p (.attach generation frame) (.attached generation frame) text) := by
  have happlied : (p.link.control (.attach generation frame)).1 = .applied := by
    rw [hstart, control_attach frame (Nat.pos_of_ne_zero hz)]
  refine (exchange_spec hclean p _ _ text).settled hprocess (fun hk => ?_) fun hlost _ => ?_
  · by_cases honline : s.kernelLink = .offline
    · exact carries_of_offline honline
    · exact absurd ⟨hans honline, hrunning, happlied⟩ hk
  · by_contra honline
    obtain ⟨taken, text, hmisses⟩ := hlost hrunning
    rw [hans honline] at hmisses
    cases hmisses

theorem attachGeneration_spec (generation : Nat) (frame : Frame) (hclean : env.cleanup = .ok ())
    (hcarry : s.Carries) (hheard : s.kernelLink ≠ .offline → s.Heard env.conduct) :
    s.Settled generation (s.attachGeneration env generation frame) := by
  unfold attachGeneration
  by_cases hz : generation = 0
  · rw [if_pos hz]
    exact ⟨hcarry, rfl⟩
  rw [if_neg hz]
  cases env.validate frame with
  | error => exact ⟨hcarry, rfl⟩
  | ok =>
    cases hprocess : s.kernelProcess with
    | some process =>
      simp only [provider, hprocess]
      apply (exchange_spec hclean process _ _ _).settled hprocess fun _ => hcarry
      intro hlost hsent
      by_contra honline
      cases hcond : env.conduct <;> simp_all [Heard]
    | none =>
      simp only [provider, hprocess]
      obtain ⟨hlink, ⟨e, he, hn⟩ | ⟨p, hp, hsome, hrunning, hstart⟩⟩ :=
        startProvider_spec hclean hprocess
      · rw [← Prod.eta (s.startProvider env), he]
        exact ⟨carries_of_none hn, congrArg _ hlink⟩
      · rw [← Prod.eta (s.startProvider env), hp, Settled, ← hlink]
        refine exchange_started _ _ hclean hsome hrunning hstart hz fun honline => ?_
        rw [hlink] at honline
        cases hcond : env.conduct <;> simp_all [Heard]

/-- A revocation takes the link away, or the supervisor keeps it: there is
no provider, or it refuses, or it was not asked. -/
inductive Revoked (env : Surroundings) (s : NetworkServiceSupervisor) :
    Supervised Unit → Prop
  | kept (e : String)
      (h : s.kernelProcess = none ∨ env.conduct = .refuses ∨ ∃ text, env.conduct = .unsent text) :
    Revoked env s (.error e, s)
  | done {s' : NetworkServiceSupervisor} (hlink : s'.kernelLink = .offline) :
    Revoked env s (.ok (), s')
  | lost (e : String) {s' : NetworkServiceSupervisor} (hlink : s'.kernelLink = .offline)
      {p : KernelProcess} (hprocess : s.kernelProcess = some p)
      (h : p.running → ∃ taken text, env.conduct = .misses taken text)
      (hsent : ∀ text, env.conduct ≠ .unsent text) : Revoked env s (.error e, s')

theorem revokeGeneration_spec (hclean : env.cleanup = .ok ()) (hcarry : s.Carries)
    (hlink : s.kernelLink.generation = some generation) :
    Revoked env s (s.revokeGeneration env generation) := by
  unfold revokeGeneration
  cases hkern : s.kernelLink with
  | offline =>
    rw [hkern] at hlink
    cases hlink
  | attached =>
    rw [hkern] at hlink
    cases hlink
    simp only [ne_eq, not_true_eq_false, if_false]
    cases hprocess : s.kernelProcess with
    | none => exact .kept _ (.inl hprocess)
    | some process =>
      have hended := exchange_spec (s := s) hclean process (.detach generation) .offline
        "network provider rejected Ethernet revocation"
      dsimp only
      generalize s.exchange env process _ _ _ = r at hended ⊢
      cases hended with
      | unsent e he => exact .kept e (.inr (.inr ⟨e, he⟩))
      | applied => exact .done rfl
      | lost e hsent hmisses => exact .lost e rfl hprocess hmisses hsent
      | rejected e hrunning hrej =>
        have hact := hcarry process hprocess hrunning generation (by rw [hkern]; rfl)
        rw [control_detach hact] at hrej
        rw [← hprocess]
        exact .kept e (.inr (.inl (by simpa using hrej)))

end NetworkServiceSupervisor

/-! ## Runs -/

inductive LinkOp where
  | receive (delivery : Delivery) (env : Surroundings)
  | restart (env : Surroundings)
  | pollExit (env : Surroundings)
  | terminate (env : Surroundings)
  | exits

/-- Where a process is ended, it ends. -/
def LinkOp.CleansUp : LinkOp → Prop
  | .receive _ env | .restart env | .pollExit env | .terminate env => env.cleanup = .ok ()
  | .exits => True

namespace World

def step (w : World) : LinkOp → World
  | .receive delivery env => (w.receive env delivery).2
  | .restart env => { w with supervisor := (w.supervisor.restartGeneration env).2 }
  | .pollExit env => { w with supervisor := (w.supervisor.pollExit env).2 }
  | .terminate env => { w with supervisor := (w.supervisor.terminate env).2 }
  | .exits => { w with supervisor := { w.supervisor with
      kernelProcess := w.supervisor.kernelProcess.map ({ · with running := false }) } }

/-- What the provider may do while a generation is active. -/
def Heard (w : World) : LinkOp → Prop
  | .receive (.record m _) env =>
    match m.kind with
    | .install => w.supervisor.Heard env.conduct
    | .revoke => w.supervisor.kernelProcess = none ∨ w.supervisor.Heard env.conduct
  | .receive .hangup env =>
    w.supervisor.kernelProcess.isSome ∧ env.conduct ≠ .refuses ∧
      ∀ text, env.conduct ≠ .unsent text
  | .restart env =>
    env.conduct = .answers ∧
      ∀ g frame, w.supervisor.kernelLink = .attached g frame → env.validate frame = .ok ()
  | .terminate _ => False
  | _ => True

def run (w : World) (ops : List LinkOp) : World := ops.foldl step w

def HeardRun : World → List LinkOp → Prop
  | _, [] => True
  | w, op :: ops => op.CleansUp ∧ (w.receiver.active ≠ none → w.Heard op) ∧ (w.step op).HeardRun ops

structure Agrees (w : World) : Prop where
  link : w.receiver.active.map (·.ethernet) = w.supervisor.kernelLink.generation
  nonzero : ∀ g, w.supervisor.kernelLink.generation = some g → g ≠ 0
  carries : w.supervisor.Carries

variable {w : World} {env : Surroundings}

theorem agrees_of_offline (hact : w.receiver.active = none)
    (hlink : w.supervisor.kernelLink = .offline) : w.Agrees := by
  refine ⟨by rw [hact, hlink]; rfl, fun g hg => ?_, carries_of_offline hlink⟩
  rw [hlink] at hg
  cases hg

section
variable (h : w.Agrees)
include h

theorem Agrees.active (hlink : w.supervisor.kernelLink ≠ .offline) : w.receiver.active ≠ none := by
  intro hact
  have hn := h.link
  rw [hact] at hn
  cases hkern : w.supervisor.kernelLink with
  | offline => exact hlink hkern
  | attached =>
    rw [hkern] at hn
    cases hn

theorem Agrees.settled {w' : World} (hact : w'.receiver.active = w.receiver.active)
    (hcarry : w'.supervisor.Carries)
    (hlink : w'.supervisor.kernelLink.generation = w.supervisor.kernelLink.generation) :
    w'.Agrees :=
  ⟨by rw [hact, hlink, h.link], fun g hg => h.nonzero g (hlink ▸ hg), hcarry⟩

section
variable (hclean : env.cleanup = .ok ())
include hclean

theorem Agrees.install (hheard : w.receiver.active ≠ none → w.supervisor.Heard env.conduct)
    (m : LifecycleMessage) (descriptors : List Frame) : (w.install env m descriptors).2.Agrees := by
  unfold World.install
  split
  next frame =>
    split
    · exact h
    next hmono =>
    split
    · exact h
    · have hsett := attachGeneration_spec m.ethernetGeneration frame hclean h.carries
        fun hlink => hheard (h.active hlink)
      generalize w.supervisor.attachGeneration env _ _ = r at hsett ⊢
      obtain ⟨result, s'⟩ := r
      obtain ⟨hcarry, hlink⟩ := hsett
      cases result with
      | error => exact h.settled rfl hcarry hlink
      | ok =>
        have hnew : s'.kernelLink.generation = some m.ethernetGeneration := hlink
        refine ⟨hnew.symm, fun g hg => ?_, hcarry⟩
        rw [show s'.kernelLink.generation = some g from hg] at hnew
        cases hnew
        simp [nonmonotonic] at hmono
        exact hmono.1.2
  · exact h

theorem Agrees.revoke (hheard : w.receiver.active ≠ none →
      w.supervisor.kernelProcess = none ∨ w.supervisor.Heard env.conduct) (m : LifecycleMessage)
    (descriptors : List Frame) : (w.revoke env m descriptors).2.Agrees := by
  unfold World.revoke
  split
  · exact h
  · cases hact : w.receiver.active with
    | none => exact h
    | some =>
      dsimp only
      split
      · exact h
      next hmatches =>
      have hlink : w.supervisor.kernelLink.generation = some m.ethernetGeneration := by
        rw [← h.link, hact]
        simp_all
      have hrev := revokeGeneration_spec hclean h.carries hlink
      generalize w.supervisor.revokeGeneration env _ = r at hrev ⊢
      cases hrev with
      | kept => exact h
      | done hoffline => exact agrees_of_offline rfl hoffline
      | lost =>
        -- nothing was lost while it was heard
        cases hcond : env.conduct <;> simp_all [NetworkServiceSupervisor.Heard]

theorem Agrees.hangup (hheard : w.receiver.active ≠ none → w.Heard (.receive .hangup env)) :
    (w.hangup env).2.Agrees := by
  unfold World.hangup
  cases hact : w.receiver.active with
  | none => exact { h with }
  | some active =>
    have hlink : w.supervisor.kernelLink.generation = some active.ethernet := by
      rw [← h.link, hact]
      rfl
    have hrev := revokeGeneration_spec hclean h.carries hlink
    dsimp only
    generalize w.supervisor.revokeGeneration env _ = r at hrev ⊢
    cases hrev with
    | kept => simp_all [Heard]
    | done hoffline | lost e hoffline => exact agrees_of_offline rfl hoffline

theorem Agrees.receive {delivery : Delivery}
    (hheard : w.receiver.active ≠ none → w.Heard (.receive delivery env)) :
    (w.receive env delivery).2.Agrees := by
  unfold World.receive
  split
  · exact h
  · cases delivery with
    | wouldBlock => exact h
    | fault => exact h
    | hangup => exact h.hangup hclean hheard
    | record m descriptors =>
      dsimp only
      split
      · exact h
      · simp only [Heard] at hheard
        cases hkind : m.kind with
        | install =>
          rw [hkind] at hheard
          exact h.install hclean hheard m descriptors
        | revoke =>
          rw [hkind] at hheard
          exact h.revoke hclean hheard m descriptors

theorem Agrees.restart (hheard : w.receiver.active ≠ none → w.Heard (.restart env)) :
    (w.step (.restart env)).Agrees := by
  simp only [step, restartGeneration]
  cases hprocess : w.supervisor.kernelProcess with
  | some => exact h
  | none =>
    obtain ⟨hlink, hstar⟩ := startProvider_spec hclean hprocess
    generalize w.supervisor.startProvider env = r at hlink hstar ⊢
    obtain ⟨result, s⟩ := r
    cases hkern : w.supervisor.kernelLink with
    | offline =>
      have hact : w.receiver.active = none :=
        Option.map_eq_none_iff.mp (h.link.trans (by rw [hkern]; rfl))
      obtain ⟨e, rfl, -⟩ | ⟨p, rfl, -⟩ := hstar <;>
        exact agrees_of_offline hact (hlink.trans hkern)
    | attached g frame =>
      cases env.duplicate with
      | error => exact h
      | ok =>
        obtain ⟨e, rfl, hn⟩ | ⟨p, rfl, hsome, hrunning, hstart⟩ := hstar
        · exact h.settled rfl (carries_of_none hn) (congrArg _ hlink)
        · have hz : g ≠ 0 := h.nonzero g (by rw [hkern]; rfl)
          obtain ⟨hans, hval⟩ := hheard (h.active (by simp [hkern]))
          have hsett := exchange_started frame "network provider rejected Ethernet generation"
            hclean hsome hrunning hstart hz fun _ => hans
          dsimp only at hsome hlink
          simp only [Option.isSome_none, Bool.false_eq_true, if_false, attachGeneration, hz,
            hval g frame hkern, provider, hsome]
          generalize s.exchange env p _ _ _ = r at hsett ⊢
          obtain ⟨result, s'⟩ := r
          obtain ⟨hcarry, hnew⟩ := hsett
          refine h.settled rfl hcarry ?_
          cases result with
          | ok => exact hnew.trans (by rw [hkern]; rfl)
          | error => exact hnew.trans (congrArg _ hlink)

end

theorem Agrees.step {op : LinkOp} (hclean : op.CleansUp)
    (hheard : w.receiver.active ≠ none → w.Heard op) : (w.step op).Agrees := by
  cases op with
  | receive => exact h.receive hclean hheard
  | restart => exact h.restart hclean hheard
  | pollExit =>
    simp only [World.step, pollExit]
    split
    · exact h
    · split
      · exact h
      · split
        · exact h
        · exact ⟨h.link, h.nonzero, carries_of_none rfl⟩
  | terminate =>
    have hact : w.receiver.active = none := by
      by_contra hact
      exact hheard hact
    simp only [World.step, terminate, terminateKernelProcess_eq hclean]
    exact agrees_of_offline hact rfl
  | exits =>
    refine ⟨h.link, h.nonzero, fun p hp hrunning => ?_⟩
    obtain ⟨q, hq, rfl⟩ := Option.map_eq_some_iff.mp hp
    cases hrunning

theorem Agrees.run {ops : List LinkOp} (hops : w.HeardRun ops) : (w.run ops).Agrees := by
  induction ops generalizing w with
  | nil => exact h
  | cons op ops ih => exact ih (h.step hops.1 hops.2.1) hops.2.2

end

end World

end Drv.Net.LinkGeneration
