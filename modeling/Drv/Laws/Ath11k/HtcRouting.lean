import Drv.Laws.Ath11k.Htc

/-!
# Routing to endpoints

The router looks a received payload's endpoint up by the service of the
endpoint that the header names. It finds that endpoint again if the
endpoint is connected and the first for its service; a payload for an
unused endpoint goes to the first unused one, and a payload for the second
endpoint of a service to the first.

For frames that name such endpoints, what was read from an endpoint and
what its queue holds are at every moment the payloads that were addressed
to it, in order.
-/

namespace Drv.Ath11k

open List Function HtcRouter ServiceId BoundService

inductive SetupOp where
  | connectService (service : ServiceId) (response : Bytes)
  | waitTarget (bytes : Bytes)

namespace Htc

def setupStep (h : Htc) : SetupOp → Htc
  | .connectService service response => (connectService service response h).state
  | .waitTarget bytes => (waitTarget bytes h).state

def setup (h : Htc) (ops : List SetupOp) : Htc := ops.foldl setupStep h

variable {h : Htc}

theorem Indexed.setup (hi : h.Indexed) (ops : List SetupOp) : (h.setup ops).Indexed := by
  induction ops generalizing h with
  | nil => exact hi
  | cons op ops ih =>
    refine ih ?_
    cases op with
    | connectService service response =>
      exact ((connectService_connects service response).conseq (fun _ hs => hs)
        (fun _ _ hconn => hconn.indexed hi) fun _ _ hs => hs ▸ hi).state rfl
    | waitTarget bytes =>
      have hsame := (waitTarget_endpoints (h := h) bytes).state rfl
      exact ⟨hsame ▸ hi.length, hsame ▸ hi.endpoint⟩

def services (h : Htc) : List ServiceId := h.endpoints.map Endpoint.service

/-- A service was connected at the endpoint. -/
def Connected (h : Htc) (endpoint : Nat) : Prop :=
  ∃ service, h.services[endpoint]? = some service ∧ service ≠ reserved

/-- The endpoint is the first for its service. -/
def First (h : Htc) (endpoint : Nat) : Prop :=
  ∀ earlier, earlier < endpoint → h.services[earlier]? ≠ h.services[endpoint]?

/-- The header announces a payload that the frame has. -/
def Carries (frame : Bytes) (header : HtcHeader) : Prop :=
  HtcHeader.decode frame = .ok header ∧ header.endpoint.toNat < htcEndpointCount ∧
    htcHeaderLen + header.payloadLen.toNat ≤ frame.length ∧
    header.trailerLen < header.payloadLen.toNat

/-- A payload is for a connected endpoint, the first for its service. -/
def Routable (h : Htc) (frame : Bytes) : Prop :=
  ∀ header, Carries frame header →
    h.Connected header.endpoint.toNat ∧ h.First header.endpoint.toNat

end Htc

/-! ## The router and what arrives -/

/-- A router, with the payloads addressed to each endpoint and those read
from it. -/
structure RouterWorld where
  core : HtcRouterCore
  arrived : Nat → List Bytes
  read : Nat → List Bytes

inductive RouterOp where
  | serviceReceive (io : Nat → Except CeError (Option Bytes)) (budget : Nat)
  | sendPayload (service : ServiceId) (payload : Bytes) (accepted : Except CeError Unit)
  | receivePayload (endpoint : UInt8)

/-- Every frame that the packet I/O gives can be routed. -/
def RouterOp.Routable (h : Htc) : RouterOp → Prop
  | .serviceReceive io _ => ∀ k frame, io k = .ok (some frame) → h.Routable frame
  | _ => True

namespace RouterWorld

open Htc

def new (htc : Htc) : RouterWorld := ⟨HtcRouter.new htc, fun _ => [], fun _ => []⟩

section
variable (w : RouterWorld)

/-- The payload of a frame, for the endpoint that its header names. -/
def arrive (frame : Bytes) : Nat → List Bytes :=
  match HtcHeader.decode frame with
  | .ok header =>
    if header.trailerLen < header.payloadLen.toNat then
      update w.arrived header.endpoint.toNat
        (w.arrived header.endpoint.toNat ++ [framePayload header frame])
    else w.arrived
  | .error _ => w.arrived

/-- One round of the service. -/
def round (frame : Except CeError (Option Bytes)) : RouterWorld :=
  let o := serviceFrame frame w.core
  match o.result, frame with
  | .ok _, .ok (some frame) => { w with core := o.state, arrived := w.arrive frame }
  | _, _ => { w with core := o.state }

def serve (w : RouterWorld) (io : Nat → Except CeError (Option Bytes)) : Nat → RouterWorld
  | 0 => w
  | budget + 1 =>
    match (serviceFrame (io budget) w.core).result with
    | .ok true => (w.round (io budget)).serve io budget
    | _ => w.round (io budget)

def step : RouterOp → RouterWorld
  | .serviceReceive io budget => w.serve io budget
  | .sendPayload service payload accepted =>
    { w with core := (sendPayload service payload accepted w.core).state }
  | .receivePayload endpoint =>
    let o := receivePayload endpoint w.core
    match o.result with
    | .ok (some payload) =>
      { w with
        core := o.state
        read := update w.read endpoint.toNat (w.read endpoint.toNat ++ [payload]) }
    | _ => { w with core := o.state }

def run (ops : List RouterOp) : RouterWorld := ops.foldl step w

theorem round_core (frame : Except CeError (Option Bytes)) :
    (w.round frame).core = (serviceFrame frame w.core).state := by
  unfold round
  simp only
  split <;> rfl

theorem serve_core (io : Nat → Except CeError (Option Bytes)) (budget : Nat) :
    (w.serve io budget).core = (serviceReceiveBounded io budget w.core).state := by
  induction budget generalizing w with
  | zero => rfl
  | succ budget ih =>
    unfold serve serviceReceiveBounded
    rw [Eff.bind_apply]
    cases hres : (serviceFrame (io budget) w.core).result with
    | error => exact round_core w (io budget)
    | ok more =>
      cases more with
      | false => exact round_core w (io budget)
      | true =>
        simp only [if_true]
        rw [ih, round_core, Eff.bind_pure_apply]

end

/-- What the router has is what arrived, for the endpoints set up. -/
structure Routed (h : Htc) (w : RouterWorld) : Prop where
  indexed : w.core.htc.Indexed
  services : w.core.htc.services = h.services
  length : w.core.endpointQueues.length = htcEndpointCount
  queues : ∀ i : Nat, w.read i ++ w.core.endpointQueues[i]?.getD [] = w.arrived i
  connected : ∀ i, w.arrived i ≠ [] → h.Connected i

variable {h : Htc} {w : RouterWorld}

theorem new_routed (hi : h.Indexed) : Routed h (new h) := by
  refine ⟨hi, rfl, by simp [new, HtcRouter.new], fun i => ?_, fun i hne => absurd rfl hne⟩
  simp only [new, HtcRouter.new, getElem?_replicate]
  split <;> rfl

theorem Routed.htc (hr : Routed h w) {htc : Htc} (hindexed : htc.Indexed)
    (hservs : htc.services = w.core.htc.services) :
    Routed h { w with core := { w.core with htc } } :=
  { hr with indexed := hindexed, services := hservs.trans hr.services }

theorem Routed.put (hr : Routed h w) {endpoint : Nat} (hlt : endpoint < htcEndpointCount)
    (hconn : h.Connected endpoint) (payload : Bytes) :
    Routed h { w with
      core := { w.core with
        endpointQueues := w.core.endpointQueues.modify endpoint (· ++ [payload]) }
      arrived := update w.arrived endpoint (w.arrived endpoint ++ [payload]) } := by
  refine ⟨hr.indexed, hr.services, by simpa using hr.length, fun i => ?_, fun i hne => ?_⟩
  · have hq := hr.queues i
    by_cases hi : i = endpoint
    · subst hi
      have hget := getElem?_eq_getElem (hr.length ▸ hlt)
      simp [hget, ← hq]
    · simpa [update_of_ne hi, getElem?_modify, Ne.symm hi] using hq
  · by_cases hi : i = endpoint
    · exact hi ▸ hconn
    · simp only [update_of_ne hi] at hne
      exact hr.connected i hne

/-! ### A round -/

variable {c : HtcRouterCore}

theorem route_first {endpoint : Nat} {ep : Endpoint} (payload : Bytes) (hi : c.htc.Indexed)
    (hfst : c.htc.First endpoint) (hep : c.htc.endpoints[endpoint]? = some ep) :
    route ⟨ep.service, payload⟩ c =
      ⟨.ok (), { c with
        endpointQueues := c.endpointQueues.modify endpoint (· ++ [payload]) }, []⟩ := by
  have hfound : c.htc.endpointForService ep.service = some ep := by
    obtain ⟨hlt, hget⟩ := List.getElem?_eq_some_iff.mp hep
    refine find?_eq_some_iff_getElem.mpr ⟨by simp, endpoint, hlt, hget, fun j hj => ?_⟩
    have hne := hfst j hj
    have hjlt : j < c.htc.endpoints.length := hj.trans hlt
    simpa [services, hep, getElem?_eq_getElem hjlt] using hne
  unfold route
  rw [Eff.look_bind, hfound]
  simp only [hi.endpoint endpoint ep hep]
  rfl

theorem onTransport_triple {α : Type} {x : OnHtc α} {Q : α → Htc → Prop} {E : CeError → Htc → Prop}
    (hx : Triple (· = c.htc) x Q E) :
    Triple (· = c) (onTransport x) (fun a c' => ∃ htc, Q a htc ∧ c' = { c with htc })
      (fun e c' => ∃ htc, E e htc ∧ c' = { c with htc }) := by
  rintro s rfl
  obtain ⟨hok, herr⟩ := hx _ rfl
  exact ⟨fun a ha => ⟨_, hok a ha, rfl⟩, fun e he => ⟨_, herr e he, rfl⟩⟩

/-- A frame that HTC rejects changes nothing, one without a payload only
credits, and a payload that can be routed goes to the endpoint named. -/
theorem serviceFrame_spec (hi : c.htc.Indexed) (hservs : c.htc.services = h.services)
    {frame : Bytes} (hroutable : h.Routable frame) :
    Triple (· = c) (serviceFrame (.ok (some frame)))
      (fun _ c' => ∃ header ep htc, c.htc.Receives frame header ep htc ∧
        (header.payloadLen.toNat ≤ header.trailerLen ∧ c' = { c with htc } ∨
        header.trailerLen < header.payloadLen.toNat ∧ h.Connected header.endpoint.toNat ∧
          c' = ⟨htc, c.endpointQueues.modify header.endpoint.toNat
            (· ++ [framePayload header frame])⟩)) (fun _ => (· = c)) := by
  refine .bind ((onTransport_triple (receiveProgress_spec hi frame)).weaken_error ?_)
    fun progress => ?_
  · rintro _ _ ⟨htc, rfl, rfl⟩
    rfl
  refine .of_outcome ?_
  rintro _ ⟨htc, ⟨header, ep, hrecv, rfl⟩, rfl⟩
  left
  by_cases hnil : header.trailerLen ≥ header.payloadLen.toNat
  · rw [if_pos hnil]
    exact ⟨true, rfl, header, ep, htc, hrecv, .inl ⟨hnil, rfl⟩⟩
  · have hless := Nat.not_le.mp hnil
    have hlt : header.endpoint.toNat < htcEndpointCount := by
      rw [← hi.length]
      exact lt_of_getElem? hrecv.named
    obtain ⟨hconn, hfst⟩ := hroutable header ⟨hrecv.decoded, hlt, hrecv.whole, hless⟩
    have hfst' : htc.First header.endpoint.toNat := by
      have hsame : htc.services = h.services := hrecv.credited.services.trans hservs
      simpa only [First, hsame] using hfst
    have hep := hrecv.credited.endpoints header.endpoint.toNat
    rw [hrecv.named, Option.map_some] at hep
    have hroute := route_first (c := { c with htc }) (framePayload header frame)
      (hrecv.credited.indexed hi) hfst' hep
    simp only [if_neg hnil, Eff.bind_of_silent hroute]
    exact ⟨true, rfl, header, ep, htc, hrecv, .inr ⟨hless, hconn, rfl⟩⟩

section
variable (hr : Routed h w)
include hr

theorem Routed.round {frame : Except CeError (Option Bytes)}
    (hroutable : ∀ bytes, frame = .ok (some bytes) → h.Routable bytes) :
    Routed h (w.round frame) := by
  rcases frame with e | _ | frame
  · exact hr
  · exact hr
  obtain ⟨hok, herr⟩ := serviceFrame_spec hr.indexed hr.services (hroutable frame rfl) w.core rfl
  cases hresult : (serviceFrame (.ok (some frame)) w.core).result with
  | error e => simpa only [RouterWorld.round, hresult, herr e hresult] using hr
  | ok more =>
    simp only [RouterWorld.round, hresult]
    obtain ⟨header, ep, htc, hrecv, hround⟩ := hok more hresult
    have hk := hr.htc (hrecv.credited.indexed hr.indexed) hrecv.credited.services
    obtain ⟨hnil, hround⟩ | ⟨hless, hconn, hround⟩ := hround
    · rw [hround]
      simpa only [arrive, hrecv.decoded, if_neg (Nat.not_lt.mpr hnil)] using hk
    · have hlt : header.endpoint.toNat < htcEndpointCount := by
        rw [← hr.indexed.length]
        exact lt_of_getElem? hrecv.named
      rw [hround]
      simp only [arrive, hrecv.decoded, if_pos hless]
      exact hk.put hlt hconn (framePayload header frame)

theorem Routed.serve {io : Nat → Except CeError (Option Bytes)}
    (hroutable : ∀ k frame, io k = .ok (some frame) → h.Routable frame) (budget : Nat) :
    Routed h (w.serve io budget) := by
  induction budget generalizing w with
  | zero => exact hr
  | succ budget ih =>
    unfold serve
    have hround := hr.round (hroutable budget)
    split
    · exact ih hround
    · exact hround

/-! ### Other calls -/

theorem Routed.receivePayload (endpoint : UInt8) :
    Routed h (w.step (.receivePayload endpoint)) := by
  simp only [step, BoundService.receivePayload]
  rw [Eff.look_bind]
  cases hget : w.core.endpointQueues[endpoint.toNat]? with
  | none => exact hr
  | some queue =>
    cases queue with
    | nil => exact hr
    | cons first rest =>
      have hlt := lt_of_getElem? hget
      show Routed h
        { w with
          core := { w.core with endpointQueues := w.core.endpointQueues.set endpoint.toNat rest }
          read := update w.read endpoint.toNat (w.read endpoint.toNat ++ [first]) }
      refine ⟨hr.indexed, hr.services, by simpa using hr.length, fun i => ?_, hr.connected⟩
      have hq := hr.queues i
      by_cases hi : i = endpoint.toNat
      · subst hi
        rw [hget, Option.getD_some] at hq
        simpa [getElem?_set_self hlt] using hq
      · simpa [update_of_ne hi, getElem?_set_ne (Ne.symm hi)] using hq

theorem Routed.step {op : RouterOp} (hop : op.Routable h) : Routed h (w.step op) := by
  cases op with
  | serviceReceive io budget => exact hr.serve hop budget
  | sendPayload service payload accepted =>
    have hsends := transport_sends hr.indexed service payload accepted
    exact hr.htc (hsends.indexed hr.indexed) hsends.services
  | receivePayload endpoint => exact hr.receivePayload endpoint

theorem Routed.run {ops : List RouterOp} (hops : ∀ op ∈ ops, op.Routable h) :
    Routed h (w.run ops) := by
  induction ops generalizing w with
  | nil => exact hr
  | cons op ops ih => exact ih (hr.step (hops op (by simp))) fun op hop => hops op (by simp [hop])

end

end RouterWorld

/-- If every payload is for a connected endpoint, the first for its
service, then at every moment of every run a queue holds what arrived for
its endpoint and was not read, only connected endpoints got anything, a
handle reads the next payload addressed to its endpoint, and the next
service leaves the router as the source does. -/
theorem htc_routes_to_named (wmiEndpointCount : UInt8) (creditFlow shadow : Bool)
    (setup : List SetupOp) (ops : List RouterOp)
    (hroutable : ∀ op ∈ ops,
      op.Routable ((Htc.new wmiEndpointCount creditFlow shadow).setup setup)) :
    let h := (Htc.new wmiEndpointCount creditFlow shadow).setup setup
    let w := (RouterWorld.new h).run ops
    (∀ i : Nat, w.read i ++ w.core.endpointQueues[i]?.getD [] = w.arrived i ∧
      (w.arrived i ≠ [] → h.Connected i)) ∧
    (∀ endpoint : UInt8, (receivePayload endpoint w.core).result =
      .ok (w.arrived endpoint.toNat)[(w.read endpoint.toNat).length]?) ∧
    ∀ io budget, (w.step (.serviceReceive io budget)).core =
      (HtcRouter.serviceReceiveBounded io budget w.core).state := by
  intro h w
  have hr : RouterWorld.Routed h w :=
    (RouterWorld.new_routed ((Htc.new_indexed ..).setup setup)).run hroutable
  refine ⟨fun i => ⟨hr.queues i, hr.connected i⟩, fun endpoint => ?_, w.serve_core⟩
  rw [← hr.queues, getElem?_append_right (Nat.le_refl _), Nat.sub_self]
  unfold receivePayload
  rw [Eff.look_bind]
  rcases w.core.endpointQueues[endpoint.toNat]? with _ | _ | ⟨first, rest⟩ <;> rfl

/-- The control service of WMI is connected, at endpoint 1. -/
def wmiSetup : List SetupOp :=
  [.connectService reservedControl [], .waitTarget [1, 0, 2, 0, 64, 0, 9, 0],
    .connectService wmiControl [3, 0, 0, 1, 0, 1, 0, 8, 0, 0, 0, 0]]

theorem htc_routes_to_named_wmi :
    let ops : List RouterOp := [.serviceReceive (fun _ => .ok (some [1, 0, 1, 0, 0, 0, 0, 0, 7])) 1]
    let w := (RouterWorld.new ((Htc.new 1 true false).setup wmiSetup)).run ops
    w.arrived 1 = [[7]] ∧ (receivePayload 1 w.core).result = .ok (some [7]) := by
  intro ops w
  have harr : w.arrived 1 = [[7]] := by decide
  have hread := (htc_routes_to_named 1 true false wmiSetup ops ?_).2.1 1
  · have hone : w.arrived (1 : UInt8).toNat = [[7]] := harr
    exact ⟨harr, hread.trans (by rw [hone]; rfl)⟩
  · intro op hop
    obtain rfl := mem_singleton.mp hop
    intro k frame hframe header hcarry
    cases hframe
    cases hcarry.1
    exact ⟨⟨_, rfl, by decide⟩, by unfold Htc.First; decide⟩

/-- A payload for endpoint 5, where nothing is connected, goes into the
queue of endpoint 2; and with the service at endpoints 1 and 2, the handle
of endpoint 1 reads the payload for endpoint 2. -/
theorem htc_routes_elsewhere :
    let again : SetupOp := .connectService wmiControl [3, 0, 0, 1, 0, 2, 0, 8, 0, 0, 0, 0]
    let unused := (serviceFrame (.ok (some [5, 0, 1, 0, 0, 0, 0, 0, 7]))
      (HtcRouter.new ((Htc.new 1 true false).setup wmiSetup))).state
    let twice := (serviceFrame (.ok (some [2, 0, 1, 0, 0, 0, 0, 0, 7]))
      (HtcRouter.new ((Htc.new 1 true false).setup (wmiSetup ++ [again])))).state
    unused.endpointQueues[2]? = some [[7]] ∧ unused.endpointQueues[5]? = some [] ∧
    (endpoint wmiControl twice).result = .ok 1 ∧
    (receivePayload 1 twice).result = .ok (some [7]) := by
  decide

end Drv.Ath11k
