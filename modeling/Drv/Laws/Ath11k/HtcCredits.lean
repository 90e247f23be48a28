import Drv.Laws.Ath11k.Htc

/-!
# The credit ledger

Beside a transport stands a ledger: for each endpoint its allocation, what
was reported for it and what the frames that the packet I/O accepted cost.
The ledger of an endpoint starts when its service is connected. At every
moment the credits of an endpoint are what the ledger says.

A frame of an endpoint without flow control costs nothing, and a record is
read only up to the first report that names no endpoint.

That the target reports what it owes is not shown.
-/

namespace Drv.Ath11k

open List Function ServiceId Htc HtcTransport

structure HtcWorld where
  htc : Htc
  allocation : Nat → Nat
  reported : Nat → Nat
  spent : Nat → Nat

inductive HtcOp where
  | connectService (service : ServiceId) (response : Bytes)
  | waitTarget (bytes : Bytes)
  | send (service : ServiceId) (bytes : Bytes) (accepted : Except CeError Unit)
  | receiveProgress (frame : Except CeError (Option Bytes))

/-- The cost of the frame fits in 32 bits. -/
def HtcOp.Fits (h : Htc) : HtcOp → Prop
  | .send service bytes _ => ∀ ep, h.endpointForService service = some ep → h.cost ep bytes < 2 ^ 31
  | _ => True

namespace HtcWorld

def new (htc : Htc) : HtcWorld := ⟨htc, fun _ => 0, fun _ => 0, fun _ => 0⟩

/-- The ledger of an endpoint starts with its allocation. -/
def connect (w : HtcWorld) (ep : Endpoint) (allocation : Nat) (htc : Htc) : HtcWorld where
  htc
  allocation := update w.allocation ep.endpoint.toNat allocation
  reported := update w.reported ep.endpoint.toNat 0
  spent := update w.spent ep.endpoint.toNat 0

def step (w : HtcWorld) : HtcOp → HtcWorld
  | .connectService service response =>
    let o := connectService service response w.htc
    match o.result with
    | .ok ep => w.connect ep (w.htc.creditAllocation service).toNat o.state
    | .error _ => { w with htc := o.state }
  | .waitTarget bytes => { w with htc := (waitTarget bytes w.htc).state }
  | .send service bytes accepted =>
    let o := send service bytes accepted w.htc
    match o.result, w.htc.endpointForService service with
    | .ok (), some ep =>
      { w with
        htc := o.state
        spent := update w.spent ep.endpoint.toNat
          (w.spent ep.endpoint.toNat + w.htc.cost ep bytes) }
    | _, _ => { w with htc := o.state }
  | .receiveProgress frame =>
    let o := receiveProgress frame w.htc
    match o.result, frame with
    | .ok _, .ok (some frame) =>
      { w with
        htc := o.state
        reported := fun i => w.reported i + reportedFor i (w.htc.frameReports frame) }
    | _, _ => { w with htc := o.state }

def run (w : HtcWorld) (ops : List HtcOp) : HtcWorld := ops.foldl step w

/-- Every frame that is sent has a cost that fits. -/
def Fits : HtcWorld → List HtcOp → Prop
  | _, [] => True
  | w, op :: ops => op.Fits w.htc ∧ (w.step op).Fits ops

/-- The credits of every endpoint are those of the ledger. -/
structure Balanced (w : HtcWorld) : Prop where
  indexed : w.htc.Indexed
  fits : ∀ ep ∈ w.htc.endpoints, ep.txCredits < 2 ^ 31
  nonneg : ∀ ep ∈ w.htc.endpoints, 0 ≤ ep.txCredits
  ledger : ∀ (i : Nat) (ep : Endpoint), w.htc.endpoints[i]? = some ep →
    ep.txCredits = w.allocation i + w.reported i - w.spent i

theorem new_balanced (wmiEndpointCount : UInt8) (creditFlow shadow : Bool) :
    (new (Htc.new wmiEndpointCount creditFlow shadow)).Balanced := by
  have hunused : ∀ (i : Nat) (ep : Endpoint),
      (Htc.new wmiEndpointCount creditFlow shadow).endpoints[i]? = some ep → ep.txCredits = 0 := by
    intro i ep hep
    rw [(Htc.new_endpoints hep).1]
    rfl
  have hall : ∀ ep ∈ (Htc.new wmiEndpointCount creditFlow shadow).endpoints, ep.txCredits = 0 := by
    intro ep hep
    obtain ⟨i, hget⟩ := mem_iff_getElem?.mp hep
    exact hunused i ep hget
  refine ⟨Htc.new_indexed .., fun ep hep => ?_, fun ep hep => ?_, fun i ep hep => ?_⟩
  · rw [hall ep hep]
    decide
  · rw [hall ep hep]
  · rw [hunused i ep hep]
    rfl

variable {w : HtcWorld}

theorem Balanced.set (hb : w.Balanced) {i : Nat} {ep : Endpoint} {w' : HtcWorld}
    (hindexed : w'.htc.Indexed) (hset : w'.htc.endpoints = w.htc.endpoints.set i ep)
    (hnonneg : 0 ≤ ep.txCredits) (hfits : ep.txCredits < 2 ^ 31)
    (hled : ep.txCredits = w'.allocation i + w'.reported i - w'.spent i)
    (hothers : ∀ j, j ≠ i → w'.allocation j = w.allocation j ∧ w'.reported j = w.reported j ∧
      w'.spent j = w.spent j) : w'.Balanced := by
  refine ⟨hindexed, fun e he => ?_, fun e he => ?_, fun j e he => ?_⟩
  · rw [hset] at he
    rcases mem_or_eq_of_mem_set he with he | rfl
    · exact hb.fits e he
    · exact hfits
  · rw [hset] at he
    rcases mem_or_eq_of_mem_set he with he | rfl
    · exact hb.nonneg e he
    · exact hnonneg
  · rw [hset, getElem?_set] at he
    by_cases hij : i = j
    · subst hij
      rw [if_pos rfl] at he
      split at he
      · cases he
        exact hled
      · cases he
    · rw [if_neg hij] at he
      obtain ⟨halloc, hrep, hspent⟩ := hothers j fun h => hij h.symm
      rw [halloc, hrep, hspent]
      exact hb.ledger j e he

theorem Balanced.connectService (hb : w.Balanced) (service : ServiceId) (response : Bytes) :
    (w.step (.connectService service response)).Balanced := by
  simp only [step]
  obtain ⟨hok, herr⟩ := connectService_connects service response w.htc rfl
  cases hresult : (Htc.connectService service response w.htc).result with
  | error e => simpa only [herr e hresult] using hb
  | ok ep =>
    dsimp only
    have hconn := hok ep hresult
    have hsmall := (w.htc.creditAllocation service).toNat_lt
    refine hb.set (hconn.indexed hb.indexed) (by rw [connect, hconn.state]) ?_ ?_ ?_ ?_
    · rw [hconn.credits]
      omega
    · rw [hconn.credits]
      omega
    · simp [connect, hconn.credits]
    · intro j hj
      simp [connect, update_of_ne hj]

theorem asI32_of_fits {n : Int} (hnonneg : 0 ≤ n) (hfits : n < 2 ^ 31) : asI32 n = n :=
  Int.bmod_eq_of_le (by omega) (by omega)

section
variable (hb : w.Balanced)
include hb

theorem Balanced.send {service : ServiceId} {bytes : Bytes} {accepted : Except CeError Unit}
    (hfits : (HtcOp.send service bytes accepted).Fits w.htc) :
    (w.step (.send service bytes accepted)).Balanced := by
  simp only [step]
  have hsends := transport_sends hb.indexed service bytes accepted
  revert hsends
  generalize (HtcTransport.send service bytes accepted w.htc).result = result
  generalize (HtcTransport.send service bytes accepted w.htc).state = state
  intro hsends
  cases hsends with
  | refused => exact hb
  | returned ep e _ hep htouch =>
    have hget := (hb.indexed.of_find hep).1
    have hmem := mem_of_getElem? hget
    exact hb.set (htouch.indexed hb.indexed) (congrArg endpoints htouch.state) (hb.nonneg ep hmem)
      (hb.fits ep hmem) (hb.ledger _ ep hget) fun _ _ => ⟨rfl, rfl, rfl⟩
  | paid ep _ hep hcredits htouch =>
    have hget := (hb.indexed.of_find hep).1
    have hmem := mem_of_getElem? hget
    have hcost : asI32 (w.htc.cost ep bytes) = w.htc.cost ep bytes := by
      have hlt := hfits ep hep
      exact asI32_of_fits (by omega) (by omega)
    have hless := hb.fits ep hmem
    have hpaid : (w.htc.paid ep bytes).txCredits = ep.txCredits - w.htc.cost ep bytes := by
      show asI32 (ep.txCredits - asI32 (w.htc.cost ep bytes)) = _
      rw [hcost]
      exact asI32_of_fits (by omega) (by omega)
    simp only [hep]
    refine hb.set (htouch.indexed hb.indexed) (by rw [htouch.state]) ?_ ?_ ?_ ?_
    · omega
    · omega
    · have hled := hb.ledger _ ep hget
      simp only [update_self]
      omega
    · intro j hj
      simp [update_of_ne hj]

theorem Balanced.credited {reports : List (UInt8 × UInt8)} {htc : Htc}
    (hcred : w.htc.Credited reports htc) :
    ({ w with htc, reported := fun i => w.reported i + reportedFor i reports } :
      HtcWorld).Balanced := by
  refine ⟨hcred.indexed hb.indexed, hcred.fits hb.fits, fun ep hep => ?_, fun i ep hep => ?_⟩
  · obtain ⟨i, hget⟩ := mem_iff_getElem?.mp hep
    simp only [hcred.endpoints, Option.map_eq_some_iff] at hget
    obtain ⟨old, hold, rfl⟩ := hget
    have hnonneg := hb.nonneg old (mem_of_getElem? hold)
    simp only
    omega
  · simp only [hcred.endpoints, Option.map_eq_some_iff] at hep
    obtain ⟨old, hold, rfl⟩ := hep
    have hled := hb.ledger i old hold
    simp only
    omega

theorem Balanced.receiveProgress (frame : Except CeError (Option Bytes)) :
    (w.step (.receiveProgress frame)).Balanced := by
  simp only [step]
  rcases frame with e | _ | frame
  · exact hb
  · exact hb
  · obtain ⟨hok, herr⟩ := receiveProgress_spec hb.indexed frame w.htc rfl
    cases hresult : (HtcTransport.receiveProgress (.ok (some frame)) w.htc).result with
    | error e => simpa only [herr e hresult] using hb
    | ok =>
      obtain ⟨header, ep, hrece, -⟩ := hok _ hresult
      exact hb.credited hrece.credited

theorem Balanced.step {op : HtcOp} (hfits : op.Fits w.htc) : (w.step op).Balanced := by
  cases op with
  | connectService service response => exact hb.connectService service response
  | waitTarget bytes =>
    have hsame := (waitTarget_endpoints bytes).state (rfl : w.htc.endpoints = _)
    exact ⟨⟨hsame ▸ hb.indexed.length, hsame ▸ hb.indexed.endpoint⟩, hsame ▸ hb.fits,
      hsame ▸ hb.nonneg, hsame ▸ hb.ledger⟩
  | send => exact hb.send hfits
  | receiveProgress frame => exact hb.receiveProgress frame

theorem Balanced.run {ops : List HtcOp} (hfits : w.Fits ops) : (w.run ops).Balanced := by
  induction ops generalizing w with
  | nil => exact hb
  | cons op ops ih => exact ih (hb.step hfits.1) hfits.2

end

end HtcWorld

/-- At every moment of every run of a transport the credits of an endpoint
are its allocation and what was reported for it, less the cost of the
frames that the packet I/O accepted, and are not negative; and a frame
that is rejected changes no endpoint. -/
theorem htc_credits_balance (wmiEndpointCount : UInt8) (creditFlow shadow : Bool) (ops : List HtcOp)
    (hfits : (HtcWorld.new (new wmiEndpointCount creditFlow shadow)).Fits ops) :
    let w := (HtcWorld.new (new wmiEndpointCount creditFlow shadow)).run ops
    (∀ (i : Nat) (ep : Endpoint), w.htc.endpoints[i]? = some ep →
      0 ≤ ep.txCredits ∧ ep.txCredits = w.allocation i + w.reported i - w.spent i) ∧
    ∀ frame e, (receive frame w.htc).result = .error e →
      (receive frame w.htc).state = w.htc := by
  intro w
  have hb : w.Balanced := (HtcWorld.new_balanced ..).run hfits
  refine ⟨fun i ep hep => ⟨hb.nonneg ep (mem_of_getElem? hep), hb.ledger i ep hep⟩, ?_⟩
  intro frame e herr
  exact (receive_spec hb.indexed frame _ rfl).2 e herr

/-- Two credits of 64 bytes: one is spent, and two are reported. -/
theorem htc_credits_balance_spent :
    let ops : List HtcOp :=
      [.connectService reservedControl [], .waitTarget [1, 0, 2, 0, 64, 0, 9, 0],
        .connectService wmiControl [3, 0, 0, 1, 0, 1, 0, 8, 0, 0, 0, 0],
        .send wmiControl [7] (.ok ()),
        .receiveProgress (.ok (some [1, 2, 8, 0, 8, 0, 0, 0, 1, 4, 0, 0, 1, 2, 0, 0]))]
    ∃ ep, ((HtcWorld.new (new 1 true false)).run ops).htc.endpoints[1]? = some ep ∧
      ep.txCredits = 3 ∧ 0 ≤ ep.txCredits := by
  intro ops
  refine ⟨_, rfl, by decide, ((htc_credits_balance 1 true false ops ?_).1 1 _ rfl).1⟩
  refine ⟨trivial, trivial, trivial, fun ep hep => ?_, trivial, trivial⟩
  cases hep
  decide

/-- An endpoint without flow control sends a frame of one credit for none,
and a report after one for no endpoint is not counted. -/
theorem htc_credits_free_and_unread :
    let ops : List HtcOp :=
      [.connectService reservedControl [], .waitTarget [1, 0, 2, 0, 64, 0, 9, 0],
        .connectService httDataMsg [3, 0, 0, 3, 0, 1, 0, 8, 0, 0, 0, 0]]
    let h := ((HtcWorld.new (new 1 true false)).run ops).htc
    let sent := send httDataMsg [7] (.ok ()) h
    let received := receive [1, 2, 12, 0, 12, 0, 0, 0, 1, 8, 0, 0, 9, 1, 0, 0, 1, 2, 0, 0] h
    h.targetCreditSize = 64 ∧
    sent.result = .ok () ∧ (sent.state.endpoints[1]?).map Endpoint.txCredits = some 0 ∧
    received.result = .ok none ∧
    (received.state.endpoints[1]?).map Endpoint.txCredits = some 0 := by
  decide

end Drv.Ath11k
