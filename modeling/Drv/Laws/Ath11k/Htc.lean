import Mathlib.Data.List.GetD
import Drv.Base.Hoare
import Drv.Ath11k.Htc

/-!
# What the operations do to the endpoints

Each operation of HTC changes the endpoints in one way only: connecting a
service fills an unused endpoint, sending takes credits from one, and
receiving adds what a trailer reports. A failure changes nothing, but for
a sequence number that a refused frame has used up.

Reports are those of the credit records of a frame, each read up to the
first that names no endpoint.
-/

namespace Drv.Ath11k

open List ServiceId HtcHeader

/-! ## Reports -/

/-- The endpoints and amounts of a record. -/
def reports : Bytes → List (UInt8 × UInt8)
  | endpoint :: amount :: _ :: _ :: rest => (endpoint, amount) :: reports rest
  | _ => []

/-- The reports that count: up to the first for no endpoint. -/
def countedReports (body : Bytes) : List (UInt8 × UInt8) :=
  (reports body).takeWhile fun report => report.1.toNat < htcEndpointCount

/-- The records of a trailer, with their kinds. -/
def trailerRecords : Nat → Bytes → List (UInt8 × Bytes)
  | rounds + 1, id :: len :: _ :: _ :: rest =>
    (id, rest.take len.toNat) :: trailerRecords rounds (rest.drop len.toNat)
  | _, _ => []

/-- The reports of a trailer. -/
def trailerReports (creditFlow : Bool) (rounds : Nat) (trailer : Bytes) : List (UInt8 × UInt8) :=
  ((trailerRecords rounds trailer).filter fun record => creditFlow ∧ record.1 = 1).flatMap
    fun record => countedReports record.2

/-- The trailer of a frame. -/
def frameTrailer (frame : Bytes) : Bytes :=
  match decode frame with
  | .ok header =>
    let payloadEnd := htcHeaderLen + header.payloadLen.toNat
    (frame.take payloadEnd).drop (payloadEnd - header.trailerLen)
  | .error _ => []

/-- What is reported for an endpoint. -/
def reportedFor (endpoint : Nat) (reports : List (UInt8 × UInt8)) : Nat :=
  ((reports.filter fun report => report.1.toNat = endpoint).map fun report => report.2.toNat).sum

/-- Credits after some reports, all within 32 bits. -/
def Reported (reports : List (UInt8 × UInt8)) (before after : List Int) : Prop :=
  (∀ endpoint, after[endpoint]? =
    before[endpoint]?.map fun credits : Int => credits + reportedFor endpoint reports) ∧
  ((∀ credits ∈ before, credits < 2 ^ 31) → ∀ credits ∈ after, credits < 2 ^ 31)

theorem Reported.nil (credits : List Int) : Reported [] credits credits :=
  ⟨fun endpoint => by simp [reportedFor], fun h => h⟩

theorem Reported.trans {a b : List (UInt8 × UInt8)} {x y z : List Int} (h : Reported a x y)
    (h' : Reported b y z) : Reported (a ++ b) x z := by
  refine ⟨fun endpoint => ?_, fun hx => h'.2 (h.2 hx)⟩
  rw [h'.1, h.1, Option.map_map]
  congr 1
  simp [reportedFor]

variable {reports : List (UInt8 × UInt8)}

theorem length_of_getElem?_map {α : Type} {f : Nat → α → α} {x y : List α}
    (h : ∀ i : Nat, y[i]? = x[i]?.map (f i)) : y.length = x.length := by
  have hsame (i : Nat) : y.length ≤ i ↔ x.length ≤ i := by
    rw [← getElem?_eq_none_iff, h, Option.map_eq_none_iff, getElem?_eq_none_iff]
  exact Nat.le_antisymm ((hsame _).mpr (Nat.le_refl _)) ((hsame _).mp (Nat.le_refl _))

variable {credits : List Int}

theorem Reported.one {endpoint amount : UInt8} {old new : Int}
    (hold : credits[endpoint.toNat]? = some old) (hnew : checkedAdd old amount = some new) :
    Reported [(endpoint, amount)] credits (credits.set endpoint.toNat new) := by
  unfold checkedAdd at hnew
  split at hnew
  next hfits =>
    cases hnew
    refine ⟨fun e => ?_, fun hall c hc => ?_⟩
    · by_cases he : endpoint.toNat = e
      · subst he
        rw [getElem?_set_self (lt_of_getElem? hold), hold]
        simp [reportedFor]
      · simp [he, reportedFor]
    · rcases mem_or_eq_of_mem_set hc with hc | rfl
      · exact hall c hc
      · exact hfits
  · cases hnew

variable {credits' : List Int}

theorem applyReports_reported {body : Bytes} (hlength : credits.length = htcEndpointCount)
    (h : Htc.applyReports body credits = .ok credits') :
    Reported (countedReports body) credits credits' := by
  fun_induction Htc.applyReports body credits with
  | case1 endpoint amount _ _ rest credits hn =>
    cases h
    have hout : ¬ endpoint.toNat < htcEndpointCount := by
      rw [← hlength]
      exact Nat.not_lt.mpr (getElem?_eq_none_iff.mp hn)
    simpa [countedReports, reports, hout] using Reported.nil credits'
  | case2 => cases h
  | case3 endpoint amount x y rest credits old hold new hnew ih =>
    have hin : endpoint.toNat < htcEndpointCount := by
      rw [← hlength]
      exact lt_of_getElem? hold
    have hsplit : countedReports (endpoint :: amount :: x :: y :: rest) =
        [(endpoint, amount)] ++ countedReports rest := by
      simp [countedReports, reports, hin]
    rw [hsplit]
    exact (Reported.one hold hnew).trans (ih (by simpa using hlength) h)
  | case4 bytes credits hshort =>
    cases h
    have hn : reports bytes = [] := by
      unfold reports
      split
      next endpoint amount x y rest => exact absurd rfl (hshort endpoint amount x y rest)
      · rfl
    simpa [countedReports, hn] using Reported.nil credits'

theorem trailerLoop_reported {creditFlow : Bool} {rounds : Nat} {trailer : Bytes}
    (hlength : credits.length = htcEndpointCount)
    (h : Htc.trailerLoop creditFlow rounds trailer credits = .ok credits') :
    Reported (trailerReports creditFlow rounds trailer) credits credits' := by
  fun_induction Htc.trailerLoop creditFlow rounds trailer credits with
  | case1 rounds =>
    cases h
    cases rounds <;> exact .nil credits'
  | case2 => cases h
  | case3 => cases h
  | case4 rounds id len x y rest credits hlen hcredit hfour ih =>
    obtain ⟨middle, hmiddle, h⟩ := bind_eq_ok.mp h
    have hfst := applyReports_reported hlength hmiddle
    have hsplit : trailerReports creditFlow (rounds + 1) (id :: len :: x :: y :: rest) =
        countedReports (rest.take len.toNat) ++
          trailerReports creditFlow rounds (rest.drop len.toNat) := by
      simp [trailerReports, trailerRecords, hcredit]
    rw [hsplit]
    exact hfst.trans (ih middle ((length_of_getElem?_map hfst.1).trans hlength) h)
  | case5 rounds id len x y rest credits hlen hother ih =>
    have hsplit : trailerReports creditFlow (rounds + 1) (id :: len :: x :: y :: rest) =
        trailerReports creditFlow rounds (rest.drop len.toNat) := by
      simp only [trailerReports, trailerRecords]
      rw [filter_cons_of_neg (by simpa using hother)]
    rw [hsplit]
    exact ih hlength h
  | case6 => cases h

/-! ## Endpoints -/

namespace Htc

variable {h : Htc}

/-- Every endpoint stands at its number. -/
structure Indexed (h : Htc) : Prop where
  length : h.endpoints.length = htcEndpointCount
  endpoint : ∀ (i : Nat) (ep : Endpoint), h.endpoints[i]? = some ep → ep.endpoint.toNat = i

variable {ep : Endpoint} {i : Nat}

theorem new_endpoints {wmiEndpointCount : UInt8} {creditFlow shadow : Bool}
    (hep : (new wmiEndpointCount creditFlow shadow).endpoints[i]? = some ep) :
    ep = unusedEndpoint (UInt8.ofNat i) ∧ i < htcEndpointCount := by
  simp only [new, getElem?_map, Option.map_eq_some_iff] at hep
  obtain ⟨j, hj, rfl⟩ := hep
  obtain ⟨hlt, rfl⟩ := List.getElem?_eq_some_iff.mp hj
  rw [getElem_range]
  exact ⟨rfl, by simpa using hlt⟩

theorem new_indexed (wmiEndpointCount : UInt8) (creditFlow shadow : Bool) :
    (new wmiEndpointCount creditFlow shadow).Indexed := by
  refine ⟨by simp [new], fun i ep hep => ?_⟩
  obtain ⟨rfl, hlt⟩ := new_endpoints hep
  have hnine : i < 9 := hlt
  show (UInt8.ofNat i).toNat = i
  rw [UInt8.toNat_ofNat']
  omega

variable {service : ServiceId}

theorem Indexed.of_find (hi : h.Indexed) (hep : h.endpointForService service = some ep) :
    h.endpoints[ep.endpoint.toNat]? = some ep ∧ ep.service = service := by
  obtain ⟨i, hget⟩ := mem_iff_getElem?.mp (mem_of_find?_eq_some hep)
  refine ⟨hi.endpoint i ep hget ▸ hget, ?_⟩
  simpa using find?_some hep

theorem Indexed.set (hi : h.Indexed) (hep : ep.endpoint.toNat = i) :
    Indexed { h with endpoints := h.endpoints.set i ep } := by
  refine ⟨by simpa using hi.length, fun j e he => ?_⟩
  rw [getElem?_set] at he
  split at he
  next heq =>
    split at he
    · cases he
      exact hep.trans heq
    · cases he
  · exact hi.endpoint j e he

/-! ### Connecting -/

/-- An unused endpoint gets a service. -/
structure Connects (h : Htc) (service : ServiceId) (ep : Endpoint) (h' : Htc) : Prop where
  unused : ∃ old, h.endpoints[ep.endpoint.toNat]? = some old ∧ old.service = reserved
  serves : ep.service = service
  connected : service ≠ reserved
  credits : ep.txCredits = (h.creditAllocation service).toNat
  state : h' = { h with endpoints := h.endpoints.set ep.endpoint.toNat ep }

variable {h' : Htc}

theorem Connects.indexed (hi : h.Indexed) (hc : h.Connects service ep h') : h'.Indexed := by
  rw [hc.state]
  exact hi.set rfl

variable {endpoint : UInt8}

theorem installEndpoint_connects {max checked : UInt16} {disable : Bool} :
    Triple (· = h) (installEndpoint service endpoint max disable checked)
      (fun ep => h.Connects service ep) (fun _ => (· = h)) := by
  refine .look_eq (fun _ hs => hs) ?_
  cases hget : h.endpoints[endpoint.toNat]? with
  | none => exact .fail fun _ hs => hs
  | some old =>
    refine .ite (fun _ => .fail fun _ hs => hs) fun hused => ?_
    cases hpipes : mapServiceToPipe service with
    | none => exact .fail fun _ hs => hs
    | some =>
      have hconn : service ≠ reserved := by
        rintro rfl
        -- the reserved service has no pipes
        cases hpipes
      refine .of_outcome ?_
      rintro s rfl
      have hresv := not_not.mp (not_or.mp hused).1
      exact .inl ⟨_, rfl, ⟨old, hget, hresv⟩, rfl, hconn, rfl, rfl⟩

theorem connectService_connects (service : ServiceId) (response : Bytes) :
    Triple (· = h) (connectService service response) (fun ep => h.Connects service ep)
      (fun _ => (· = h)) := by
  refine .ite (fun _ => installEndpoint_connects) fun _ => .look_eq (fun _ hs => hs) ?_
  refine .guard (fun _ hs => hs) (.ofExcept_bind (fun response _ => ?_) fun _ _ hs => hs)
  exact .guard (fun _ hs => hs) installEndpoint_connects

theorem waitTarget_endpoints (bytes : Bytes) :
    Leads (·.endpoints = h.endpoints) (waitTarget bytes) (·.endpoints = h.endpoints) := by
  refine .look_any fun _ => ?_
  refine .guard (fun _ hs => hs) ?_
  refine .ofExcept_bind (fun ready _ => .guard (fun _ hs => hs) ?_) fun _ _ hs => hs
  exact .bind (.modify fun _ hs => hs) fun _ => .pure fun _ hs => hs

/-! ### Sending -/

/-- One endpoint changes, and what it is stays. -/
structure Touches (h : Htc) (i : Nat) (ep ep' : Endpoint) (h' : Htc) : Prop where
  before : h.endpoints[i]? = some ep
  serves : ep'.service = ep.service
  numbered : ep'.endpoint = ep.endpoint
  state : h' = { h with endpoints := h.endpoints.set i ep' }

theorem Touches.indexed {ep' : Endpoint} (hi : h.Indexed) (ht : h.Touches i ep ep' h') :
    h'.Indexed := by
  rw [ht.state]
  refine hi.set ?_
  rw [ht.numbered]
  exact hi.endpoint i ep ht.before

theorem Touches.services {ep' : Endpoint} (ht : h.Touches i ep ep' h') :
    h'.endpoints.map Endpoint.service = h.endpoints.map Endpoint.service := by
  have hserv : (h.endpoints.map Endpoint.service)[i]? = some ep'.service := by
    rw [getElem?_map, ht.before, Option.map_some, ht.serves]
  obtain ⟨hlt, hserv⟩ := List.getElem?_eq_some_iff.mp hserv
  rw [ht.state, map_set, ← hserv, set_getElem_self]

/-- The endpoint after it paid for a frame. -/
def paid (h : Htc) (ep : Endpoint) (bytes : Bytes) : Endpoint :=
  { ep with
    txCredits := asI32 (ep.txCredits - asI32 (h.cost ep bytes))
    sequence := ep.sequence + 1 }

/-- The header of a frame that an endpoint sends. -/
def headerOf (ep : Endpoint) (endpoint : UInt8) (payload : Bytes) : HtcHeader where
  endpoint
  flags := if ep.creditFlowEnabled then 1 else 0
  payloadLen := UInt16.ofNat payload.length
  controlByte0 := 0
  controlByte1 := ep.sequence

theorem send_spec (hep : h.endpoints[endpoint.toNat]? = some ep) (bytes : Bytes) :
    (∃ e, send endpoint bytes h = ⟨.error e, h, []⟩) ∨ asI32 (h.cost ep bytes) ≤ ep.txCredits ∧
        send endpoint bytes h = ⟨.ok ((headerOf ep endpoint bytes).encode ++ bytes),
          { h with endpoints := h.endpoints.set endpoint.toNat (h.paid ep bytes) }, []⟩ := by
  unfold send
  rw [Eff.look_bind]
  simp only [id_eq, hep]
  by_cases hknown : ep.service = reserved ∨ !h.costKnown ep
  · rw [if_pos hknown]
    exact .inl ⟨_, rfl⟩
  · rw [if_neg hknown]
    by_cases hshort : ep.txCredits < asI32 (h.cost ep bytes)
    · rw [if_pos hshort]
      exact .inl ⟨_, rfl⟩
    · rw [if_neg hshort, setEndpoint, Eff.modify_bind, modify_eq_set_getElem?, hep]
      exact .inr ⟨Int.not_lt.mp hshort, rfl⟩

/-- What `send` of the transport does: nothing, or a sequence number is
used up by a frame that was refused, or the frame is paid for. -/
inductive Sends (h : Htc) (service : ServiceId) (bytes : Bytes) :
    Except CeError Unit → Htc → Prop where
  | refused (e : CeError) : Sends h service bytes (.error e) h
  | returned (ep : Endpoint) (e : CeError) (h' : Htc) (hep : h.endpointForService service = some ep)
      (hstate : h.Touches ep.endpoint.toNat ep { ep with sequence := ep.sequence + 1 } h') :
      Sends h service bytes (.error e) h'
  | paid (ep : Endpoint) (h' : Htc) (hep : h.endpointForService service = some ep)
      (hcredits : asI32 (h.cost ep bytes) ≤ ep.txCredits)
      (hstate : h.Touches ep.endpoint.toNat ep (h.paid ep bytes) h') :
      Sends h service bytes (.ok ()) h'

theorem transport_sends (hi : h.Indexed) (service : ServiceId) (bytes : Bytes)
    (accepted : Except CeError Unit) :
    h.Sends service bytes (HtcTransport.send service bytes accepted h).result
      (HtcTransport.send service bytes accepted h).state := by
  unfold HtcTransport.send
  rw [Eff.look_bind]
  cases hep : h.endpointForService service with
  | none => exact .refused _
  | some ep =>
    have hget := (hi.of_find hep).1
    have hlt := lt_of_getElem? hget
    obtain ⟨e, hsend⟩ | ⟨hcredits, hsend⟩ := send_spec hget bytes
    · simp only [Eff.bind_of_error hsend]
      exact .refused e
    · simp only [Eff.bind_of_silent hsend]
      cases accepted with
      | ok => exact .paid ep _ hep hcredits ⟨hget, rfl, rfl, rfl⟩
      | error e =>
        -- the credits are put back, the sequence number is not
        refine .returned ep e _ hep ⟨hget, rfl, rfl, ?_⟩
        show ({ h with endpoints := (h.endpoints.set _ _).modify _ _ } : Htc) = _
        rw [modify_eq_set_getElem?, getElem?_set_self hlt]
        simp [paid]

variable {result : Except CeError Unit}

theorem Sends.indexed {bytes : Bytes} (hi : h.Indexed) (hs : h.Sends service bytes result h') :
    h'.Indexed := by
  cases hs with
  | refused => exact hi
  | returned _ _ _ _ htouch | paid _ _ _ _ htouch => exact htouch.indexed hi

theorem Sends.services {bytes : Bytes} (hs : h.Sends service bytes result h') :
    h'.endpoints.map Endpoint.service = h.endpoints.map Endpoint.service := by
  cases hs with
  | refused => rfl
  | returned _ _ _ _ htouch => exact htouch.services
  | paid _ _ _ _ htouch => exact htouch.services

/-! ### Receiving -/

/-- The reports of a frame that HTC accepts. -/
def frameReports (h : Htc) (frame : Bytes) : List (UInt8 × UInt8) :=
  trailerReports h.creditFlow (frameTrailer frame).length (frameTrailer frame)

/-- Credits change by some reports, and nothing else does. -/
structure Credited (h : Htc) (reports : List (UInt8 × UInt8)) (h' : Htc) : Prop where
  endpoints : ∀ i : Nat, h'.endpoints[i]? = h.endpoints[i]?.map fun ep : Endpoint =>
    { ep with txCredits := ep.txCredits + reportedFor i reports }
  fits : (∀ ep ∈ h.endpoints, ep.txCredits < 2 ^ 31) → ∀ ep ∈ h'.endpoints, ep.txCredits < 2 ^ 31
  rest : h' = { h with endpoints := h'.endpoints }

theorem Credited.refl (h : Htc) : h.Credited [] h :=
  ⟨fun i : Nat => by simp [reportedFor], fun hfits => hfits, rfl⟩

theorem Credited.indexed (hi : h.Indexed) (hc : h.Credited reports h') : h'.Indexed := by
  refine ⟨(length_of_getElem?_map hc.endpoints).trans hi.length, fun i ep hep => ?_⟩
  rw [hc.endpoints, Option.map_eq_some_iff] at hep
  obtain ⟨old, hold, rfl⟩ := hep
  exact hi.endpoint i old hold

theorem Credited.services (hc : h.Credited reports h') :
    h'.endpoints.map Endpoint.service = h.endpoints.map Endpoint.service := by
  refine ext_getElem? fun i => ?_
  rw [getElem?_map, getElem?_map, hc.endpoints, Option.map_map]
  rfl

/-- The endpoints with other credits. -/
def withCredits (h : Htc) (credits : List Int) : Htc :=
  { h with
    endpoints := zipWith (fun ep credits => { ep with txCredits := credits })
      h.endpoints credits }

theorem withCredits_credited
    (hrep : Reported reports (h.endpoints.map Endpoint.txCredits) credits) :
    h.Credited reports (h.withCredits credits) := by
  obtain ⟨hadded, hfits⟩ := hrep
  refine ⟨fun i => ?_, fun hall ep hep => ?_, rfl⟩
  · simp only [withCredits, getElem?_zipWith, hadded, getElem?_map]
    cases h.endpoints[i]? <;> rfl
  · obtain ⟨i, hep⟩ := mem_iff_getElem?.mp hep
    simp only [withCredits, getElem?_zipWith] at hep
    split at hep
    next old new _ hnew =>
      cases hep
      exact hfits (forall_mem_map.mpr hall) new (mem_of_getElem? hnew)
    · cases hep

theorem processTrailer_credited (hi : h.Indexed) (bytes : Bytes) :
    Triple (· = h) (processTrailer bytes)
      (fun _ => h.Credited (trailerReports h.creditFlow bytes.length bytes))
      (fun _ => (· = h)) := by
  refine .look_eq (fun _ hs => hs) (.ofExcept_bind (fun credits hloop => ?_) fun _ _ hs => hs)
  refine .modify ?_
  rintro s rfl
  exact withCredits_credited (trailerLoop_reported (by simpa using hi.length) hloop)

/-- The payload of a frame, without its trailer. -/
def framePayload (header : HtcHeader) (frame : Bytes) : Bytes :=
  (frame.take (htcHeaderLen + header.payloadLen.toNat - header.trailerLen)).drop htcHeaderLen

theorem payload_spec {header : HtcHeader} (hep : h.endpoints[header.endpoint.toNat]? = some ep)
    (frame : Bytes) :
    payload header frame h =
      ⟨.ok (if header.trailerLen ≥ header.payloadLen.toNat then none
        else some ⟨ep.service, framePayload header frame⟩), h, []⟩ := by
  unfold payload
  split
  · rfl
  · rw [Eff.look_bind, hep]
    rfl

/-- A frame that is accepted adds what its trailer reports, and is for an
endpoint of the header. -/
structure Receives (h : Htc) (frame : Bytes) (header : HtcHeader) (ep : Endpoint) (h' : Htc) :
    Prop where
  decoded : decode frame = .ok header
  whole : htcHeaderLen + header.payloadLen.toNat ≤ frame.length
  named : h.endpoints[header.endpoint.toNat]? = some ep
  credited : h.Credited (h.frameReports frame) h'

/-- What is passed on of a frame that is accepted. -/
def Passes (h : Htc) (frame : Bytes) (received : Option RxFrame) (h' : Htc) : Prop :=
  ∃ header ep, h.Receives frame header ep h' ∧ received =
    if header.trailerLen ≥ header.payloadLen.toNat then none
    else some ⟨ep.service, framePayload header frame⟩

theorem receive_spec (hi : h.Indexed) (frame : Bytes) :
    Triple (· = h) (receive frame) (Passes h frame) (fun _ => (· = h)) := by
  refine .ofExcept_bind (fun header hdec => ?_) fun _ _ hs => hs
  refine .ite (fun _ => .fail fun _ hs => hs) fun hrng => ?_
  refine .ite (fun _ => .fail fun _ hs => hs) fun hlong => ?_
  have hlt : header.endpoint.toNat < h.endpoints.length := by
    rw [hi.length]
    omega
  have hep := getElem?_eq_getElem hlt
  -- whatever was credited, the endpoint named is there
  have hpayload : Triple (h.Credited (h.frameReports frame)) (payload header frame)
      (Passes h frame) (fun _ => (· = h)) := by
    refine .of_outcome fun h' hcred => .inl ?_
    have hep' := hcred.endpoints header.endpoint.toNat
    rw [hep, Option.map_some] at hep'
    rw [payload_spec hep']
    exact ⟨_, rfl, header, _, ⟨hdec, Nat.not_lt.mp hlong, hep, hcred⟩, rfl⟩
  refine .ite (fun hn => hpayload.weaken_pre ?_) fun _ => .guard (fun _ hs => hs) ?_
  · have hreports : h.frameReports frame = [] := by
      simp [frameReports, frameTrailer, hdec, hn, trailerReports, trailerRecords]
    rintro s rfl
    exact hreports ▸ .refl s
  · simp only [frameReports, frameTrailer, hdec] at hpayload
    exact .bind (processTrailer_credited hi _) fun _ => hpayload

theorem receiveProgress_spec (hi : h.Indexed) (frame : Bytes) :
    Triple (· = h) (HtcTransport.receiveProgress (.ok (some frame)))
      (fun progress h' => ∃ header ep, h.Receives frame header ep h' ∧ progress =
        some (if header.trailerLen ≥ header.payloadLen.toNat then .control
          else .payload ⟨ep.service, framePayload header frame⟩)) (fun _ => (· = h)) := by
  refine .ofExcept_bind (fun _ heq => ?_) fun _ _ hs => hs
  cases heq
  refine .bind (receive_spec hi frame) fun received => .exists_pre fun header =>
    .exists_pre fun ep => ?_
  refine .of_outcome fun h' ⟨hrecv, heq⟩ => .inl ⟨_, ?_, header, ep, ?_, rfl⟩
  · rw [heq]
    split <;> rfl
  · rw [heq]
    split <;> exact hrecv

/-! ## Framing -/

theorem leU16_split (n : UInt16) : leU16 n.toUInt8 (n >>> 8).toUInt8 = n := by
  have hsplit (n : BitVec 16) :
      (n.setWidth 8).setWidth 16 ||| ((n >>> 8).setWidth 8).setWidth 16 <<< 8 = n := by
    ext i hi
    simp only [BitVec.getElem_or, BitVec.getElem_setWidth, BitVec.getElem_shiftLeft,
      BitVec.getLsbD_setWidth, BitVec.getLsbD_ushiftRight]
    grind
  exact UInt16.eq_of_toBitVec_eq (hsplit n.toBitVec)

theorem decode_encode (header : HtcHeader) (rest : Bytes) :
    decode (header.encode ++ rest) = .ok header := by
  simp [encode, decode, leU16_split]

variable {payload frame : Bytes}

theorem send_frame (hsend : (send endpoint payload h).result = .ok frame) :
    ∃ ep, h.endpoints[endpoint.toNat]? = some ep ∧
      frame = (headerOf ep endpoint payload).encode ++ payload := by
  cases hep : h.endpoints[endpoint.toNat]? with
  | none =>
    rw [send, Eff.look_bind] at hsend
    simp only [id_eq, hep] at hsend
    cases hsend
  | some ep =>
    obtain ⟨e, hs⟩ | ⟨-, hs⟩ := send_spec hep payload
    · rw [hs] at hsend
      cases hsend
    · rw [hs] at hsend
      cases hsend
      exact ⟨ep, rfl, rfl⟩

/-- A frame tells the length of its payload, and whoever has the endpoint
connected gets the payload out of it. -/
structure Framed (h : Htc) (endpoint : UInt8) (payload frame : Bytes) : Prop where
  header : ∃ header, frame = encode header ++ payload ∧
    decode frame = .ok header ∧ header.payloadLen.toNat = payload.length
  received : payload ≠ [] → htcHeaderLen + payload.length ≤ htcMaxLen →
    ∀ (h' : Htc) (ep ep' : Endpoint), h.endpoints[endpoint.toNat]? = some ep →
      h'.endpoints[endpoint.toNat]? = some ep' → ep'.service = ep.service →
      receive frame h' = ⟨.ok (some ⟨ep.service, payload⟩), h', []⟩

/-- What is sent is framed exactly if the payload fits the field for its
length, which nothing checks. -/
theorem sent_framed_iff (h : Htc) (hcount : h.endpoints.length = htcEndpointCount)
    (endpoint : UInt8) (payload frame : Bytes)
    (hsend : (send endpoint payload h).result = .ok frame) :
    Framed h endpoint payload frame ↔ payload.length < 2 ^ 16 := by
  obtain ⟨ep, hep, rfl⟩ := send_frame hsend
  constructor
  · rintro ⟨⟨header, -, -, hlen⟩, -⟩
    rw [← hlen]
    exact header.payloadLen.toNat_lt
  · intro hfits
    have hlen : (headerOf ep endpoint payload).payloadLen.toNat = payload.length :=
      Nat.mod_eq_of_lt hfits
    have htrail : (headerOf ep endpoint payload).trailerLen = 0 := by
      unfold trailerLen headerOf
      cases ep.creditFlowEnabled <;> simp
    refine ⟨⟨_, rfl, decode_encode .., hlen⟩, ?_⟩
    intro hne hmax h' sender ep' hsender hep' hserv
    have hpos := length_pos_of_ne_nil hne
    have hnum : (headerOf ep endpoint payload).endpoint.toNat < htcEndpointCount :=
      hcount ▸ lt_of_getElem? hep
    have hflen : ((headerOf ep endpoint payload).encode ++ payload).length =
        htcHeaderLen + payload.length := by
      rw [length_append]
      rfl
    have hpayload : framePayload (headerOf ep endpoint payload)
        ((headerOf ep endpoint payload).encode ++ payload) = payload := by
      rw [framePayload, hlen, htrail, Nat.sub_zero, ← hflen, take_length]
      exact drop_left' rfl
    unfold receive
    rw [decode_encode, Eff.bind_of_silent (Eff.ofExcept_apply ..), hlen, hflen, htrail,
      if_neg (by omega), if_neg (Nat.lt_irrefl _), if_pos rfl, payload_spec hep', hpayload, hlen,
      htrail, if_neg (by omega), hserv]

/-- An instance with the control endpoint. -/
def controlHtc : Htc := (connectService reservedControl [] (new 1 true false)).state

theorem sent_framed_control : Framed controlHtc 0 [7, 9] [0, 0, 2, 0, 0, 0, 0, 0, 7, 9] :=
  (sent_framed_iff controlHtc rfl 0 [7, 9] _ rfl).mpr (by decide)

/-- The header of a payload of 65536 bytes says that there are none. -/
theorem long_payload_unframed : ∃ frame header,
    (send 0 (replicate 65536 0) controlHtc).result = .ok frame ∧
      decode frame = .ok header ∧ header.payloadLen = 0 := by
  obtain ⟨frame, hsend⟩ : ∃ frame, (send 0 (replicate 65536 0) controlHtc).result = .ok frame :=
    ⟨_, rfl⟩
  obtain ⟨ep, -, rfl⟩ := send_frame hsend
  refine ⟨_, _, hsend, decode_encode .., ?_⟩
  rw [headerOf, length_replicate]
  rfl

end Htc

end Drv.Ath11k
