import Drv.Ath11k.CePipes

/-!
# Host-target communication

HTC multiplexes services over the copy engines. The firmware assigns an
endpoint to a service when the service is connected; a frame carries a
header that names its endpoint, and may end in a trailer of records, some
of which return transmit credits. The router keeps a queue of received
payloads for each endpoint.

What the packet I/O beneath answers is an argument of a call. Credits are
integers; the casts and checks of their 32 bits are written out.
-/

namespace Drv.Ath11k

open Eff (fail look ofExcept)

def htcEndpointCount : Nat := 9
def htcHeaderLen : Nat := 8
def htcMaxLen : Nat := 4096
def htcMaxCtrlMsgLen : UInt16 := 256

/-! ## Services -/

abbrev ServiceId := UInt16

namespace ServiceId

def reserved : ServiceId := 0x0000
def reservedControl : ServiceId := 0x0001
def wmiControl : ServiceId := 0x0100
def wmiDataBe : ServiceId := 0x0101
def wmiDataBk : ServiceId := 0x0102
def wmiDataVi : ServiceId := 0x0103
def wmiDataVo : ServiceId := 0x0104
def wmiControlMac1 : ServiceId := 0x0105
def wmiControlMac2 : ServiceId := 0x0106
def httDataMsg : ServiceId := 0x0300

end ServiceId

open ServiceId

/-- The directions that the table uses. -/
inductive PipeDirection where
  | inward | outward
  deriving DecidableEq

def wcn6750ServiceToPipe : List (ServiceId × PipeDirection × UInt8) :=
  [(wmiDataVo, .outward, 3), (wmiDataVo, .inward, 2),
    (wmiDataBk, .outward, 3), (wmiDataBk, .inward, 2),
    (wmiDataBe, .outward, 3), (wmiDataBe, .inward, 2),
    (wmiDataVi, .outward, 3), (wmiDataVi, .inward, 2),
    (wmiControl, .outward, 3), (wmiControl, .inward, 2),
    (reservedControl, .outward, 0), (reservedControl, .inward, 2),
    (httDataMsg, .outward, 4), (httDataMsg, .inward, 1)]

variable (service : ServiceId)

/-- The last pipe of the table in a direction. -/
def pipeFor (direction : PipeDirection) : Option UInt8 :=
  wcn6750ServiceToPipe.foldl
    (fun found entry => if entry.1 = service ∧ entry.2.1 = direction then some entry.2.2 else found)
    none

/-- The uplink and the downlink pipe of a service. -/
def mapServiceToPipe : Option (UInt8 × UInt8) := do
  let uplink ← pipeFor service .outward
  let downlink ← pipeFor service .inward
  return (uplink, downlink)

/-! ## Messages -/

def leU16 (low high : UInt8) : UInt16 := low.toUInt16 ||| (high.toUInt16 <<< 8)

structure HtcHeader where
  endpoint : UInt8
  flags : UInt8
  payloadLen : UInt16
  controlByte0 : UInt8
  controlByte1 : UInt8

namespace HtcHeader

def encode (h : HtcHeader) : Bytes :=
  [h.endpoint, h.flags, h.payloadLen.toUInt8, (h.payloadLen >>> 8).toUInt8, h.controlByte0,
    h.controlByte1, 0, 0]

def decode : Bytes → Except CeError HtcHeader
  | endpoint :: flags :: low :: high :: control0 :: control1 :: _ :: _ :: _ =>
    .ok ⟨endpoint, flags, leU16 low high, control0, control1⟩
  | _ => .error .invalidFrame

/-- The length of the trailer that the header announces. -/
def trailerLen (h : HtcHeader) : Nat := if h.flags &&& 2 ≠ 0 then h.controlByte0.toNat else 0

end HtcHeader

structure ReadyMessage where
  creditCount : UInt16
  creditSize : UInt16
  maxEndpoints : UInt8

def ReadyMessage.decode : Bytes → Except CeError ReadyMessage
  | id0 :: id1 :: count0 :: count1 :: size0 :: size1 :: maxEndpoints :: _ :: _ =>
    if leU16 id0 id1 ≠ 1 then .error .invalidFrame
    else .ok ⟨leU16 count0 count1, leU16 size0 size1, maxEndpoints⟩
  | _ => .error .invalidFrame

structure ConnectServiceResponse where
  service : ServiceId
  status : UInt8
  endpoint : UInt8
  maxMessageSize : UInt16

def ConnectServiceResponse.decode : Bytes → Except CeError ConnectServiceResponse
  | id0 :: id1 :: service0 :: service1 :: status :: endpoint :: max0 :: max1 :: _ :: _ :: _ :: _
      :: _ =>
    if leU16 id0 id1 ≠ 3 then .error .invalidFrame
    else .ok ⟨leU16 service0 service1, status, endpoint, leU16 max0 max1⟩
  | _ => .error .invalidFrame

structure RxFrame where
  service : ServiceId
  bytes : Bytes
  deriving DecidableEq

/-! ## Endpoints -/

structure Endpoint where
  service : ServiceId
  endpoint : UInt8
  maxMessageLen : UInt16
  uplinkPipe : UInt8
  downlinkPipe : UInt8
  txCredits : Int
  creditFlowEnabled : Bool
  sequence : UInt8

def unusedEndpoint (endpoint : UInt8) : Endpoint where
  service := reserved
  endpoint
  maxMessageLen := 0
  uplinkPipe := 0
  downlinkPipe := 0
  txCredits := 0
  creditFlowEnabled := true
  sequence := 0

structure Htc where
  endpoints : List Endpoint
  serviceAllocations : List (ServiceId × UInt8)
  totalTransmitCredits : UInt16
  targetCreditSize : UInt16
  wmiEndpointCount : UInt8
  creditFlow : Bool
  supportsShadowRegisters : Bool

/-- A conversion to 32 bits. -/
def asI32 (n : Int) : Int := n.bmod (2 ^ 32)

/-- The sum of a credit count and a report, unless it leaves 32 bits. -/
def checkedAdd (credits : Int) (report : UInt8) : Option Int :=
  if credits + report.toNat < 2 ^ 31 then some (credits + report.toNat) else none

namespace Htc

def new (wmiEndpointCount : UInt8) (creditFlow supportsShadowRegisters : Bool) : Htc where
  endpoints := (List.range htcEndpointCount).map fun i => unusedEndpoint (UInt8.ofNat i)
  serviceAllocations := List.replicate 8 (reserved, 0)
  totalTransmitCredits := 0
  targetCreditSize := 0
  wmiEndpointCount
  creditFlow
  supportsShadowRegisters

abbrev OnHtc (α : Type) := Eff Htc Empty CeError α

variable (h : Htc)

def endpointForService : Option Endpoint := h.endpoints.find? fun ep => ep.service = service

/-- The control endpoint was connected. -/
def controlled : Bool := (h.endpoints[0]?).any fun ep => ep.service = reservedControl

def wmiServices : List ServiceId := [wmiControl, wmiControlMac1, wmiControlMac2]

/-- A count out of range leaves the allocations as they are. -/
def allocationsFor (total : UInt16) : List (ServiceId × UInt8) :=
  if h.wmiEndpointCount ≠ 0 ∧ h.wmiEndpointCount ≤ 3 then
    let credits := (total / h.wmiEndpointCount.toUInt16).toUInt8
    let allocated := (wmiServices.take h.wmiEndpointCount.toNat).map (·, credits)
    allocated ++ h.serviceAllocations.drop h.wmiEndpointCount.toNat
  else h.serviceAllocations

def waitTarget (bytes : Bytes) : OnHtc ReadyMessage := do
  let h ← look id
  if !h.controlled then fail .invalidFrame
  else do
    let ready ← ofExcept (ReadyMessage.decode bytes)
    if ready.creditCount = 0 ∨ ready.creditSize = 0 then fail .invalidFrame
    else do
      let total := if h.supportsShadowRegisters then 1 else ready.creditCount
      Eff.modify fun h => { h with
        totalTransmitCredits := total
        targetCreditSize := ready.creditSize
        serviceAllocations := h.allocationsFor total }
      return ready

/-- The last allocation of the service counts. -/
def creditAllocation : UInt8 :=
  h.serviceAllocations.foldl (fun found entry => if entry.1 = service then entry.2 else found) 0

def installEndpoint (endpoint : UInt8) (maxMessageLen : UInt16) (disableCreditFlow : Bool)
    (checkedMaxMessageLen : UInt16) : OnHtc Endpoint := do
  let h ← look id
  match h.endpoints[endpoint.toNat]? with
  | none => fail .invalidFrame
  | some ep =>
    if ep.service ≠ reserved ∨ checkedMaxMessageLen = 0 then fail .invalidFrame
    else
      match mapServiceToPipe service with
      | none => fail .invalidFrame
      | some (uplinkPipe, downlinkPipe) => do
        let installed : Endpoint :=
          { service, endpoint, maxMessageLen, uplinkPipe, downlinkPipe
            txCredits := (h.creditAllocation service).toNat
            creditFlowEnabled := !disableCreditFlow
            sequence := 0 }
        Eff.modify fun h => { h with endpoints := h.endpoints.set endpoint.toNat installed }
        return installed

def connectService (response : Bytes) : OnHtc Endpoint := do
  if service = reservedControl then
    -- 256 is only for the check: the endpoint gets the field of a zeroed response
    installEndpoint service 0 0 true htcMaxCtrlMsgLen
  else do
    let h ← look id
    if !h.controlled ∨ h.targetCreditSize = 0 then fail .invalidFrame
    else do
      let response ← ofExcept (ConnectServiceResponse.decode response)
      if response.status ≠ 0 ∨ response.endpoint.toNat ≥ htcEndpointCount ∨
          response.maxMessageSize = 0 then
        fail .invalidFrame
      else
        installEndpoint service response.endpoint response.maxMessageSize
          (!h.creditFlow || service ∉ wmiServices) response.maxMessageSize

/-! ## Sending -/

/-- The credits of a frame, counted without a width. -/
def cost (ep : Endpoint) (payload : Bytes) : Nat :=
  if h.creditFlow ∧ ep.creditFlowEnabled then
    (payload.length + htcHeaderLen + h.targetCreditSize.toNat - 1) / h.targetCreditSize.toNat
  else 0

/-- Flow control needs the size of a credit. -/
def costKnown (ep : Endpoint) : Bool :=
  !(h.creditFlow && ep.creditFlowEnabled && h.targetCreditSize == 0)

def setEndpoint (endpoint : Nat) (f : Endpoint → Endpoint) : OnHtc Unit :=
  Eff.modify fun h => { h with endpoints := h.endpoints.modify endpoint f }

def send (endpoint : UInt8) (payload : Bytes) : OnHtc Bytes := do
  let h ← look id
  match h.endpoints[endpoint.toNat]? with
  | none => fail .invalidFrame
  | some ep =>
    if ep.service = reserved ∨ !h.costKnown ep then fail .invalidFrame
    else if ep.txCredits < asI32 (h.cost ep payload) then fail .noCredits
    else do
      setEndpoint endpoint.toNat fun ep => { ep with
        txCredits := asI32 (ep.txCredits - asI32 (h.cost ep payload))
        sequence := ep.sequence + 1 }
      let header : HtcHeader :=
        { endpoint, flags := if ep.creditFlowEnabled then 1 else 0
          payloadLen := UInt16.ofNat payload.length, controlByte0 := 0,
          controlByte1 := ep.sequence }
      return header.encode ++ payload

/-! ## Receiving -/

/-- The reports of a record; one for an unknown endpoint ends it. -/
def applyReports : Bytes → List Int → Except CeError (List Int)
  | endpoint :: report :: _ :: _ :: rest, credits =>
    match credits[endpoint.toNat]? with
    | none => .ok credits
    | some old =>
      match checkedAdd old report with
      | none => .error .invalidFrame
      | some new => applyReports rest (credits.set endpoint.toNat new)
  | _, credits => .ok credits

/-- The loop of `process_trailer`. A record takes four bytes at least, so
that as many rounds as bytes are enough. -/
def trailerLoop (creditFlow : Bool) : Nat → Bytes → List Int → Except CeError (List Int)
  | _, [], credits => .ok credits
  | rounds + 1, id :: len :: _ :: _ :: rest, credits =>
    if len.toNat > rest.length then .error .invalidFrame
    else if creditFlow ∧ id = 1 then
      if len.toNat < 4 then .error .invalidFrame
      else do
        let credits ← applyReports (rest.take len.toNat) credits
        trailerLoop creditFlow rounds (rest.drop len.toNat) credits
    else trailerLoop creditFlow rounds (rest.drop len.toNat) credits
  | _, _, _ => .error .invalidFrame

/-- The credits are stored once all records were read. -/
def processTrailer (bytes : Bytes) : OnHtc Unit := do
  let h ← look id
  let credits ← ofExcept
    (trailerLoop h.creditFlow bytes.length bytes (h.endpoints.map Endpoint.txCredits))
  Eff.modify fun h => { h with
    endpoints := List.zipWith (fun ep credits => { ep with txCredits := credits })
      h.endpoints credits }

/-- The payload of a frame whose trailer was processed. -/
def payload (header : HtcHeader) (frame : Bytes) : OnHtc (Option RxFrame) := do
  if header.trailerLen ≥ header.payloadLen.toNat then return none
  else do
    match ← look fun h => h.endpoints[header.endpoint.toNat]? with
    | none => fail .invalidFrame
    | some ep =>
      let dataEnd := htcHeaderLen + header.payloadLen.toNat - header.trailerLen
      return some ⟨ep.service, (frame.take dataEnd).drop htcHeaderLen⟩

def receive (frame : Bytes) : OnHtc (Option RxFrame) := do
  let header ← ofExcept (HtcHeader.decode frame)
  let payloadEnd := htcHeaderLen + header.payloadLen.toNat
  if header.endpoint.toNat ≥ htcEndpointCount ∨ payloadEnd > htcMaxLen then
    fail .invalidFrame
  else if frame.length < payloadEnd then fail .invalidFrame
  else if header.trailerLen = 0 then payload header frame
  else if header.trailerLen < 4 ∨ header.trailerLen > header.payloadLen.toNat then
    fail .invalidFrame
  else do
    processTrailer ((frame.take payloadEnd).drop (payloadEnd - header.trailerLen))
    payload header frame

end Htc

/-! ## The transport -/

namespace HtcTransport

open Htc

/-- `accepted` is what the packet I/O answers. -/
def send (bytes : Bytes) (accepted : Except CeError Unit) : OnHtc Unit := do
  match ← look (·.endpointForService service) with
  | none => fail .invalidFrame
  | some ep => do
    let _ ← Htc.send ep.endpoint bytes
    match accepted with
    | .ok () => return ()
    | .error e => do
      setEndpoint ep.endpoint.toNat fun e => { e with txCredits := ep.txCredits }
      fail e

inductive RxProgress where
  | payload (frame : RxFrame)
  | control

/-- `frame` is what the packet I/O answers. -/
def receiveProgress (frame : Except CeError (Option Bytes)) : OnHtc (Option RxProgress) := do
  match ← ofExcept frame with
  | none => return none
  | some frame =>
    match ← receive frame with
    | some frame => return some (.payload frame)
    | none => return some .control

end HtcTransport

/-! ## The router -/

structure HtcRouterCore where
  htc : Htc
  endpointQueues : List (List Bytes)

namespace HtcRouter

open Htc

abbrev OnRouter (α : Type) := Eff HtcRouterCore Empty CeError α

def new (htc : Htc) : HtcRouterCore := ⟨htc, List.replicate htcEndpointCount []⟩

def onTransport {α : Type} (x : OnHtc α) : OnRouter α :=
  Eff.zoom HtcRouterCore.htc (fun c htc => { c with htc }) x

/-- Route the payload of a frame to the endpoint of its service. -/
def route (frame : RxFrame) : OnRouter Unit := do
  match ← look fun c => c.htc.endpointForService frame.service with
  | none => fail .invalidFrame
  | some ep =>
    Eff.modify fun c => { c with
      endpointQueues := c.endpointQueues.modify ep.endpoint.toNat (· ++ [frame.bytes]) }

/-- One round of `service_receive_bounded`; `false` when nothing came. -/
def serviceFrame (frame : Except CeError (Option Bytes)) : OnRouter Bool := do
  match ← onTransport (HtcTransport.receiveProgress frame) with
  | none => return false
  | some .control => return true
  | some (.payload frame) => do
    route frame
    return true

/-- The rounds that are left, with what the packet I/O answers to each. -/
def serviceReceiveBounded (io : Nat → Except CeError (Option Bytes)) : Nat → OnRouter Nat
  | 0 => return 0
  | budget + 1 => do
    if ← serviceFrame (io budget) then do
      let serviced ← serviceReceiveBounded io budget
      return serviced + 1
    else return 0

/-- The endpoint that a handle for the service is bound to. -/
def endpoint : OnRouter UInt8 := do
  match ← look fun c => c.htc.endpointForService service with
  | none => fail .invalidFrame
  | some ep => return ep.endpoint

end HtcRouter

namespace BoundService

open HtcRouter

def sendPayload (payload : Bytes) (accepted : Except CeError Unit) : OnRouter Unit :=
  onTransport (HtcTransport.send service payload accepted)

def receivePayload (endpoint : UInt8) : OnRouter (Option Bytes) := do
  match ← look fun c => c.endpointQueues[endpoint.toNat]? with
  | some (first :: rest) => do
    Eff.modify fun c => { c with endpointQueues := c.endpointQueues.set endpoint.toNat rest }
    return some first
  | _ => return none

end BoundService

end Drv.Ath11k
