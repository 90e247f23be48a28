import Drv.Wire.Codec

/-!
# The parts of a packet read back

One law per part of the control wire, each assembled from the parts it
contains: `Lawful maxPacket enc dec P` says that `dec` takes back what
`enc` wrote in a packet-sized space, for the values `P`, and accepts
nothing but what `enc` writes for them.

For almost every part `P` is `Known`, the values whose flexible
enumerations the schema names. The scan request is the exception: its
reader also bounds the number of SSIDs.
-/

namespace Drv.Wire

open Drv.Fidl BssDescription Reader

/-! ## Primitives -/

theorem u8_lawful : Lawful maxPacket putU8 u8 fun _ => True := takeU8_lawful _ _
theorem u16_lawful : Lawful maxPacket putU16 u16 fun _ => True := takeU16_lawful _ _
theorem u32_lawful : Lawful maxPacket putU32 u32 fun _ => True := takeU32_lawful _ _
theorem u64_lawful : Lawful maxPacket putU64 u64 fun _ => True := takeU64_lawful _ _

theorem array_lawful (n : Nat) : Lawful maxPacket putArray (array n) fun _ => True :=
  takeArray_lawful _ _ n

theorem vec_lawful {max : Nat} (name : String) (hmax : max ≤ maxPacket) :
    Lawful maxPacket (fun v => putVec v max name) (vec max name) fun _ => True :=
  takeVec_lawful _ _ (by unfold maxPacket at hmax; omega)

theorem bool_lawful : Lawful maxPacket putBool bool fun _ => True where
  reads := by
    rintro b bs - hput -
    cases hput
    cases b <;> exact fun rest => rfl
  exact := by
    intro input b rest hget
    obtain ⟨t, mid, rfl, hb⟩ := tag_bind_eq_ok.mp hget
    split at hb
    next => cases hb; exact ⟨trivial, [0], rfl, rfl⟩
    next => cases hb; exact ⟨trivial, [1], rfl, rfl⟩
    next => cases hb

theorem i8_lawful : Lawful maxPacket putI8 decI8 fun _ => True :=
  u8_lawful.con UInt8.toInt8 (fun _ _ => rfl) fun v =>
    ⟨fun _ => ⟨v.toUInt8, trivial, v.toInt8_toUInt8⟩, fun _ => trivial⟩

theorem i64_lawful : Lawful maxPacket putI64 decI64 fun _ => True :=
  u64_lawful.con UInt64.toInt64 (fun _ _ => rfl) fun v =>
    ⟨fun _ => ⟨v.toUInt64, trivial, v.toInt64_toUInt64⟩, fun _ => trivial⟩

theorem okOr_eq_ok {α : Type} {value : Option α} {e : Error} {a : α} :
    okOr value e = .ok a ↔ value = some a := by
  cases value with
  | none => simp [okOr]
  | some => simp [okOr]

theorem flexible_lawful {R : Type} {named : R → Bool} {put : R → Put Error} {get : Get Error R}
    (h : Lawful maxPacket put get fun _ => True) (name : String) (widen : R → UInt64) :
    Lawful maxPacket (fun v : Flexible R named => put v.intoPrimitive)
      (decFlexible name get widen) Flexible.Known :=
  h.through Flexible.intoPrimitive (fun _ _ => trivial) fun raw v _ => by
    rw [okOr_eq_ok, Flexible.fromPrimitive_eq_some]

/-- An enumeration whose reader accepts exactly the discriminants. -/
theorem enum_lawful {R E : Type} {put : R → Put Error} {get : Get Error R}
    (h : Lawful maxPacket put get fun _ => True) {disc : E → R} {dec : R → Except Error E}
    (hdec : ∀ n v, dec n = .ok v ↔ disc v = n) :
    Lawful maxPacket (fun v => put (disc v)) (get >>= fun n => Get.check (dec n))
      fun _ => True :=
  h.through disc (fun _ _ => trivial) fun n v _ => by rw [hdec, and_true]

theorem option_lawful {α : Type} {put : α → Put Error} {get : Get Error α} {P : α → Prop}
    (name : String) (h : Lawful maxPacket put get P) :
    Lawful maxPacket (encOption put) (do
      match ← u8 with
      | 0 => return none
      | 1 => return some (← get)
      | n => throw (.unknownDiscriminant name n.toUInt64)) fun v => ∀ a ∈ v, P a where
  reads := by
    intro v bs hP hput hlen
    cases v with
    | none => cases hput; exact fun rest => rfl
    | some a => exact h.tag_reads some rfl (hP a rfl) hput hlen
  exact := by
    intro input v rest hget
    obtain ⟨t, mid, rfl, hv⟩ := tag_bind_eq_ok.mp hget
    split at hv
    next => cases hv; exact ⟨by simp, [0], rfl, rfl⟩
    next => exact h.tag_exact (Q := fun v => ∀ a ∈ v, P a) hv (by simp) fun _ => rfl
    next => cases hv

/-! ## Enumerations -/

variable (n : UInt32)

theorem decScanType_eq_ok (v : ScanType) : decScanType n = .ok v ↔ v.toU32 = n := by
  constructor
  · intro h
    unfold decScanType at h
    split at h <;> cases h <;> rfl
  · rintro rfl
    cases v <;> rfl

theorem decScanError_eq_ok (v : ScanErrorCode) : decScanError n = .ok v ↔ v.toU32 = n := by
  constructor
  · intro h
    unfold decScanError at h
    split at h <;> cases h <;> rfl
  · rintro rfl
    cases v <;> rfl

theorem decMlmeEventName_eq_ok (v : DisconnectMlmeEventName) :
    decMlmeEventName n = .ok v ↔ v.toU32 = n := by
  constructor
  · intro h
    unfold decMlmeEventName at h
    split at h <;> cases h <;> rfl
  · rintro rfl
    cases v <;> rfl

theorem decDisconnectReason_eq_ok (v : UserDisconnectReason) :
    decDisconnectReason n = .ok v ↔ v.toU32 = n := by
  constructor
  · intro h
    unfold decDisconnectReason at h
    split at h <;> cases h <;> rfl
  · rintro rfl
    cases v <;> rfl

theorem decCommandReply_eq_ok (n : UInt8) (v : CommandReply) :
    decCommandReply n = .ok v ↔ commandReply v = n := by
  constructor
  · intro h
    unfold decCommandReply at h
    split at h <;> cases h <;> rfl
  · rintro rfl
    cases v <;> rfl

theorem decGenerationEnd_eq_ok (n : UInt8) (v : GenerationEndReason) :
    decGenerationEnd n = .ok v ↔ generationEnd v = n := by
  constructor
  · intro h
    unfold decGenerationEnd at h
    split at h <;> cases h <;> rfl
  · rintro rfl
    cases v <;> rfl

theorem decPowerSaveMode_eq_ok (n : UInt8) (v : PowerSaveMode) :
    decPowerSaveMode n = .ok v ↔ powerSaveMode v = n := by
  constructor
  · intro h
    unfold decPowerSaveMode at h
    split at h <;> cases h <;> rfl
  · rintro rfl
    cases v <;> rfl

theorem fromUtf8_eq_ok (bytes : Bytes) (s : String) :
    fromUtf8 bytes = .ok s ↔ asBytes s = bytes := by
  rw [fromUtf8, okOr_eq_ok, asBytes, String.toUTF8, String.fromUTF8?]
  constructor
  · intro h
    split at h
    next => cases h; rfl
    next => cases h
  · rintro rfl
    rw [dif_pos s.isValidUTF8]
    rfl

/-! ## BSS descriptions and connect requests -/

theorem channel_lawful : Lawful maxPacket encChannel decChannel ChannelNumber.Known := by
  refine (flexible_lawful u8_lawful _ _).field ChannelNumber.band (fun _ h => h)
    fun band hband => ?_
  refine u8_lawful.plain ChannelNumber.number fun number => ?_
  refine .done ⟨rfl, rfl, hband⟩ ?_
  rintro _ ⟨rfl, rfl, -⟩
  rfl

theorem protocol_lawful : Lawful maxPacket (fun v : Protocol => putU32 v.intoPrimitive)
    decProtocol Flexible.Known := flexible_lawful u32_lawful _ _

theorem bss_lawful : Lawful maxPacket encBss decBss Known := by
  refine (array_lawful 6).plain bssid fun bssid => ?_
  refine (flexible_lawful u32_lawful _ _).field bssType (fun _ h => h.2.1) fun bssType hType => ?_
  refine u16_lawful.plain beaconPeriod fun period => ?_
  refine u16_lawful.plain capabilityInfo fun info => ?_
  refine (vec_lawful _ (by decide)).plain ies fun ies => ?_
  refine channel_lawful.field primary (fun _ h => h.2.2.2.2.2.2.1) fun primary hPrimary => ?_
  refine (flexible_lawful u32_lawful _ _).field bandwidth
    (fun _ h => h.2.2.2.2.2.2.2.2.1) fun bandwidth hBandwidth => ?_
  refine channel_lawful.field vhtSecondary80Channel
    (fun _ h => h.2.2.2.2.2.2.2.2.2.2) fun secondary hSecondary => ?_
  refine i8_lawful.plain rssiDbm fun rssi => ?_
  refine i8_lawful.plain snrDb fun snr => ?_
  refine .done ⟨rfl, rfl, rfl, rfl, rfl, rfl, rfl, rfl, rfl, rfl, hType, hPrimary,
    hBandwidth, hSecondary⟩ ?_
  rintro _ ⟨rfl, rfl, rfl, rfl, rfl, rfl, rfl, rfl, rfl, rfl, -⟩
  rfl

theorem credentials_lawful : Lawful maxPacket encCredentials decCredentials fun _ => True where
  reads := by
    rintro v bs - hput hlen
    cases v with
    | wep => exact (vec_lawful _ (by decide)).tag_reads Credentials.wep rfl trivial hput hlen
    | wpa credentials =>
      cases credentials with
      | psk psk => exact (array_lawful 32).tag_reads (Credentials.wpa ∘ .psk) rfl trivial hput hlen
      | passphrase =>
        exact (vec_lawful _ (by decide)).tag_reads (Credentials.wpa ∘ .passphrase) rfl trivial
          hput hlen
      | unknown => cases hput
    | unknown => cases hput
  exact := by
    intro input v rest hget
    obtain ⟨t, mid, rfl, hv⟩ := tag_bind_eq_ok.mp hget
    split at hv
    next =>
      exact (vec_lawful _ (by decide)).tag_exact (Q := fun _ => True) hv
        (fun _ _ => trivial) fun _ => rfl
    next =>
      exact (array_lawful 32).tag_exact (Q := fun _ => True) hv (fun _ _ => trivial) fun _ => rfl
    next =>
      exact (vec_lawful _ (by decide)).tag_exact (Q := fun _ => True) hv
        (fun _ _ => trivial) fun _ => rfl
    next => cases hv

theorem auth_lawful : Lawful maxPacket encAuth decAuth Authentication.Known := by
  refine protocol_lawful.field Authentication.protocol (fun _ h => h) fun protocol hProtocol => ?_
  refine (option_lawful "Option<Credentials>" credentials_lawful).field Authentication.credentials
    (fun _ _ _ _ => trivial) fun credentials _ => ?_
  refine .done ⟨rfl, rfl, hProtocol⟩ ?_
  rintro _ ⟨rfl, rfl, -⟩
  rfl

theorem connect_lawful : Lawful maxPacket encConnect decConnect ConnectRequest.Known := by
  refine (vec_lawful _ (by decide)).plain ConnectRequest.ssid fun ssid => ?_
  refine bss_lawful.field ConnectRequest.bssDescription (fun _ h => h.2.1) fun bss hBss => ?_
  refine bool_lawful.plain ConnectRequest.multipleBssCandidates fun multiple => ?_
  refine auth_lawful.field ConnectRequest.authentication (fun _ h => h.2.2.2.2) fun auth hAuth => ?_
  refine (enum_lawful u32_lawful decScanType_eq_ok).plain ConnectRequest.deprecatedScanType
    fun scanType => ?_
  refine .done ⟨rfl, rfl, rfl, rfl, rfl, hBss, hAuth⟩ ?_
  rintro _ ⟨rfl, rfl, rfl, rfl, rfl, -⟩
  rfl

/-! ## Scans -/

theorem vec_length_pos {v bs : Bytes} {max : Nat} {name : String}
    (h : putVec v max name = .ok bs) : 4 ≤ bs.length := by
  obtain ⟨-, h⟩ := guard_eq_ok.mp h
  obtain ⟨as, cs, ⟨⟩, -, rfl⟩ := Put.seq_cons_eq_ok.mp h
  simp only [List.length_append, Bytes.length_ofNatLE]
  omega

/-- The domain of the scan request codec: the SSIDs the reader admits. -/
def Admissible : ScanRequest → Prop
  | .active request => request.ssids.length ≤ 84
  | .passive _ => True

theorem activeScan_lawful :
    Lawful maxPacket encActiveScan decActiveScan fun r => r.ssids.length ≤ 84 := by
  refine (takeCounted_lawful (vec_lawful "SSID" (by decide)) _ _ (by decide)
    fun ssid bs h => Nat.le_trans (by decide) (vec_length_pos h)).field ActiveScanRequest.ssids
    (fun _ h => ⟨h, fun _ _ => trivial⟩) fun ssids hcnt => ?_
  refine (vec_lawful _ (by decide)).plain ActiveScanRequest.channels fun channels => ?_
  refine .done ⟨rfl, rfl, hcnt.1⟩ ?_
  rintro _ ⟨rfl, rfl, -⟩
  rfl

theorem scan_lawful : Lawful maxPacket encScan decScan Admissible where
  reads := by
    intro v bs hP hput hlen
    cases v with
    | active => exact activeScan_lawful.tag_reads ScanRequest.active rfl hP hput hlen
    | passive =>
      exact (vec_lawful _ (by decide)).tag_reads ScanRequest.passive rfl trivial hput hlen
  exact := by
    intro input v rest hget
    obtain ⟨t, mid, rfl, hv⟩ := tag_bind_eq_ok.mp hget
    split at hv
    next => exact activeScan_lawful.tag_exact hv (fun _ => id) fun _ => rfl
    next => exact (vec_lawful _ (by decide)).tag_exact hv (fun _ _ => trivial) fun _ => rfl
    next => cases hv

theorem disjoint_lawful :
    Lawful maxPacket encDisjoint decDisjoint DisjointSecurityProtocol.Known := by
  refine protocol_lawful.field DisjointSecurityProtocol.protocol (fun _ h => h.1)
    fun protocol hProtocol => ?_
  refine (flexible_lawful u32_lawful _ _).field DisjointSecurityProtocol.role
    (fun _ h => h.2.2) fun role hRole => ?_
  refine .done ⟨rfl, rfl, hProtocol, hRole⟩ ?_
  rintro _ ⟨rfl, rfl, -⟩
  rfl

variable {bs : Bytes}

theorem u32_length {v : UInt32} (h : (putU32 v : Put Error) = .ok bs) : bs.length = 4 := by
  cases h
  exact Bytes.length_ofNatLE ..

theorem disjoint_length {v : DisjointSecurityProtocol} (h : encDisjoint v = .ok bs) :
    8 ≤ bs.length := by
  obtain ⟨as, cs, ha, hc, rfl⟩ := Put.seq_cons_eq_ok.mp h
  obtain ⟨es, fs, he, -, rfl⟩ := Put.seq_cons_eq_ok.mp hc
  simp only [List.length_append, u32_length ha, u32_length he]
  omega

theorem incompatible_lawful :
    Lawful maxPacket encIncompatible decIncompatible Incompatible.Known := by
  refine ((vec_lawful _ le_rfl).through asBytes (fun _ _ => trivial) fun bytes s _ => by
    rw [fromUtf8_eq_ok, iff_self_and]; exact fun _ => trivial).plain Incompatible.description
    fun description => ?_
  refine (option_lawful _ (takeCounted_lawful_of_width disjoint_lawful _ _ (by decide) (by decide)
    (by decide) fun v bs h => disjoint_length h)).field Incompatible.disjointSecurityProtocols
    (fun _ h => h.2) fun disjoint hDisjoint => ?_
  refine .done ⟨rfl, rfl, hDisjoint⟩ ?_
  rintro _ ⟨rfl, rfl, -⟩
  rfl

theorem compatibility_lawful :
    Lawful maxPacket encCompatibility decCompatibility Compatibility.Known := by
  have hprots : Lawful maxPacket (putCounted fun p : Protocol => putU32 p.intoPrimitive)
      (counted (maxPacket / 4) "security protocols" decProtocol) fun ps =>
        ∀ p ∈ ps, p.Known :=
    takeCounted_lawful_of_width protocol_lawful _ _ (by decide) (by decide) (by decide)
      fun p bs h => (u32_length h).ge
  constructor
  · intro v bs hP hput hlen
    cases v with
    | compatible => exact hprots.tag_reads Compatibility.compatible rfl hP hput hlen
    | incompatible =>
      exact incompatible_lawful.tag_reads Compatibility.incompatible rfl hP hput hlen
  · intro input v rest hget
    obtain ⟨t, mid, rfl, hv⟩ := tag_bind_eq_ok.mp hget
    split at hv
    next => exact hprots.tag_exact hv (fun _ => id) fun _ => rfl
    next => exact incompatible_lawful.tag_exact hv (fun _ => id) fun _ => rfl
    next => cases hv

theorem scanResult_lawful : Lawful maxPacket encScanResult decScanResult ScanResult.Known := by
  refine compatibility_lawful.field ScanResult.compatibility (fun _ h => h.1)
    fun compatibility hCompatibility => ?_
  refine i64_lawful.plain ScanResult.timestampNanos fun timestamp => ?_
  refine bss_lawful.field ScanResult.bssDescription (fun _ h => h.2.2.2) fun bss hBss => ?_
  refine .done ⟨rfl, rfl, rfl, hCompatibility, hBss⟩ ?_
  rintro _ ⟨rfl, rfl, rfl, -⟩
  rfl

theorem scanResult_length {v : ScanResult} (h : encScanResult v = .ok bs) : 1 ≤ bs.length := by
  obtain ⟨as, cs, -, hc, rfl⟩ := Put.seq_cons_eq_ok.mp h
  obtain ⟨es, fs, he, -, rfl⟩ := Put.seq_cons_eq_ok.mp hc
  cases he
  simp only [List.length_append, Bytes.length_ofNatLE]
  omega

/-- The scan results of a reply, when it has them, are known. -/
def ResultsKnown : Except ScanErrorCode (List ScanResult) → Prop
  | .ok results => ∀ r ∈ results, r.Known
  | .error _ => True

theorem scanReply_lawful : Lawful maxPacket encScanReply decScanReply ResultsKnown := by
  have hresults : Lawful maxPacket (putCounted encScanResult)
      (counted maxPacket "scan results" decScanResult) fun rs => ∀ r ∈ rs, r.Known :=
    takeCounted_lawful_of_width scanResult_lawful _ _ (by decide) le_rfl (by decide)
      fun v bs h => scanResult_length h
  have herr := enum_lawful u32_lawful decScanError_eq_ok
  constructor
  · intro v bs hP hput hlen
    cases v with
    | ok => exact hresults.tag_reads Except.ok rfl hP hput hlen
    | error => exact herr.tag_reads Except.error rfl trivial hput hlen
  · intro input v rest hget
    obtain ⟨t, mid, rfl, hv⟩ := tag_bind_eq_ok.mp hget
    split at hv
    next => exact hresults.tag_exact hv (fun _ => id) fun _ => rfl
    next => exact herr.tag_exact hv (fun _ _ => trivial) fun _ => rfl
    next => cases hv

/-! ## Events -/

theorem connectResult_lawful :
    Lawful maxPacket encConnectResult decConnectResult ConnectResult.Known := by
  refine (flexible_lawful u16_lawful _ _).field ConnectResult.code (fun _ h => h)
    fun code hCode => ?_
  refine bool_lawful.plain ConnectResult.isCredentialRejected fun rejected => ?_
  refine bool_lawful.plain ConnectResult.isReconnect fun reconnect => ?_
  refine .done ⟨rfl, rfl, rfl, hCode⟩ ?_
  rintro _ ⟨rfl, rfl, rfl, -⟩
  rfl

theorem connectReply_lawful : Lawful maxPacket encConnectReply decConnectReply
    fun | .completed result => result.Known where
  reads := by
    rintro ⟨result⟩ bs hP hput hlen
    exact connectResult_lawful.tag_reads ConnectReply.completed rfl hP hput hlen
  exact := by
    intro input v rest hget
    obtain ⟨t, mid, rfl, hv⟩ := tag_bind_eq_ok.mp hget
    split at hv
    next =>
      have hput (a) : encConnectReply (.completed a) = Put.seq [putU8 1, encConnectResult a] := rfl
      exact connectResult_lawful.tag_exact (Q := fun | .completed result => result.Known) hv
        (fun _ => id) hput
    next => cases hv

theorem cause_lawful : Lawful maxPacket encCause decCause DisconnectCause.Known := by
  refine (enum_lawful u32_lawful decMlmeEventName_eq_ok).plain DisconnectCause.mlmeEventName
    fun name => ?_
  refine (flexible_lawful u16_lawful _ _).field DisconnectCause.reasonCode (fun _ h => h.2)
    fun code hCode => ?_
  refine .done ⟨rfl, rfl, hCode⟩ ?_
  rintro _ ⟨rfl, rfl, -⟩
  rfl

theorem disconnectSource_lawful :
    Lawful maxPacket encDisconnectSource decDisconnectSource DisconnectSource.Known := by
  have huser := enum_lawful u32_lawful decDisconnectReason_eq_ok
  constructor
  · intro v bs hP hput hlen
    cases v with
    | ap => exact cause_lawful.tag_reads DisconnectSource.ap rfl hP hput hlen
    | user => exact huser.tag_reads DisconnectSource.user rfl trivial hput hlen
    | mlme => exact cause_lawful.tag_reads DisconnectSource.mlme rfl hP hput hlen
  · intro input v rest hget
    obtain ⟨t, mid, rfl, hv⟩ := tag_bind_eq_ok.mp hget
    split at hv
    next => exact cause_lawful.tag_exact hv (fun _ => id) fun _ => rfl
    next => exact huser.tag_exact hv (fun _ _ => trivial) fun _ => rfl
    next => exact cause_lawful.tag_exact hv (fun _ => id) fun _ => rfl
    next => cases hv

theorem disconnectInfo_lawful :
    Lawful maxPacket encDisconnectInfo decDisconnectInfo DisconnectInfo.Known := by
  refine bool_lawful.plain DisconnectInfo.isSmeReconnecting fun reconnecting => ?_
  refine disconnectSource_lawful.field DisconnectInfo.disconnectSource (fun _ h => h.2)
    fun source hSource => ?_
  refine .done ⟨rfl, rfl, hSource⟩ ?_
  rintro _ ⟨rfl, rfl, -⟩
  rfl

theorem roamResult_lawful : Lawful maxPacket encRoamResult decRoamResult RoamResult.Known := by
  refine (array_lawful 6).plain RoamResult.bssid fun bssid => ?_
  refine (flexible_lawful u16_lawful _ _).field RoamResult.statusCode (fun _ h => h.2.1)
    fun code hCode => ?_
  refine bool_lawful.plain RoamResult.originalAssociationMaintained fun maintained => ?_
  refine (option_lawful _ bss_lawful).field RoamResult.bssDescription
    (fun _ h => h.2.2.2.2.1) fun bss hBss => ?_
  refine (option_lawful _ disconnectInfo_lawful).field RoamResult.disconnectInfo
    (fun _ h => h.2.2.2.2.2.2) fun info hInfo => ?_
  refine bool_lawful.plain RoamResult.isCredentialRejected fun rejected => ?_
  refine .done ⟨rfl, rfl, rfl, rfl, rfl, rfl, hCode, hBss, hInfo⟩ ?_
  rintro _ ⟨rfl, rfl, rfl, rfl, rfl, rfl, -⟩
  rfl

theorem signalReport_lawful : Lawful maxPacket encSignalReport decSignalReport fun _ => True := by
  refine i8_lawful.plain SignalReportIndication.rssiDbm fun rssi => ?_
  refine i8_lawful.plain SignalReportIndication.snrDb fun snr => ?_
  refine .done ⟨rfl, rfl, trivial⟩ ?_
  rintro _ ⟨rfl, rfl, -⟩
  rfl

theorem channelSwitch_lawful :
    Lawful maxPacket encChannelSwitch decChannelSwitch ChannelSwitchInfo.Known := by
  refine channel_lawful.field ChannelSwitchInfo.newPrimaryChannel (fun _ h => h.1)
    fun primary hPrimary => ?_
  refine (flexible_lawful u32_lawful _ _).field ChannelSwitchInfo.bandwidth (fun _ h => h.2.2.1)
    fun bandwidth hBandwidth => ?_
  refine channel_lawful.field ChannelSwitchInfo.vhtSecondary80Channel (fun _ h => h.2.2.2.2)
    fun secondary hSecondary => ?_
  refine .done ⟨rfl, rfl, rfl, hPrimary, hBandwidth, hSecondary⟩ ?_
  rintro _ ⟨rfl, rfl, rfl, -⟩
  rfl

theorem event_lawful : Lawful maxPacket encEvent decEvent ConnectTransactionEvent.Known where
  reads := by
    intro v bs hP hput hlen
    cases v with
    | onConnectResult =>
      exact connectResult_lawful.tag_reads ConnectTransactionEvent.onConnectResult rfl hP hput hlen
    | onDisconnect =>
      exact disconnectInfo_lawful.tag_reads ConnectTransactionEvent.onDisconnect rfl hP hput hlen
    | onRoamResult =>
      exact roamResult_lawful.tag_reads ConnectTransactionEvent.onRoamResult rfl hP hput hlen
    | onSignalReport =>
      exact signalReport_lawful.tag_reads ConnectTransactionEvent.onSignalReport rfl hP hput hlen
    | onChannelSwitched =>
      exact channelSwitch_lawful.tag_reads ConnectTransactionEvent.onChannelSwitched rfl hP hput
        hlen
  exact := by
    intro input v rest hget
    obtain ⟨t, mid, rfl, hv⟩ := tag_bind_eq_ok.mp hget
    split at hv
    next => exact connectResult_lawful.tag_exact hv (fun _ => id) fun _ => rfl
    next => exact disconnectInfo_lawful.tag_exact hv (fun _ => id) fun _ => rfl
    next => exact roamResult_lawful.tag_exact hv (fun _ => id) fun _ => rfl
    next => exact signalReport_lawful.tag_exact hv (fun _ _ => trivial) fun _ => rfl
    next => exact channelSwitch_lawful.tag_exact hv (fun _ => id) fun _ => rfl
    next => cases hv

end Drv.Wire
