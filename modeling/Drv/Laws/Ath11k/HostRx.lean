import Drv.Ath11k.HostRx
import Drv.Laws.Ath11k.Htc

/-!
# Native WiFi frames there and back

Sending takes the QoS control out of a frame and receiving puts one in,
each with its own reading of the frame control. `QosFrame` is a frame of
which both read the same.

The way back is shown of a unicast frame without mesh control that the
device does not mark as the first of its aggregate.
-/

namespace Drv.Ath11k.HostRx

open List

/-! ## Frame control -/

section
variable {c m v n : UInt16}

theorem and_or_distrib : c &&& (m ||| n) = (c &&& m) ||| (c &&& n) :=
  UInt16.toBitVec_inj.1 BitVec.and_or_distrib_left

theorem and_of_and (h : c &&& m = v) (hn : m &&& n = n) : c &&& n = v &&& n := by
  rw [← h, UInt16.and_assoc, hn]

theorem and_not_of_and (h : c &&& m = 0) : c &&& ~~~m = c := by
  have hall : c &&& (m ||| ~~~m) = c := by simp
  rwa [and_or_distrib, h, UInt16.zero_or] at hall

theorem and_not_or (h : c &&& m = m) : c &&& ~~~m ||| m = c := by
  have hall : c &&& (~~~m ||| m) = c := by simp
  rwa [and_or_distrib, h] at hall

end

/-! ## Ranges -/

section
variable {ε : Type} {b : Bytes} {first last : Nat}

theorem range_eq {reason : Option ε} (h : first ≤ last) (h' : last ≤ b.length) :
    range reason b first last = .ok ((b.take last).drop first) := by
  rw [range, Bytes.between_of_le h h']
  rfl

theorem copyFromSlice_eq (h : first + part.length ≤ b.length) :
    (copyFromSlice b first part : Ranged ε Bytes) = .ok (b.copyAt first part) := if_pos h

theorem frameControl_eq {reason : Option ε} (v : UInt16) (b : Bytes) :
    frameControl reason (toLeBytes v ++ b) = .ok v :=
  congrArg Except.ok (Htc.leU16_split v)

end

/-! ## Sending and receiving again -/

/-- A data frame with a QoS control that is a TID alone, neither protected nor
with the order bit. -/
structure QosFrame where
  control : UInt16
  addresses : Bytes
  tid : Fin 16
  body : Bytes
  data : control &&& 0xc08c = 0x0088
  length : addresses.length = if control &&& 0x0300 = 0x0300 then 28 else 22

namespace QosFrame

variable (f : QosFrame)

def tidByte : UInt8 := .ofNat f.tid

/-- The header in front of the QoS control. -/
def header (control : UInt16) : Bytes := toLeBytes control ++ f.addresses

def bytes : Bytes := f.header f.control ++ [f.tidByte, 0] ++ f.body

/-- The frame without the QoS control. -/
def native : Bytes := f.header (f.control &&& ~~~0x0080) ++ f.body

theorem control_spec : f.control &&& 0x000c = 0x0008 ∧ f.control &&& 0x0080 = 0x0080 ∧
    f.control &&& 0x8000 = 0 ∧ f.control &&& 0x4000 = 0 :=
  ⟨and_of_and f.data (by decide), and_of_and f.data (by decide), and_of_and f.data (by decide),
    and_of_and f.data (by decide)⟩

theorem length_header (control : UInt16) : (f.header control).length =
    if f.control &&& 0x0300 = 0x0300 then 30 else 24 := by
  rw [header, length_append, f.length]
  split <;> rfl

theorem tidByte_spec : f.tidByte &&& 0x0f = f.tidByte ∧
    toLeBytes (f.tidByte.toUInt16 ||| (0 : UInt16) <<< 8) = [f.tidByte, 0] := by
  have hall : ∀ tid : Fin 16, UInt8.ofNat tid &&& 0x0f = UInt8.ofNat tid ∧
    toLeBytes ((UInt8.ofNat tid).toUInt16 ||| (0 : UInt16) <<< 8) = [UInt8.ofNat tid, 0] := by
      decide
  exact hall f.tid

theorem encap_eq : encapNativeWifi f.bytes = .ok (f.native, some f.tidByte) := by
  obtain ⟨hdata, hqos, -⟩ := f.control_spec
  have hlen := f.length_header f.control
  have hbytes : f.bytes = f.header f.control ++ f.tidByte :: 0 :: f.body := by simp [bytes]
  have hle : (f.header f.control).length + 2 ≤ f.bytes.length := by simp [hbytes]
  have hfc : frameControl (some DpError.invalidFrame) f.bytes = .ok f.control := by
    rw [hbytes, header, append_assoc]
    exact frameControl_eq f.control _
  refine bind_eq_ok.mpr ⟨_, hfc, ?_⟩
  rw [if_neg (by rw [hdata]; decide), if_neg (by rw [hqos]; decide), ← hlen, if_neg (by omega)]
  refine bind_eq_ok.mpr ⟨f.tidByte, by simp [index, Bytes.byte, hbytes]; rfl, ?_⟩
  refine bind_eq_ok.mpr ⟨f.header f.control ++ f.body, ?_, ?_⟩
  · refine bind_eq_ok.mpr ⟨_, range_eq (by omega) hle, ?_⟩
    simp [hbytes]
    rfl
  · refine bind_eq_ok.mpr ⟨_, copyFromSlice_eq (by simp [header, toLeBytes]), ?_⟩
    rw [f.tidByte_spec.1]
    rfl

theorem normalize_eq {headerStatus : Bytes} {status : RxDescriptorStatus}
    (hfirst : status.firstMsdu = false) (hmulti : status.multicastBroadcast = false)
    (hmesh : status.meshControlPresent = false) (htid : status.tid = f.tidByte) :
    normalizeNativeWifiFrame f.native headerStatus status true = .ok f.bytes := by
  obtain ⟨-, hqos, horder, hprot⟩ := f.control_spec
  let header := f.header (f.control &&& ~~~0x0080)
  have hnative : f.native = header ++ f.body := rfl
  have hle : header.length ≤ f.native.length := by simp [hnative]
  have hlen : headerLen (f.control &&& ~~~0x0080) = header.length := by
    have haddress : ~~~0x0080 &&& 0x0300 = (0x0300 : UInt16) := by decide
    rw [headerLen, if_neg (by simp [UInt16.and_assoc]), f.length_header, UInt16.and_assoc, haddress]
  have hcontrol : (((f.control &&& ~~~0x0080) ||| 0x0080) &&& ~~~0x8000) &&& ~~~0x4000 =
      f.control := by
    rw [and_not_or hqos, and_not_of_and horder, and_not_of_and hprot]
  have hnorm : normalizeNativeWifi f.native headerStatus status true = .ok f.bytes := by
    refine bind_eq_ok.mpr ⟨header.length, ?_, ?_⟩
    · refine bind_eq_ok.mpr ⟨_, frameControl_eq _ (f.addresses ++ f.body), ?_⟩
      rw [hlen, if_pos hle]
      rfl
    rw [hfirst, hmulti, if_pos (by simp)]
    refine bind_eq_ok.mpr ⟨header, by rw [range_eq (Nat.zero_le _) hle]; simp [hnative], ?_⟩
    refine bind_eq_ok.mpr ⟨_, frameControl_eq _ f.addresses, ?_⟩
    refine bind_eq_ok.mpr ⟨_, copyFromSlice_eq (by simp [header, QosFrame.header, toLeBytes]), ?_⟩
    refine bind_eq_ok.mpr ⟨[], by rw [range_eq (by simp) (by simpa using hle)]; simp, ?_⟩
    refine bind_eq_ok.mpr ⟨f.body, by rw [range_eq hle le_rfl, take_length]; simp [hnative], ?_⟩
    simp only [hmesh, htid, hcontrol, Bool.not_false, Bool.and_self, if_true, if_false,
      Bool.false_eq_true, f.tidByte_spec.2, append_nil]
    rfl
  rw [normalizeNativeWifiFrame, hnorm]
  rfl

end QosFrame

/-- A frame that is sent and received again has lost nothing but its QoS
control, which the descriptor tells; a frame without one is sent as it is. -/
theorem native_wifi_restored (headerStatus : Bytes) (status : RxDescriptorStatus) :
    (∀ f : QosFrame, status.firstMsdu = false → status.multicastBroadcast = false →
      status.meshControlPresent = false → status.tid = f.tidByte →
      ∃ native, encapNativeWifi f.bytes = .ok (native, some f.tidByte) ∧
        normalizeNativeWifiFrame native headerStatus status true = .ok f.bytes) ∧
    ∀ control body, control &&& 0x008c = 0x0008 →
      encapNativeWifi (toLeBytes control ++ body) = .ok (toLeBytes control ++ body, none) := by
  refine ⟨fun f hfirst hmulti hmesh htid => ?_, fun control body hcontrol => ?_⟩
  · exact ⟨f.native, f.encap_eq, f.normalize_eq hfirst hmulti hmesh htid⟩
  · have hdata : control &&& 0x000c = 0x0008 := and_of_and hcontrol (by decide)
    have hqos : control &&& 0x0080 = 0 := and_of_and hcontrol (by decide)
    refine bind_eq_ok.mpr ⟨_, frameControl_eq control body, ?_⟩
    rw [if_neg (by rw [hdata]; decide), if_pos hqos]
    rfl

/-- A frame between two access points, with all four addresses. -/
def relayed : QosFrame where
  control := 0x0388
  addresses := replicate 28 2
  tid := 5
  body := [1, 2, 3]
  data := by decide
  length := by decide

theorem native_wifi_restored_relayed :
    ∃ native, encapNativeWifi relayed.bytes = .ok (native, some 5) ∧
      normalizeNativeWifiFrame native [] ⟨false, false, false, 5, 0⟩ true = .ok relayed.bytes :=
  (native_wifi_restored [] ⟨false, false, false, 5, 0⟩).1 relayed rfl rfl rfl rfl

end Drv.Ath11k.HostRx
