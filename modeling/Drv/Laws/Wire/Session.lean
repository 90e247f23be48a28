import Drv.Laws.Wire.Packet
import Drv.Wire.Session

/-!
# Sessions deliver in order

A peer that reads all that the control server wrote receives the packets
that it made (`Sound.received`), as long as they can be read at all.

Nothing is said of a peer that stops reading, or of how long a packet
waits.
-/

namespace Drv.Wire

open List Bytes SessionValidator

theorem receive_encoded {received : List Packet × SessionValidator} {p : Packet} {bytes : Bytes}
    (hput : encode p = .ok bytes) (hm : Readable p.message)
    (hgen : p.generation = received.2.generation) (hlt : received.2.lastRequestId < p.requestId) :
    receive received bytes =
      .ok (received.1 ++ [p], ⟨p.generation, p.requestId⟩) := by
  obtain ⟨hid, kind, body, hbody, hlen, rfl⟩ := encode_eq_ok.mp hput
  have hreads := message_reads hm hbody (by omega) []
  rw [append_nil] at hreads
  refine bind_eq_ok.mpr ⟨p, decode_eq_ok.mpr ⟨hid, kind, body, hreads, hlen, rfl⟩, ?_⟩
  refine bind_eq_ok.mpr ⟨⟨p.generation, p.requestId⟩, ?_, rfl⟩
  rw [validate, if_neg (not_not.mpr hgen), if_neg hid, if_neg (UInt64.not_le.mpr hlt), hgen]

namespace ControlServer

/-- The end of a generation has room that other packets leave. -/
def limits (terminal : Bool) : Nat × Nat :=
  if terminal then (maxOutboundPackets, maxOutboundBytes) else (normalPacketLimit, normalByteLimit)

structure Sound (s : ControlServer) : Prop where
  received : (∀ p ∈ s.packets, Readable p.message) → ∃ last,
    (s.sent ++ s.outbound).foldlM receive ([], .new s.generation) =
      .ok (s.packets, ⟨s.generation, last⟩) ∧ (s.terminal = false → last < s.nextRequestId)
  bytes : s.outboundBytes = (s.outbound.map length).sum
  packetLimit : s.outbound.length ≤ (limits s.terminal).1
  byteLimit : s.outboundBytes ≤ (limits s.terminal).2

variable {s t : ControlServer} (h : Sound s)
include h

theorem Sound.within : s.outbound.length ≤ maxOutboundPackets ∧
    s.outboundBytes ≤ maxOutboundBytes := by
  have hmax : limits s.terminal ≤ (maxOutboundPackets, maxOutboundBytes) := by
    cases s.terminal <;> decide
  exact ⟨h.packetLimit.trans hmax.1, h.byteLimit.trans hmax.2⟩

theorem Sound.push {message : Message} {terminal : Bool} (hlive : s.terminal = false)
    (ht : s.push message terminal = .ok t)
    (hnext : terminal = false → s.nextRequestId < s.nextRequestId + 1)
    (hpackets : s.outbound.length < (limits terminal).1)
    (hbytes : t.outboundBytes ≤ (limits terminal).2) : Sound t := by
  obtain ⟨bytes, hput, ⟨⟩⟩ := bind_eq_ok.mp ht
  refine ⟨fun hreadable => ?_, by simp [h.bytes], (length_append ..).trans_le hpackets, hbytes⟩
  obtain ⟨hold, hm⟩ := forall_mem_append.mp hreadable
  obtain ⟨last, hlast, hlt⟩ := h.received hold
  refine ⟨s.nextRequestId, ?_, hnext⟩
  show (s.sent ++ (s.outbound ++ [bytes])).foldlM _ _ = _
  rw [← append_assoc, foldlM_append, hlast]
  refine bind_eq_ok.mpr ⟨_, rfl, bind_eq_ok.mpr ⟨_, ?_, rfl⟩⟩
  exact receive_encoded hput (hm _ mem_cons_self) rfl (hlt hlive)

theorem queue_sound {message : Message} (hlive : s.terminal = false)
    (ht : s.queue message = .ok t) : Sound t := by
  unfold queue at ht
  split at ht
  · cases ht
  next hpush =>
    obtain ⟨hroom, ht⟩ := guard_eq_ok.mp ht
    obtain ⟨hmax, ⟨⟩⟩ := guard_eq_ok.mp ht
    rw [not_or, Nat.not_le, Nat.not_lt] at hroom
    rw [hlive] at hpush
    refine h.push hlive hpush (fun _ => ?_) hroom.1 hroom.2
    rw [← UInt64.toNat_inj] at hmax
    rw [UInt64.lt_iff_toNat_lt, UInt64.toNat_add]
    have := s.nextRequestId.toNat_lt
    simp at hmax ⊢
    omega

theorem endGeneration_sound {reason : GenerationEndReason}
    (ht : s.endGeneration reason = .ok t) : Sound t := by
  unfold endGeneration at ht
  split at ht
  · cases ht
    exact h
  next hlive =>
    rw [Bool.not_eq_true] at hlive
    have hpackets := h.packetLimit
    have hbytes := h.byteLimit
    rw [hlive] at hpackets hbytes
    refine h.push hlive ht nofun (Nat.lt_succ_of_le hpackets) ?_
    obtain ⟨bytes, hput, ⟨⟩⟩ := bind_eq_ok.mp ht
    obtain ⟨-, kind, body, -, hlen, rfl⟩ := encode_eq_ok.mp hput
    rw [← length_frame] at hlen
    exact (Nat.add_le_add hbytes hlen).trans (by decide)

theorem flush_sound : Sound s.flush := by
  unfold flush
  split
  · exact h
  next bytes rest hout =>
    obtain ⟨hreceived, hbytes, hpackets, hlimit⟩ := h
    rw [hout] at hreceived hbytes hpackets
    refine ⟨by simpa using hreceived, Nat.sub_eq_of_eq_add' hbytes, ?_, ?_⟩
    · exact (Nat.le_succ _).trans hpackets
    · exact (Nat.sub_le ..).trans hlimit

theorem step_sound (event : Event) : Sound (s.step event) := by
  cases event with
  | queue message =>
    show Sound (if s.terminal then s else (s.queue message).toOption.getD s)
    split
    · exact h
    next hlive =>
      cases hqueue : s.queue message with
      | error => exact h
      | ok t => exact queue_sound h (Bool.eq_false_of_not_eq_true hlive) hqueue
  | endGeneration reason =>
    show Sound ((s.endGeneration reason).toOption.getD s)
    cases hend : s.endGeneration reason with
    | error => exact h
    | ok t => exact endGeneration_sound h hend
  | flush => exact flush_sound h
  | timeout =>
    refine ⟨fun hreadable => ?_, h.bytes, h.within.1, h.within.2⟩
    obtain ⟨last, hlast, -⟩ := h.received hreadable
    exact ⟨last, hlast, nofun⟩

theorem run_sound (events : List Event) : Sound (s.run events) := by
  induction events generalizing s with
  | nil => exact h
  | cons event rest ih => exact ih (step_sound h event)

omit h in
/-- Whatever the server queues, and however the socket takes it, the peer
receives every packet in order if each can be read, and the queue stays
within its limits. -/
theorem delivers (generation : Generation) (events : List Event) :
    let s := (new generation).run events
    ((∀ p ∈ s.packets, Readable p.message) → ∃ v,
      (s.sent ++ s.outbound).foldlM receive ([], .new s.generation) =
        .ok (s.packets, v)) ∧
    s.outboundBytes = (s.outbound.map length).sum ∧
    s.outbound.length ≤ maxOutboundPackets ∧ s.outboundBytes ≤ maxOutboundBytes := by
  intro s
  have hnew : Sound (new generation) :=
    ⟨fun _ => ⟨0, rfl, fun _ => (by decide : (0 : UInt64) < 1)⟩, rfl, Nat.zero_le _, Nat.zero_le _⟩
  have h : Sound s := run_sound hnew events
  refine ⟨?_, h.bytes, h.within⟩
  intro hreadable
  obtain ⟨last, hlast, -⟩ := h.received hreadable
  exact ⟨_, hlast⟩

/-- Two packets and the end of the generation, after which nothing is
queued; the socket took one of them. -/
def ending : List Event :=
  [.queue .ready, .queue (.disconnectReply ⟨1, .success⟩), .flush, .endGeneration .shutdown,
    .queue .ready]

def ended : ControlServer := (new (.replicate 16 7)).run ending

/-- Messages without a part that a reader may refuse. -/
def plain : Message → Bool
  | .ready | .disconnectReply _ | .generationEnd _ => true
  | _ => false

omit h in
theorem delivers_ending :
    ended.packets.map Packet.requestId = [1, 2, 3] ∧ ended.sent.length = 1 ∧
      ended.outbound.length = 2 ∧
      ∃ v, (ended.sent ++ ended.outbound).foldlM receive
        ([], .new ended.generation) = .ok (ended.packets, v) := by
  have hplain : ended.packets.all fun p => plain p.message := by decide +kernel
  refine ⟨by decide +kernel, by decide +kernel, by decide +kernel,
    (delivers _ ending).1 fun p hp => ?_⟩
  have hreads := all_eq_true.mp hplain p hp
  revert hreads
  cases p.message <;> first | exact fun _ => ⟨trivial, Nat.zero_le _⟩ | exact nofun

end ControlServer

end Drv.Wire
