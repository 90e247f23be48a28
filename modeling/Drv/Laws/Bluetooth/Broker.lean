import Drv.Bluetooth.Broker

/-!
# Events are decoded with the byte that was taken off

`receive` checks an event with its H4 byte and returns it without, and
`command` decodes what it returns as if the byte were still there. What the
controller sends, and when, is not restricted.
-/

namespace Drv.Bluetooth

theorem decodeEvent_eq_ok {packet : Bytes} {event : Event} (h : decodeEvent packet = .ok event) :
    ∃ parameterLen, packet = h4Event :: event.code :: parameterLen :: event.parameters := by
  obtain ⟨-, h⟩ := guard_eq_ok.mp h
  split at h
  next =>
    obtain ⟨hh4, h⟩ := guard_eq_ok.mp h
    obtain ⟨-, ⟨⟩⟩ := guard_eq_ok.mp h
    exact ⟨_, by rw [not_not.mp hh4]⟩
  next => cases h

theorem receive_event_iff {framed bytes : Bytes} :
    receive (.ok framed) = .ok (.event, bytes) ↔
      framed = h4Event :: bytes ∧ ∃ event, decodeEvent framed = .ok event := by
  constructor
  · intro h
    obtain ⟨_, ⟨⟩, h⟩ := bind_eq_ok.mp h
    cases framed with
    | nil => cases h
    | cons h4 packet =>
      obtain ⟨kind, hkind, h⟩ := bind_eq_ok.mp h
      obtain ⟨_, hvalid, ⟨⟩⟩ := bind_eq_ok.mp h
      have hh4 : h4 = h4Event := by
        by_contra hh4
        simp only [inboundKind, if_neg hh4] at hkind
        split_ifs at hkind <;> cases hkind
      rw [if_pos rfl, validateInbound] at hvalid
      cases hevent : decodeEvent (h4 :: bytes) with
      | ok event => exact ⟨by rw [hh4], event, rfl⟩
      | error => rw [hevent] at hvalid; cases hvalid
  · rintro ⟨rfl, event, hevent⟩
    show (validateInbound .event (h4Event :: bytes) >>= fun _ => _) = _
    rw [validateInbound, hevent]
    rfl

/-- What `receive` returns of an event is never decoded to that event. -/
theorem received_decoded_iff (framed : Bytes) :
    (∀ bytes, receive (.ok framed) = .ok (.event, bytes) →
      decodeEvent bytes = decodeEvent framed) ↔ ∀ event, decodeEvent framed ≠ .ok event := by
  constructor
  · intro h event hevent
    obtain ⟨parameterLen, rfl⟩ := decodeEvent_eq_ok hevent
    have hdecoded := h _ (receive_event_iff.mpr ⟨rfl, event, hevent⟩)
    rw [hevent] at hdecoded
    obtain ⟨_, hshort⟩ := decodeEvent_eq_ok hdecoded
    have := congrArg List.length hshort
    simp at this
  · intro h bytes hbytes
    obtain ⟨-, event, hevent⟩ := receive_event_iff.mp hbytes
    exact absurd hevent (h event)

/-- The completion of a reset, which the broker takes for no event. -/
theorem completion_refused :
    receive (.ok [0x04, 0x0e, 4, 1, 0x03, 0x0c, 0]) = .ok (.event, [0x0e, 4, 1, 0x03, 0x0c, 0]) ∧
      decodeEvent [0x04, 0x0e, 4, 1, 0x03, 0x0c, 0] = .ok ⟨0x0e, [1, 0x03, 0x0c, 0]⟩ ∧
      command (fun _ => .ok ()) [.ok [0x04, 0x0e, 4, 1, 0x03, 0x0c, 0]] 0x0c03 [] =
        .error (invalid "not an HCI event packet") := by
  decide

end Drv.Bluetooth
