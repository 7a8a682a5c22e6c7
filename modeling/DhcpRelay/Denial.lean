import DhcpRelay.Admission

/-!
# A denied client stays denied

The policy knows a client by its Option 61 and its hardware address. Everything
else in a packet is the sender's to choose: whether it is a request or a reply,
hops, giaddr, and every byte of Option 82, which carries the tag that selects
the reply action. None of it gets a denied client through
(`denied_stays_denied`), and none of it makes the relay apply an action that
is not the client's own or some entry's of the table.
-/

open Dhcp MacPolicy

namespace Relay

/-- The gate drops a packet whose identifiers are denied, be it a request or a
reply. -/
theorem eval_policyForPacket_of_denied (lib : GoLib) {t : Table} {layer : DHCPv4}
    (h : (baseAction t layer).kind = .blackhole) :
    (policyForPacket lib layer).eval (some t) = (none, true) := by
  by_cases hop : layer.operation = opReply
  · rw [eval_policyForPacket_reply lib t hop, replyAction, mixedAction, if_pos h,
      replyOutcome, if_pos h]
  · rw [eval_policyForPacket_request lib t hop, requestOutcome, if_pos]
    exact h

/-- A packet that the gate drops is not handled. -/
theorem eval_handlePacket_of_dropped {lib : GoLib} {t : Table} {p : Packet}
    (h : (policyForPacket lib p.filtered).eval (some t) = (none, true))
    (opts : ValidateOptions) (host : Host) (cfg : HandleOptions) (slotFree : Bool)
    (ifIndex : ℤ) :
    (handlePacket lib opts true host cfg slotFree ifIndex (.complete p)).eval (some t)
      = none := by
  have hadm : (admitPacket lib opts true ifIndex (.complete p)).eval (some t) = none := by
    rw [admitPacket]
    split
    · rfl
    · split
      · rfl
      · rw [if_pos rfl, Call.eval_bind, h]
        rfl
  rw [handlePacket, Call.eval_bind, hadm]
  cases slotFree <;> rfl

/-- **The action applied to a reply is the client's own or an entry's.** -/
theorem replyAction_mem (t : Table) (layer : DHCPv4) :
    replyAction t layer = baseAction t layer
      ∨ t.entries.lookup (policyTag layer) = some (replyAction t layer) := by
  rw [replyAction, mixedAction]
  split
  · exact .inl rfl
  · cases h : t.entries.lookup (policyTag layer) with
    | none => exact .inl rfl
    | some a => exact .inr rfl

/-- The gate drops a reply whose tag is denied. -/
theorem eval_policyForPacket_of_tag_denied (lib : GoLib) {t : Table} {layer : DHCPv4}
    (hop : layer.operation = opReply) {a : Action}
    (ha : t.entries.lookup (policyTag layer) = some a) (hk : a.kind = .blackhole) :
    (policyForPacket lib layer).eval (some t) = (none, true) := by
  have hact : (replyAction t layer).kind = .blackhole := by
    rw [replyAction, mixedAction]
    split
    · next hb => exact hb
    · rw [ha]
      exact hk
  rw [eval_policyForPacket_reply lib t hop, replyOutcome, if_pos hact]

end Relay

/-- The split option filter keeps what decoding guarantees of the options. -/
theorem Packet.length_data_filtered (p : Packet) {o : DHCPOption}
    (h : o ∈ p.filtered.options) : o.length.toNat = o.data.length :=
  p.decoded.length_data o (mem_deleteSplitOptions h).1

theorem Packet.length_data_getOption (p : Packet) (t : UInt8) :
    (getOption p.filtered t).length.toNat = (getOption p.filtered t).data.length := by
  rw [getOption]
  cases h : p.filtered.options.find? (fun o => o.type = t) with
  | none => rfl
  | some o => exact p.length_data_filtered (List.mem_of_find?_eq_some h)

namespace Relay

/-- In a received packet, Option 82 is decoded whenever there is anything in
it. -/
theorem subOptions_filtered (p : Packet) :
    subOptions p.filtered
      = decodeRelayAgentInformationOption (getOption p.filtered relayAgentInformation) := by
  have hlen := p.length_data_getOption relayAgentInformation
  by_cases hd : (getOption p.filtered relayAgentInformation).data = []
  · have hz : ¬ 0 < (getOption p.filtered relayAgentInformation).length := by
      rw [UInt8.lt_iff_toNat_lt, hlen, hd]
      decide
    have hnil : decodeRelayAgentInformationOption
        (getOption p.filtered relayAgentInformation) = [] := by
      rw [decodeRelayAgentInformationOption, hd]
      rfl
    simp [subOptions, getRelayAgentInformationOption, isOption, hz, hnil]
  · have hpos : 0 < (getOption p.filtered relayAgentInformation).length := by
      rw [UInt8.lt_iff_toNat_lt, hlen]
      exact List.length_pos_iff.mpr hd
    have h1 : ¬ (getOption p.filtered relayAgentInformation).length < 1 := by
      rw [UInt8.lt_iff_toNat_lt] at hpos ⊢
      exact Nat.not_lt.mpr hpos
    simp [subOptions, getRelayAgentInformationOption, isOption, hpos, h1, hd]

/-- **A denied client stays denied.** Two packets that identify the client
alike are both dropped, and nothing is sent for either, when the table denies
the client; whatever they carry besides. And a client that is not denied gets
its own action or some entry's, and none at all when the first tag of its
Option 82 names an entry that denies. -/
theorem denied_stays_denied (lib : GoLib) (t : Table) :
    (∀ p q : Packet,
      p.filtered.options.filter (fun o => o.type = optClientID)
          = q.filtered.options.filter (fun o => o.type = optClientID) →
      p.dhcp.clientHWAddr = q.dhcp.clientHWAddr →
      (t.lookup [clientID p.filtered, p.dhcp.clientHWAddr]).kind = .blackhole →
      ∀ x ∈ [p, q],
        (policyForPacket lib x.filtered).eval (some t) = (none, true)
          ∧ ∀ opts host cfg slotFree ifIndex,
            (handlePacket lib opts true host cfg slotFree ifIndex (.complete x)).eval
              (some t) = none)
    ∧ (∀ p : Packet, p.dhcp.operation = opReply →
      (t.lookup [clientID p.filtered, p.dhcp.clientHWAddr]).kind ≠ .blackhole →
      ∃ a : Action,
        (a = t.lookup [clientID p.filtered, p.dhcp.clientHWAddr]
            ∨ ∃ id, t.entries.lookup id = some a)
          ∧ (policyForPacket lib p.filtered).eval (some t)
            = replyOutcome lib p.filtered a)
    ∧ ∀ (p : Packet) (o : DHCPOption) (a : Action), p.dhcp.operation = opReply →
      (decodeRelayAgentInformationOption
        (getOption p.filtered relayAgentInformation)).find?
          (fun x => x.type = policyTagSubOption) = some o →
      t.entries.lookup o.data = some a → a.kind = .blackhole →
      (policyForPacket lib p.filtered).eval (some t) = (none, true) := by
  refine ⟨?_, ?_, ?_⟩
  · intro p q hid hhw hden x hx
    have hdrop : (policyForPacket lib x.filtered).eval (some t) = (none, true) := by
      refine eval_policyForPacket_of_denied lib ?_
      rcases List.mem_cons.mp hx with rfl | hx
      · exact hden
      · have hcid : clientID q.filtered = clientID p.filtered := clientID_congr hid.symm
        rw [List.mem_singleton.mp hx, baseAction, hcid]
        exact hhw ▸ hden
    exact ⟨hdrop, fun opts host cfg slotFree ifIndex =>
      eval_handlePacket_of_dropped hdrop opts host cfg slotFree ifIndex⟩
  · intro p hop _
    refine ⟨replyAction t p.filtered, ?_, eval_policyForPacket_reply lib t hop⟩
    exact (replyAction_mem t p.filtered).imp_right (fun h => ⟨_, h⟩)
  · intro p o a hop ho ha hk
    have htag : policyTag p.filtered = o.data := by
      rw [policyTag, subOptions_filtered, extractPolicyTagSubOptionData, ho]
    exact eval_policyForPacket_of_tag_denied lib hop (by rw [htag]; exact ha) hk

end Relay
