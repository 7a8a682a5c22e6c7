import DhcpRelay.Chain
import DhcpRelay.DefaultPolicy
import DhcpRelay.Denial
import DhcpRelay.Fanout
import DhcpRelay.Snapshots

/-!
# An exchange under a policy

A client's request is judged by the policy that is in force when it comes in, and the
reply by the one in force when that comes in, which may be another: the file is hot
reloaded. What connects the two is only what the server echoes, the policy tag and the
circuit id in Option 82, the giaddr and the hardware address.

`exchange_under_policies` follows an exchange through both. The first policy says which
server is asked and under which tag; the second one says what becomes of the reply, from
its own entry for the tag, unless it denies the client; and nothing else of the first one
matters any more. A reply that is let through goes out of the interface the request came
in on, or of those that the second policy selects.
-/

open Dhcp MacPolicy Relay

namespace Node

variable (lib : GoLib)

/-- What a relay with a policy sends for a packet that comes in on an interface, when a
handler slot is free and `t` is the table in force. -/
def sentUnder (R : Node) (t : Table) (ifIndex : ℤ) (p : Packet) : List Emission :=
  match (handlePacket lib R.opts true R.host R.cfg true ifIndex (.complete p)).eval
      (some t) with
  | none => []
  | some o => o.sent

variable {lib} {R : Node} {t : Table} {p : Packet}

theorem sentUnder_of_dropped
    (h : (policyForPacket lib p.filtered).eval (some t) = (none, true)) (ifIndex : ℤ) :
    R.sentUnder lib t ifIndex p = [] := by
  rw [sentUnder, eval_handlePacket_of_dropped h]

/-- A packet that the policy lets through is handled under its decision. -/
theorem sentUnder_of_passed (hp : R.Accepts lib p) {ifIndex : ℤ} (hi : 1 ≤ ifIndex)
    {dec : Decision}
    (h : (policyForPacket lib p.filtered).eval (some t) = (some dec, false)) :
    R.sentUnder lib t ifIndex p = (handle R.host R.cfg (some dec) ifIndex p.filtered).sent := by
  rw [sentUnder, handlePacket, admitPacket_of_policy hi hp, Call.eval_bind, Call.eval_bind, h]
  rfl

end Node

/-! ## The reply -/

section Reply

variable {host : Host} {cfg : HandleOptions} {lib : GoLib} {act : Action} {layer : DHCPv4}

theorem eval_policyForPacket_of_blackhole {t : Table} (hop : layer.operation = opReply)
    (hkind : (replyAction t layer).kind = .blackhole) :
    (policyForPacket lib layer).eval (some t) = (none, true) := by
  rw [eval_policyForPacket_reply lib t hop, replyOutcome, if_pos hkind]

/-- The decision for a reply under an action that lets it through. -/
theorem eval_policyForPacket_of_action {t : Table} (hop : layer.operation = opReply)
    (hkind : (replyAction t layer).kind ≠ .blackhole) :
    (policyForPacket lib layer).eval (some t)
      = (some { replyConfig lib (replyAction t layer) with replySubOpts := subOptions layer },
          false) := by
  rw [eval_policyForPacket_reply lib t hop, replyOutcome, if_neg hkind]

theorem replySubOpts_replyConfig : (replyConfig lib act).replySubOpts = [] := by
  unfold replyConfig
  cases act.reply.kind with
  | blackhole | selected | ingress => rfl

/-- Whatever a policy says of the interfaces that a reply goes out of, the ingress
interface is read from the message. -/
theorem replyIngress_replyConfig (host : Host) (lib : GoLib) (act : Action) (layer : DHCPv4) :
    replyIngress host { replyConfig lib act with replySubOpts := subOptions layer } layer
      = replyIngress host {} layer := by
  rw [replyIngress_subOptions host replySubOpts_replyConfig, replyIngress, replyIngress,
    replySubOptions_of_nil replySubOpts_replyConfig,
    replySubOptions_of_nil (rfl : ({} : Decision).replySubOpts = [])]

/-- A reply for the ingress interface is handled as one without a policy. -/
theorem handle_replyConfig_ingress (host : Host) (cfg : HandleOptions) (ifIndex : ℤ)
    (hop : layer.operation = opReply) (h : act.reply.kind = .ingress) :
    handle host cfg (some { replyConfig lib act with replySubOpts := subOptions layer }) ifIndex
        layer
      = handle host cfg none ifIndex layer := by
  rw [← handle_defaultDecision, defaultDecision, if_pos hop, replyConfig, h]

/-- A reply that a policy drops is not sent. -/
theorem sent_replyConfig_blackhole (host : Host) (cfg : HandleOptions) (ifIndex : ℤ)
    (h : act.reply.kind = .blackhole) (hop : layer.operation = opReply) :
    (handle host cfg (some { replyConfig lib act with replySubOpts := subOptions layer }) ifIndex
      layer).sent = [] := by
  rw [List.eq_nil_iff_forall_not_mem]
  intro e he
  obtain ⟨-, hemits⟩ := emits_of_mem_attempts (Outcome.mem_sent.mp he)
  have hdrop : (replyConfig lib act).dropReply = true := by
    rw [replyConfig, h]
  cases hemits with
  | stamped hreq => exact absurd hop (DHCPv4.not_reply_of_request hreq)
  | passed hreq => exact absurd hop (DHCPv4.not_reply_of_request hreq)
  | returned _ _ _ hkeep => exact absurd (hdrop.symm.trans hkeep) Bool.true_eq_false.mp
  | delivered _ _ _ hkeep => exact absurd (hdrop.symm.trans hkeep) Bool.true_eq_false.mp

/-- A reply within the hop limits to a client of this relay goes to the generic handler, as
its flags ask for. -/
theorem handle_of_local {dec : Option Decision} (ifIndex : ℤ) (hop : layer.operation = opReply)
    (htype : (getMessageType layer).isSome = true) (h1 : 1 ≤ layer.relayHops)
    (hmax : layer.relayHops ≤ cfg.maxHops) (hdrop : (dec.getD {}).dropReply = false)
    (hlocal : giaddrIsLocal host cfg layer.relayAgentIP = true) :
    ∃ rt, (rt = unicastReply ∨ rt = broadcastReply) ∧ (rt = unicastReply ↔ isUnicast layer = true)
      ∧ handle host cfg dec ifIndex layer = handleGenericReply host cfg (dec.getD {}) layer rt := by
  rw [handle_reply_eq ifIndex hop htype h1 hmax hdrop, hlocal, Bool.not_true,
    if_neg Bool.false_ne_true]
  by_cases huni : isUnicast layer = true
  · rw [if_pos huni]
    exact ⟨unicastReply, .inl rfl, ⟨fun _ => huni, fun _ => rfl⟩, rfl⟩
  · rw [if_neg huni, if_pos ((isUnicast_or_isBroadcast layer).resolve_left huni)]
    exact ⟨broadcastReply, .inr rfl, ⟨fun h => absurd h (by decide), fun h => absurd h huni⟩, rfl⟩

/-- **What is sent for a reply to a client of this relay** is a frame, out of a target of
the policy, with the reply as it is stripped. -/
theorem target_of_mem_sent {dec : Decision} {ifIndex : ℤ} (hop : layer.operation = opReply)
    (hlocal : giaddrIsLocal host cfg layer.relayAgentIP = true) {srcIP : IP} {ifi : Interface}
    (hin : replyIngress host dec layer = .ok (srcIP, ifi)) {e : Emission}
    (he : e ∈ (handle host cfg (some dec) ifIndex layer).sent) :
    ∃ f : Frame, e = .frame f ∧ f.message = stripRelay layer
      ∧ ∃ nic ∈ replyTargets host cfg dec.replyNICMatch ifi, f.nic = nic.index := by
  have ha := Outcome.mem_sent.mp he
  obtain ⟨htype, hemits⟩ := emits_of_mem_attempts ha
  cases hemits with
  | stamped hreq => exact absurd hop (DHCPv4.not_reply_of_request hreq)
  | passed hreq => exact absurd hop (DHCPv4.not_reply_of_request hreq)
  | returned _ _ _ _ hforeign => exact absurd (hlocal.symm.trans hforeign) Bool.true_eq_false.mp
  | @delivered f _ h1 hmax hdrop _ hmsg =>
    obtain ⟨rt, -, -, hrt⟩ := handle_of_local ifIndex hop htype h1 hmax hdrop hlocal
    rw [hrt] at ha
    obtain ⟨srcIP', ifi', -, -, nic, -, f', hin', -, hnic, -, hf, hidx, -⟩ :=
      frame_of_mem_attempts ha
    cases hin.symm.trans hin'
    cases hf
    exact ⟨f, rfl, hmsg, nic, hnic, hidx⟩

end Reply

/-! ## The exchange -/

/-- **A frame for the client of a request**: nothing of the relay is left in it. -/
structure ForClient (p : Packet) (f : Frame) : Prop where
  option82 : ∀ o ∈ f.message.options, o.type ≠ relayAgentInformation
  relayAgentIP : f.message.relayAgentIP = []
  clientHWAddr : f.message.clientHWAddr = p.dhcp.clientHWAddr

theorem forClient_of_stripRelay {p : Packet} {layer : DHCPv4} {f : Frame}
    (h : f.message = stripRelay layer) (hch : layer.clientHWAddr = p.dhcp.clientHWAddr) :
    ForClient p f := by
  constructor
  · intro o ho
    rw [h] at ho
    exact of_decide_eq_true (List.mem_filter.mp ho).2
  · rw [h]
    rfl
  · rw [h]
    exact hch

/-- **What becomes of a reply under a policy**: it is dropped where the action says so,
and goes out as one frame of the request's interface where the action says nothing of
interfaces; and in any case only frames are sent, out of the targets of the action. -/
structure Concludes (lib : GoLib) (R : Node) (t : Table) (ifi : Interface) (p : Packet) (j : ℤ)
    (q : Packet) : Prop where
  dropped : (replyAction t q.filtered).kind = .blackhole
    ∨ (replyAction t q.filtered).reply.kind = .blackhole → R.sentUnder lib t j q = []
  ingress : (replyAction t q.filtered).kind ≠ .blackhole →
    (replyAction t q.filtered).reply.kind = .ingress →
    ∃ f, R.sentUnder lib t j q = [.frame f] ∧ f.nic = ifi.index ∧ ForClient p f
  targets : ∀ e ∈ R.sentUnder lib t j q, ∃ f, e = .frame f ∧ ForClient p f
    ∧ ∃ nic ∈ replyTargets R.host R.cfg
        (replyConfig lib (replyAction t q.filtered)).replyNICMatch ifi, f.nic = nic.index

/-- **The reply half of an exchange.** A reply that reaches the relay whose giaddr and
Option 82 it carries fares as the action in force says. -/
theorem concludes_of_routed {lib : GoLib} {R : Node} (hw : R.Works) {i : ℤ} (hi : 1 ≤ i)
    (hi' : i < 2 ^ 32) {ifi : Interface} (hifi : R.host.interfaceByIndex i = .ok ifi)
    (hup : ifi.up = true) (hhw : ifi.hardwareAddr ≠ []) {linkSubnet giaddr tag : Bytes}
    (hl : linkSubnet = [] ∨ linkSubnet.length = 4)
    (hglobal : isGlobalUnicastIPv4 giaddr = true) (howns : Owns R.host R.cfg giaddr)
    {p : Packet} {r : DHCPv4}
    (hr : Routed opReply giaddr p.dhcp.clientHWAddr (installedOption82 i linkSubnet tag) r)
    (h1 : 1 ≤ r.relayHops) (hmax : r.relayHops ≤ R.cfg.maxHops) (t : Table) {q : Packet} {j : ℤ}
    (hc : Carries r q) (hq : R.Accepts lib q) (hj : 1 ≤ j) :
    Concludes lib R t ifi p j q := by
  have hrq := hr.carried hc
  have hpass : (replyAction t q.filtered).kind ≠ .blackhole → R.sentUnder lib t j q
      = (handle R.host R.cfg (some { replyConfig lib (replyAction t q.filtered) with
          replySubOpts := subOptions q.filtered }) j q.filtered).sent := fun hk =>
    Node.sentUnder_of_passed hq hj (eval_policyForPacket_of_action hrq.operation hk)
  constructor
  · intro hdrop
    by_cases hk : (replyAction t q.filtered).kind = .blackhole
    · exact Node.sentUnder_of_dropped (eval_policyForPacket_of_blackhole hrq.operation hk) j
    · rw [hpass hk]
      exact sent_replyConfig_blackhole R.host R.cfg j (hdrop.resolve_left hk) hrq.operation
  · intro hk hingress
    obtain ⟨f, hf, hnic, h82, hgi, hch⟩ := delivered_of_routed hw hi hi' hifi hup hhw hl hglobal
      howns hr h1 hmax hc hq hj
    refine ⟨f, ?_, hnic.trans (R.host.index_interfaceByIndex _ _ hifi).symm, h82, hgi, hch⟩
    rw [hpass hk, handle_replyConfig_ingress R.host R.cfg j hrq.operation hingress,
      ← Node.sent_of_accepts hq hj]
    exact hf
  · intro e he
    by_cases hk : (replyAction t q.filtered).kind = .blackhole
    · rw [Node.sentUnder_of_dropped (eval_policyForPacket_of_blackhole hrq.operation hk)] at he
      cases he
    · rw [hpass hk] at he
      have hlocal := (giaddrIsLocal_iff hrq.relayAgentIP).mpr ⟨hglobal, howns⟩
      have hin := replyIngress_of_installed hw.setNetworkLayer hrq.relayAgentIP hglobal hi hi' hl
        hrq.option82.getOption_eq hifi hup hhw
      obtain ⟨f, rfl, hmsg, hnic⟩ := target_of_mem_sent hrq.operation hlocal
        ((replyIngress_replyConfig _ _ _ _).trans hin) he
      exact ⟨f, rfl, forClient_of_stripRelay hmsg hrq.clientHWAddr, hnic⟩

/-- The policy `0xe1 10.0.0.2`. -/
def assignedTable : Table :=
  Table.empty.insert ⟨[0xe1], by decide⟩ { kind := .server, server := "10.0.0.2".toList }
