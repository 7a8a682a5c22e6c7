import DhcpRelay.Transparency
import DhcpRelay.Hops
import DhcpRelay.Ownership

/-!
# Chains of relays

A client's request may pass several relays on its way to the server. The first
one stamps it and the others pass it on, each with one hop more. The server
answers to the giaddr, which is the first relay's, and its reply comes back
directly or over some of the others, each of which takes one hop off and sends
it on to the giaddr. What has to meet are the hop limits of the four handlers,
the ownership of the giaddr, and the circuit id in Option 82 that names the
client's interface.

A message is carried from one machine to the next in a frame, and `Carries` is
what encoding and decoding guarantee of it. `Passes` says that a message gets
through a list of relays, whatever the frames that carry it: each relay sends
exactly one datagram, to the right destination. `passes_of_invariant` is the
rule for proving it, and the two directions of a chain are the two uses of it.
-/

open Dhcp Relay

/-! ## Messages on the wire -/

/-- **A frame that carries a message**: the header is the message's, an address
has its four bytes, and the options are the same. -/
structure Carries (m : DHCPv4) (p : Packet) : Prop where
  operation : p.dhcp.operation = m.operation
  relayHops : p.dhcp.relayHops = m.relayHops
  flags : p.dhcp.flags = m.flags
  clientIP : p.dhcp.clientIP = IP.wire m.clientIP
  yourClientIP : p.dhcp.yourClientIP = IP.wire m.yourClientIP
  relayAgentIP : p.dhcp.relayAgentIP = IP.wire m.relayAgentIP
  clientHWAddr : p.dhcp.clientHWAddr = m.clientHWAddr
  options : valued p.dhcp = valued m

/-- `o` is the only option of type `t`. -/
def Only (m : DHCPv4) (t : UInt8) (o : DHCPOption) : Prop :=
  m.options.filter (fun x => x.type = t) = [o]

theorem Only.getOption_eq {m : DHCPv4} {t : UInt8} {o : DHCPOption} (h : Only m t o) :
    getOption m t = o := by
  rw [getOption_eq_head, h]
  rfl

/-- **The split option filter keeps an option that is the only one of its
type.** -/
theorem Carries.only {m : DHCPv4} {p : Packet} (hc : Carries m p) {t : UInt8}
    {o : DHCPOption} (ht : t ≠ optEnd ∧ t ≠ optPad) (h : Only m t o) :
    Only p.filtered t o := by
  have hwire : (valued p.dhcp).filter (fun x => x.type = t) = [o] := by
    rw [hc.options, filter_valued ht.1]
    exact h
  have hone : (valued p.dhcp).countP (fun x => x.type = t) = 1 := by
    rw [List.countP_eq_length_filter, hwire]
    rfl
  rw [Only, ← filter_valued ht.1, p.valued_filtered, passable, ← p.decoded.valued_eq,
    List.filter_filter, ← hwire]
  refine List.filter_congr (fun x _ => ?_)
  by_cases hx : x.type = t
  · simp [hx, ht.2, hone]
  · simp [hx]

/-! ## Relays that forward -/

/-- **A relay without a policy**: the host it runs on and what it was started
with. -/
structure Node where
  host : Host
  cfg : HandleOptions
  opts : ValidateOptions

namespace Node

variable (lib : GoLib)

/-- `ValidateLayers` lets a packet through. -/
def Accepts (R : Node) (p : Packet) : Prop := validateLayers lib R.opts p = none

/-- What the relay sends for a packet that comes in on an interface, when a
handler slot is free. There is no policy, so there is nothing to load. -/
def sent (R : Node) (ifIndex : ℤ) (p : Packet) : List Emission :=
  match (handlePacket lib R.opts false R.host R.cfg true ifIndex (.complete p)).eval none with
  | none => []
  | some o => o.sent

/-- Every call on a socket succeeds. -/
structure Works (R : Node) : Prop where
  serialize : ∀ n, R.host.serialize n = none
  send : ∀ n, R.host.send n = none
  setNetworkLayer : R.host.setNetworkLayer = none
  rawCreate : R.host.rawCreate = none
  rawAttachBPF : R.host.rawAttachBPF = none

variable {lib}

/-- An accepted packet is handled, without its split options. -/
theorem sent_of_accepts {R : Node} {p : Packet} (hp : R.Accepts lib p) {ifIndex : ℤ}
    (hi : 1 ≤ ifIndex) :
    R.sent lib ifIndex p = (handle R.host R.cfg none ifIndex p.filtered).sent := by
  rw [sent, handlePacket, admitPacket_of_no_policy hi hp]
  rfl

end Node

/-- **What a chain of relays keeps of a message**: its kind, the four bytes of
its giaddr, the client's hardware address, a valid message type, and the first
relay's Option 82, which is the only one. -/
structure Routed (operation : UInt8) (giaddr chaddr : Bytes) (opt82 : DHCPOption)
    (m : DHCPv4) : Prop where
  operation : m.operation = operation
  relayAgentIP : IP.to4 m.relayAgentIP = some giaddr
  clientHWAddr : m.clientHWAddr = chaddr
  messageType : ∃ o, Only m optMessageType o
  valid : (getMessageType m).isSome = true
  option82 : Only m relayAgentInformation opt82

section Routed

variable {operation : UInt8} {giaddr chaddr : Bytes} {opt82 : DHCPOption} {m : DHCPv4}

theorem Routed.hops (h : Routed operation giaddr chaddr opt82 m) (hops : UInt8) :
    Routed operation giaddr chaddr opt82 { m with relayHops := hops } :=
  ⟨h.operation, h.relayAgentIP, h.clientHWAddr, h.messageType, h.valid, h.option82⟩

/-- The message is what it was when it has been carried to a relay. -/
theorem Routed.carried (h : Routed operation giaddr chaddr opt82 m) {p : Packet}
    (hc : Carries m p) : Routed operation giaddr chaddr opt82 p.filtered := by
  obtain ⟨o, ho⟩ := h.messageType
  have ho' : Only p.filtered optMessageType o := hc.only (by decide) ho
  refine ⟨hc.operation.trans h.operation, ?_, hc.clientHWAddr.trans h.clientHWAddr,
    ⟨o, ho'⟩, ?_, hc.only (by decide) h.option82⟩
  · show IP.to4 p.dhcp.relayAgentIP = some giaddr
    rw [hc.relayAgentIP, IP.wire, h.relayAgentIP, Option.getD_some]
    exact IP.to4_to4 h.relayAgentIP
  · rw [getMessageType, ho'.getOption_eq, ← ho.getOption_eq]
    exact h.valid

end Routed

/-! ## One relay on the way -/

/-- A reply is either unicast or broadcast. -/
theorem isUnicast_or_isBroadcast (m : DHCPv4) :
    isUnicast m = true ∨ isBroadcast m = true := by
  have hbit : (m.flags &&& broadcastFlag).toNat
      = (m.flags.toNat.testBit 15).toNat * 2 ^ 15 := by
    rw [UInt16.toNat_and]
    exact Nat.and_two_pow m.flags.toNat 15
  rw [isUnicast, isBroadcast, beq_iff_eq, beq_iff_eq, ← UInt16.toNat_inj, ← UInt16.toNat_inj,
    hbit]
  cases m.flags.toNat.testBit 15 with
  | false => exact .inl rfl
  | true => exact .inr rfl

/-- A relay with a working socket passes a reply for another relay back. -/
theorem sent_returned {host : Host} (hser : host.serialize 0 = none)
    (hsend : host.send 0 = none) {cfg : HandleOptions} (ifIndex : ℤ) {layer : DHCPv4}
    {giaddr : IP} (hop : layer.operation = opReply)
    (htype : (getMessageType layer).isSome = true) (h1 : 1 ≤ layer.relayHops)
    (hmax : layer.relayHops ≤ cfg.maxHops) (h4 : IP.to4 layer.relayAgentIP = some giaddr)
    (hglobal : isGlobalUnicastIPv4 giaddr = true) (howns : ¬ Owns host cfg giaddr) :
    (handle host cfg none ifIndex layer).sent
      = [.datagram (IP.string4 giaddr)
          { layer with relayHops := layer.relayHops - 1 }] := by
  have hlocal : giaddrIsLocal host cfg layer.relayAgentIP = false := by
    rw [Bool.eq_false_iff]
    intro h
    exact howns ((giaddrIsLocal_iff h4).mp h).2
  obtain ⟨hu, hl, hb⟩ := not_special_of_isGlobalUnicastIPv4 hglobal
  have hforward : forwardRelayedReply host layer = relayToServer host (IP.string4 giaddr)
      { layer with relayHops := layer.relayHops - 1 } := by
    simp [forwardRelayedReply, h4, hu, hl, hb, UInt8.not_lt.mpr h1]
  rw [handle_reply_eq ifIndex hop htype h1 hmax rfl, hlocal, Bool.not_false, if_pos rfl,
    hforward, relayToServer, hser, hsend]
  rfl

/-- The ingress interface of a reply that carries a giaddr of the relay and the
Option 82 it put on the request is the one that the request came in on. -/
theorem replyIngress_of_installed {host : Host} (hnet : host.setNetworkLayer = none)
    {layer : DHCPv4} {giaddr : IP} (h4 : IP.to4 layer.relayAgentIP = some giaddr)
    (hglobal : isGlobalUnicastIPv4 giaddr = true) {ifIndex : ℤ} (hi : 1 ≤ ifIndex)
    (hi' : ifIndex < 2 ^ 32) {linkSubnet : IP} {tag : Bytes}
    (hl : linkSubnet = [] ∨ linkSubnet.length = 4)
    (h82 : getOption layer relayAgentInformation = installedOption82 ifIndex linkSubnet tag)
    {ifi : Interface} (hifi : host.interfaceByIndex ifIndex = .ok ifi)
    (hup : ifi.up = true) (hhw : ifi.hardwareAddr ≠ []) :
    replyIngress host {} layer = .ok (giaddr, ifi) := by
  have hsub := subOptions_of_installed hl h82
  have hne : installedSubOptions ifIndex linkSubnet tag ≠ [] := by
    rw [installedSubOptions, routingSubOptions]
    exact List.cons_ne_nil _ _
  have hsource : replySource layer = .ok giaddr := by
    obtain ⟨hu, hlo, hb⟩ := not_special_of_isGlobalUnicastIPv4 hglobal
    have hz : IP.equal giaddr IP.ipv4zero = false := (Bool.or_eq_false_iff.mp hu).1
    exact replySource_ok_iff.mpr ⟨h4, hlo, hz, hb⟩
  have hcircuit : circuitInterface host (installedSubOptions ifIndex linkSubnet tag)
      = .ok ifi := by
    rw [circuitInterface_ok_iff, extractAgentCircuitID_installed (by omega) hi']
    exact ⟨by omega, hifi, hup, hhw⟩
  refine replyIngress_ok_iff.mpr ⟨hsource, ⟨_, ?_, hcircuit⟩, hnet⟩
  rw [replySubOptions_of_nil rfl, hsub, if_neg hne]

/-- A relay with working sockets delivers a reply that carries its own giaddr
and the Option 82 it put on the request: as one frame, out of the interface
that the request came in on. -/
theorem sent_delivered {host : Host} (hser : host.serialize 0 = none)
    (hsend : host.send 0 = none) (hnet : host.setNetworkLayer = none)
    (hcreate : host.rawCreate = none) (hbpf : host.rawAttachBPF = none)
    {cfg : HandleOptions} (j : ℤ) {layer : DHCPv4} {giaddr : IP}
    (hop : layer.operation = opReply) (htype : (getMessageType layer).isSome = true)
    (h1 : 1 ≤ layer.relayHops) (hmax : layer.relayHops ≤ cfg.maxHops)
    (h4 : IP.to4 layer.relayAgentIP = some giaddr)
    (hglobal : isGlobalUnicastIPv4 giaddr = true) (howns : Owns host cfg giaddr)
    (hy : layer.yourClientIP.length = 4) (hc : layer.clientIP.length = 4)
    {ifIndex : ℤ} (hi : 1 ≤ ifIndex) (hi' : ifIndex < 2 ^ 32) {linkSubnet : IP} {tag : Bytes}
    (hl : linkSubnet = [] ∨ linkSubnet.length = 4)
    (h82 : getOption layer relayAgentInformation = installedOption82 ifIndex linkSubnet tag)
    {ifi : Interface} (hifi : host.interfaceByIndex ifIndex = .ok ifi)
    (hup : ifi.up = true) (hhw : ifi.hardwareAddr ≠ []) :
    ∃ f : Frame, (handle host cfg none j layer).sent = [.frame f]
      ∧ f.nic = ifIndex ∧ f.message = stripRelay layer := by
  have hlocal : giaddrIsLocal host cfg layer.relayAgentIP = true :=
    (giaddrIsLocal_iff h4).mpr ⟨hglobal, howns⟩
  have hin := replyIngress_of_installed hnet h4 hglobal hi hi' hl h82 hifi hup hhw
  have hdeliver : ∀ rt, rt = unicastReply ∨ rt = broadcastReply →
      delivered rt layer = stripRelay layer →
      ∃ f : Frame, (handleGenericReply host cfg {} layer rt).sent = [.frame f]
        ∧ f.nic = ifIndex ∧ f.message = stripRelay layer := by
    intro rt hrt hdel
    obtain ⟨f, hf, hnic, hmsg⟩ := handleGenericReply_ingress hser hcreate hbpf cfg rfl rfl
      hin hhw hrt hy hc
    refine ⟨f, ?_, hnic.trans (host.index_interfaceByIndex _ _ hifi), hmsg.trans hdel⟩
    rw [Outcome.sent, hf, hsend]
    rfl
  rw [handle_reply_eq j hop htype h1 hmax rfl, hlocal, Bool.not_true,
    if_neg Bool.false_ne_true]
  by_cases huni : isUnicast layer = true
  · rw [if_pos huni]
    exact hdeliver _ (.inl rfl) (delivered_unicastReply huni)
  · have hbc := (isUnicast_or_isBroadcast layer).resolve_left huni
    rw [if_neg huni, if_pos hbc]
    exact hdeliver _ (.inr rfl) (delivered_broadcastReply hbc)

/-! ## A list of relays -/

/-- **A message gets through a list of relays**, each of which has to send it to
`dst`: whatever frame carries it to the next one, and whatever interface it
comes in on, that relay sends one datagram, to its destination and no other, and
what comes out at the end has the property `Q`. -/
def Passes (lib : GoLib) (dst : Node → Text) (Q : DHCPv4 → Prop) :
    List Node → DHCPv4 → Prop
  | [], m => Q m
  | R :: Rs, m => ∀ p i, Carries m p → R.Accepts lib p → 1 ≤ i →
      ∃ m', R.sent lib i p = [.datagram (dst R) m'] ∧ Passes lib dst Q Rs m'

/-- **The invariant rule for a list of relays.** -/
theorem passes_of_invariant {lib : GoLib} {dst : Node → Text} {Q : DHCPv4 → Prop}
    {I : List Node → DHCPv4 → Prop}
    (hstep : ∀ R Rs m, I (R :: Rs) m → ∀ p i, Carries m p → R.Accepts lib p → 1 ≤ i →
      ∃ m', R.sent lib i p = [.datagram (dst R) m'] ∧ I Rs m')
    (hend : ∀ m, I [] m → Q m) (Rs : List Node) (m : DHCPv4) (h : I Rs m) :
    Passes lib dst Q Rs m := by
  induction Rs generalizing m with
  | nil => exact hend m h
  | cons R Rs ih =>
    intro p i hc hp hi
    obtain ⟨m', hsent, hI⟩ := hstep R Rs m h p i hc hp hi
    exact ⟨m', hsent, ih m' hI⟩

theorem Passes.mono {lib : GoLib} {dst : Node → Text} {Q Q' : DHCPv4 → Prop}
    {Rs : List Node} {m : DHCPv4} (h : Passes lib dst Q Rs m) (hQ : ∀ m, Q m → Q' m) :
    Passes lib dst Q' Rs m :=
  passes_of_invariant (I := Passes lib dst Q) (fun _ _ _ h => h) hQ Rs m h

section Directions

variable (lib : GoLib) {giaddr chaddr : Bytes} {opt82 : DHCPOption} {limit : UInt8}

/-- **A stamped request gets through to the server**, with one more hop per
relay, when the hop limit leaves room for all of them. -/
theorem passes_request {Rs : List Node} (hRs : ∀ R ∈ Rs, R.Works ∧ R.cfg.maxHops = limit)
    {m : DHCPv4} (hm : Routed opRequest giaddr chaddr opt82 m) (hpos : 0 < m.relayHops)
    {n : ℕ} (hn : m.relayHops.toNat + Rs.length = n) (hlimit : n ≤ limit.toNat) :
    Passes lib (fun R => R.cfg.dhcpServerAddress)
      (fun m => Routed opRequest giaddr chaddr opt82 m ∧ m.relayHops.toNat = n) Rs m := by
  refine passes_of_invariant (I := fun Rs m => (∀ R ∈ Rs, R.Works ∧ R.cfg.maxHops = limit)
    ∧ Routed opRequest giaddr chaddr opt82 m ∧ 0 < m.relayHops
    ∧ m.relayHops.toNat + Rs.length = n) ?_ ?_ Rs m ⟨hRs, hm, hpos, hn⟩
  · rintro R Rs m ⟨hRs, hm, hpos, hn⟩ p i hc hp hi
    obtain ⟨hw, hmax⟩ := hRs R List.mem_cons_self
    have hr := hm.carried hc
    have hhops : p.filtered.relayHops = m.relayHops := hc.relayHops
    have hlt : m.relayHops < R.cfg.maxHops := by
      rw [List.length_cons] at hn
      rw [hmax, UInt8.lt_iff_toNat_lt]
      omega
    have hadd := toNat_add_one_of_lt hlt
    refine ⟨{ p.filtered with relayHops := p.filtered.relayHops + 1 }, ?_,
      fun R hR => hRs R (List.mem_cons_of_mem _ hR), hr.hops _, ?_, ?_⟩
    · rw [Node.sent_of_accepts hp hi]
      exact sent_passed (hw.serialize 0) (hw.send 0) none i hr.operation hr.valid
        (hhops ▸ hpos) (hhops ▸ hlt)
    · rw [hhops, UInt8.lt_iff_toNat_lt, hadd]
      exact Nat.succ_pos _
    · rw [hhops, hadd, ← hn, List.length_cons]
      omega
  · rintro m ⟨-, hm, -, hn⟩
    exact ⟨hm, hn⟩

/-- **A reply gets through to the relay that owns its giaddr**, with one hop less
per relay on the way, when it has more hops than there are relays. -/
theorem passes_reply (hglobal : isGlobalUnicastIPv4 giaddr = true) {way : List Node}
    (hway : ∀ R ∈ way, R.Works ∧ R.cfg.maxHops = limit ∧ ¬ Owns R.host R.cfg giaddr)
    {r : DHCPv4} (hr : Routed opReply giaddr chaddr opt82 r)
    (hhops : way.length < r.relayHops.toNat) (hlimit : r.relayHops ≤ limit) :
    Passes lib (fun _ => IP.string4 giaddr)
      (fun r => Routed opReply giaddr chaddr opt82 r ∧ 1 ≤ r.relayHops
        ∧ r.relayHops ≤ limit) way r := by
  refine passes_of_invariant (I := fun way r =>
    (∀ R ∈ way, R.Works ∧ R.cfg.maxHops = limit ∧ ¬ Owns R.host R.cfg giaddr)
    ∧ Routed opReply giaddr chaddr opt82 r ∧ way.length < r.relayHops.toNat
    ∧ r.relayHops ≤ limit) ?_ ?_ way r ⟨hway, hr, hhops, hlimit⟩
  · rintro R way r ⟨hway, hr, hhops, hlimit⟩ p i hc hp hi
    obtain ⟨hw, hmax, howns⟩ := hway R List.mem_cons_self
    have hr' := hr.carried hc
    have hph : p.filtered.relayHops = r.relayHops := hc.relayHops
    rw [List.length_cons] at hhops
    have h1 : 1 ≤ r.relayHops := by
      rw [UInt8.le_iff_toNat_le]
      show 1 ≤ r.relayHops.toNat
      omega
    have hsub := toNat_sub_one_of_le h1
    refine ⟨{ p.filtered with relayHops := p.filtered.relayHops - 1 }, ?_,
      fun R hR => hway R (List.mem_cons_of_mem _ hR), hr'.hops _, ?_, ?_⟩
    · rw [Node.sent_of_accepts hp hi]
      exact sent_returned (hw.serialize 0) (hw.send 0) i hr'.operation hr'.valid
        (hph ▸ h1) (by rw [hmax, hph]; exact hlimit) hr'.relayAgentIP hglobal howns
    · show way.length < (p.filtered.relayHops - 1).toNat
      rw [hph]
      omega
    · show p.filtered.relayHops - 1 ≤ limit
      rw [hph, UInt8.le_iff_toNat_le]
      have := UInt8.le_iff_toNat_le.mp hlimit
      omega
  · rintro r ⟨-, hr, hhops, hlimit⟩
    refine ⟨hr, ?_, hlimit⟩
    rw [UInt8.le_iff_toNat_le]
    exact hhops

end Directions

/-! ## The first relay -/

/-- A message with a valid type has one Option 53, once it is filtered. -/
theorem Packet.only_messageType {p : Packet}
    (h : (getMessageType p.filtered).isSome = true) :
    Only p.filtered optMessageType (getOption p.filtered optMessageType) := by
  have hnd := p.nodup_types_filtered
  rw [Only, filter_key_eq_toList_find? hnd optMessageType, getOption]
  cases hf : p.filtered.options.find? (fun o => o.type = optMessageType) with
  | some o => rfl
  | none =>
    have hz : getOption p.filtered optMessageType = {} := by rw [getOption, hf]; rfl
    rw [getMessageType, hz] at h
    cases h

/-- **A first-hop copy** is what the chain keeps of a message, with one hop. -/
theorem routed_installed {p : Packet} (hop : p.dhcp.operation = opRequest)
    (htype : (getMessageType p.filtered).isSome = true) (S : OptionSort) (ifIndex : ℤ)
    (linkSubnet : IP) (tag : Bytes) {ip giaddr : IP} (hip : IP.to4 ip = some giaddr) :
    Routed opRequest giaddr p.dhcp.clientHWAddr (installedOption82 ifIndex linkSubnet tag)
      { stamp S p.filtered (installedOption82 ifIndex linkSubnet tag) with
        relayAgentIP := ip } := by
  have honly : Only { stamp S p.filtered (installedOption82 ifIndex linkSubnet tag) with
      relayAgentIP := ip } optMessageType (getOption p.filtered optMessageType) :=
    (filter_type_setOption_of_ne S (installedOption82 ifIndex linkSubnet tag)
      (show optMessageType ≠ relayAgentInformation by decide)
      p.nodup_types_filtered).trans (Packet.only_messageType htype)
  refine ⟨hop, hip, rfl, ⟨_, honly⟩, ?_,
    filter_type_setOption S p.filtered (installedOption82 ifIndex linkSubnet tag)⟩
  rw [getMessageType, honly.getOption_eq]
  exact htype

/-- A relay with a working socket sends a client's own request under every giaddr
of the interface, with the policy's tag, to the policy's server. -/
theorem sent_stamped {host : Host} (hser : ∀ n, host.serialize n = none)
    (hsend : ∀ n, host.send n = none) {cfg : HandleOptions} {dec : Option Decision}
    {ifIndex : ℤ} {layer : DHCPv4} (hop : layer.operation = opRequest)
    (htype : (getMessageType layer).isSome = true) (hzero : layer.relayHops = 0)
    {g : Giaddrs} (hg : resolveGiaddr host cfg (dec.getD {}) ifIndex = .ok g) :
    (handle host cfg dec ifIndex layer).sent
      = g.copies.map (fun ip => .datagram (effectiveServerAddress cfg (dec.getD {}))
          { stamp host.sort layer
              (installedOption82 ifIndex g.linkSubnet (dec.getD {}).policyTag) with
            relayAgentIP := ip }) := by
  have hlt : layer.relayHops < cfg.maxHops := by
    rw [hzero]
    exact UInt8.lt_iff_toNat_lt.mpr (UInt8.le_iff_toNat_le.mp cfg.maxHops_pos)
  have hgen : handle host cfg dec ifIndex layer
      = sendCopies host (effectiveServerAddress cfg (dec.getD {})) 0
          (stamp host.sort layer
            (installedOption82 ifIndex g.linkSubnet (dec.getD {}).policyTag)) g.copies := by
    rw [handle_of_request htype hop, handleRequest_of_zero hzero, handleGenericRequest_of_lt hlt,
      hg]
    exact copyRequest_ok host cfg _ layer (linkSubnet_of_resolveGiaddr hg)
  rw [hgen, Outcome.sent, attempts_sendCopies hser]
  simp only [hsend, List.filter_map, Function.comp_def, Option.isNone_none,
    List.filter_true, List.map_map]
  conv_rhs => rw [← List.zipIdx_map_fst 0 g.copies, List.map_map]
  rfl

/-! ## The round trip -/

/-- **A server's reply to a message**: it echoes the hop count, the giaddr, the
client's hardware address and Option 82, and has one valid message type. -/
structure Answers (m r : DHCPv4) : Prop where
  operation : r.operation = opReply
  messageType : ∃ o, Only r optMessageType o
  valid : (getMessageType r).isSome = true
  relayHops : r.relayHops = m.relayHops
  relayAgentIP : IP.to4 r.relayAgentIP = some (IP.wire m.relayAgentIP)
  clientHWAddr : r.clientHWAddr = m.clientHWAddr
  option82 : r.options.filter (fun o => o.type = relayAgentInformation)
    = m.options.filter (fun o => o.type = relayAgentInformation)

theorem Routed.wire {operation : UInt8} {giaddr chaddr : Bytes} {opt82 : DHCPOption}
    {m : DHCPv4} (h : Routed operation giaddr chaddr opt82 m) :
    IP.wire m.relayAgentIP = giaddr := by
  rw [IP.wire, h.relayAgentIP, Option.getD_some]

/-- A reply keeps of the message what it echoes. -/
theorem Routed.answered {operation : UInt8} {giaddr chaddr : Bytes} {opt82 : DHCPOption}
    {m r : DHCPv4} (h : Routed operation giaddr chaddr opt82 m) (ha : Answers m r) :
    Routed opReply giaddr chaddr opt82 r where
  operation := ha.operation
  relayAgentIP := h.wire ▸ ha.relayAgentIP
  clientHWAddr := ha.clientHWAddr.trans h.clientHWAddr
  messageType := ha.messageType
  valid := ha.valid
  option82 := ha.option82.trans h.option82

/-- **The end of the way back.** A reply that reaches the relay whose giaddr and
Option 82 it carries becomes one frame, out of the interface of the circuit
id. -/
theorem delivered_of_routed {lib : GoLib} {R : Node} (hw : R.Works) {i : ℤ} (hi : 1 ≤ i)
    (hi' : i < 2 ^ 32) {ifi : Interface} (hifi : R.host.interfaceByIndex i = .ok ifi)
    (hup : ifi.up = true) (hhw : ifi.hardwareAddr ≠ []) {linkSubnet giaddr chaddr tag : Bytes}
    (hl : linkSubnet = [] ∨ linkSubnet.length = 4)
    (hglobal : isGlobalUnicastIPv4 giaddr = true) (howns : Owns R.host R.cfg giaddr)
    {r : DHCPv4} (hr : Routed opReply giaddr chaddr (installedOption82 i linkSubnet tag) r)
    (h1 : 1 ≤ r.relayHops) (hmax : r.relayHops ≤ R.cfg.maxHops) {q : Packet} {j : ℤ}
    (hc : Carries r q) (hq : R.Accepts lib q) (hj : 1 ≤ j) :
    ∃ f : Frame, R.sent lib j q = [.frame f] ∧ f.nic = i
      ∧ (∀ o ∈ f.message.options, o.type ≠ relayAgentInformation)
      ∧ f.message.relayAgentIP = [] ∧ f.message.clientHWAddr = chaddr := by
  have hr' := hr.carried hc
  have hhops : q.filtered.relayHops = r.relayHops := hc.relayHops
  obtain ⟨f, hf, hnic, hmsg⟩ := sent_delivered (hw.serialize 0) (hw.send 0)
    hw.setNetworkLayer hw.rawCreate hw.rawAttachBPF j hr'.operation hr'.valid
    (hhops ▸ h1) (hhops ▸ hmax) hr'.relayAgentIP hglobal howns
    q.decoded.length_yourClientIP q.decoded.length_clientIP hi hi' hl
    hr'.option82.getOption_eq hifi hup hhw
  refine ⟨f, ?_, hnic, ?_, ?_, ?_⟩
  · rw [Node.sent_of_accepts hq hj]
    exact hf
  · intro o ho
    rw [hmsg] at ho
    exact of_decide_eq_true (List.mem_filter.mp ho).2
  · rw [hmsg]
    rfl
  · rw [hmsg]
    exact hr'.clientHWAddr

/-- **The round trip through a chain of relays.** Let a first relay and a list of
others have the same hop limit, which leaves room for all of them, and let no
other relay own an address of the first one. Take any client's own request that
the first relay accepts on an interface that is up and resolves to a giaddr. A
request of a valid type is sent, and every copy gets through to the server with
one hop per relay, under the first relay's giaddr and with its Option 82. And
every reply that answers it gets back, directly or over any of the other relays
in their order: each of them sends it on to the giaddr, and the first relay
sends one frame, out of the interface that the request came in on, without
Option 82 and without a giaddr. -/
theorem chain_roundTrip (lib : GoLib) (R₁ : Node) (Rs : List Node)
    (hworks : ∀ R ∈ R₁ :: Rs, R.Works) (hco : R₁.host.Coherent)
    (hlimit : ∀ R ∈ Rs, R.cfg.maxHops = R₁.cfg.maxHops)
    (hlen : Rs.length + 1 ≤ R₁.cfg.maxHops.toNat)
    (hdisj : ∀ R ∈ Rs, ∀ ip4, Owns R₁.host R₁.cfg ip4 → ¬ Owns R.host R.cfg ip4)
    {i : ℤ} (hi : 1 ≤ i) (hi' : i < 2 ^ 32) {ifi : Interface}
    (hifi : R₁.host.interfaceByIndex i = .ok ifi) (hup : ifi.up = true)
    (hhw : ifi.hardwareAddr ≠ []) {p : Packet} (hp : R₁.Accepts lib p)
    (hop : p.dhcp.operation = opRequest) (hzero : p.dhcp.relayHops = 0) {g : Giaddrs}
    (hg : resolveGiaddr R₁.host R₁.cfg {} i = .ok g) :
    ((getMessageType p.filtered).isSome = true → R₁.sent lib i p ≠ [])
      ∧ ∀ e ∈ R₁.sent lib i p, ∃ c, e = .datagram R₁.cfg.dhcpServerAddress c
        ∧ isGlobalUnicastIPv4 c.relayAgentIP = true
        ∧ Passes lib (fun R => R.cfg.dhcpServerAddress) (fun m =>
            m.relayHops.toNat = Rs.length + 1
              ∧ IP.wire m.relayAgentIP = IP.wire c.relayAgentIP
              ∧ m.options.filter (fun o => o.type = relayAgentInformation)
                = [installedOption82 i g.linkSubnet []]
              ∧ ∀ r way, Answers m r → way.Sublist Rs.reverse →
                Passes lib (fun _ => IP.string4 (IP.wire c.relayAgentIP)) (fun r' =>
                  ∀ q j, Carries r' q → R₁.Accepts lib q → 1 ≤ j →
                    ∃ f : Frame, R₁.sent lib j q = [.frame f] ∧ f.nic = i
                      ∧ (∀ o ∈ f.message.options, o.type ≠ relayAgentInformation)
                      ∧ f.message.relayAgentIP = []
                      ∧ f.message.clientHWAddr = p.dhcp.clientHWAddr) way r) Rs c := by
  have hw₁ := hworks R₁ List.mem_cons_self
  have hsent : (getMessageType p.filtered).isSome = true → R₁.sent lib i p
      = g.copies.map (fun ip => .datagram R₁.cfg.dhcpServerAddress
          { stamp R₁.host.sort p.filtered (installedOption82 i g.linkSubnet []) with
            relayAgentIP := ip }) := by
    intro htype
    have hop' : p.filtered.operation = opRequest := hop
    rw [Node.sent_of_accepts hp hi]
    exact sent_stamped hw₁.serialize hw₁.send hop' htype hzero hg
  refine ⟨fun htype => ?_, fun e he => ?_⟩
  · rw [hsent htype]
    simpa using (copies_of_resolveGiaddr hg).1
  · have htype : (getMessageType p.filtered).isSome = true := by
      rw [Node.sent_of_accepts hp hi] at he
      exact (emits_of_mem_attempts (Outcome.mem_sent.mp he)).1
    rw [hsent htype] at he
    obtain ⟨ip, hip, rfl⟩ := List.mem_map.mp he
    obtain ⟨giaddr, h4, hglobal, howns⟩ := owns_of_mem_copies hco hg hip
    have hc := routed_installed hop htype R₁.host.sort i g.linkSubnet [] h4
    refine ⟨_, rfl, (copies_of_resolveGiaddr hg).2 ip hip, ?_⟩
    rw [hc.wire]
    have hhops : (p.dhcp.relayHops + 1).toNat = 1 := by rw [hzero]; rfl
    have hpos : 0 < p.dhcp.relayHops + 1 := by rw [hzero]; decide
    have hthere := passes_request lib
      (fun R hR => ⟨hworks R (List.mem_cons_of_mem _ hR), hlimit R hR⟩) hc hpos
      (n := Rs.length + 1) (by rw [Nat.add_comm Rs.length, ← hhops]; rfl) hlen
    refine hthere.mono (fun m ⟨hm, hmhops⟩ => ⟨hmhops, hm.wire, hm.option82, ?_⟩)
    intro r way ha hway
    have hmem : ∀ R ∈ way, R ∈ Rs := fun R hR => List.mem_reverse.mp (hway.subset hR)
    have hrhops : r.relayHops.toNat = Rs.length + 1 := by rw [ha.relayHops, hmhops]
    have hback := passes_reply lib hglobal
      (fun R hR => ⟨hworks R (List.mem_cons_of_mem _ (hmem R hR)), hlimit R (hmem R hR),
        hdisj R (hmem R hR) giaddr howns⟩) (hm.answered ha)
      (by rw [hrhops]; exact Nat.lt_succ_of_le (by simpa using hway.length_le))
      (by rw [UInt8.le_iff_toNat_le, hrhops]; exact hlen)
    exact hback.mono (fun r' ⟨hr', h1, hmax⟩ q j hcq hq hj =>
      delivered_of_routed hw₁ hi hi' hifi hup hhw (linkSubnet_of_resolveGiaddr hg) hglobal
        howns hr' h1 hmax hcq hq hj)

/-! ## A chain of two -/

/-- A relay on a host with one numbered interface. -/
def firstNode : Node := ⟨numberedHost, plainOptions, ⟨1500, false⟩⟩

/-- A relay on another host. -/
def secondNode : Node :=
  ⟨.ofInterfaces
      [(⟨3, "eth1".toList, [2, 0, 0, 0, 0, 3], true⟩,
        [.ipNet ⟨[10, 0, 0, 2], [255, 255, 255, 0]⟩])],
    plainOptions, ⟨1500, false⟩⟩

/-- The copy of a DISCOVER that the first relay sends, as the second one receives it. -/
def copyPacket : Packet where
  ipv4 := ⟨false, 0, 5, [192, 168, 50, 1], [10, 0, 0, 2], ⟨true, 0, 0⟩⟩
  udp := ⟨67, none, ⟨true, 0, 0⟩⟩
  dhcp :=
    { stamp (SortBy.insertion _) (discoverPacket [0xaa] (by decide)).filtered
        (installedOption82 2 [] []) with
      relayAgentIP := [192, 168, 50, 1] }
  decoded :=
    { length_data := by decide
      end_last := by decide
      length_clientIP := rfl
      length_yourClientIP := rfl
      length_relayAgentIP := rfl
      length_clientHWAddr := rfl }

/-- The OFFER for the client, with the hops that are still to go. -/
def returnPacket (hops : UInt8) : Packet where
  ipv4 := ⟨false, 0, 5, [10, 0, 0, 1], [192, 168, 50, 1], ⟨true, 0, 0⟩⟩
  udp := ⟨67, none, ⟨true, 0, 0⟩⟩
  dhcp :=
    { offerOf [] with
      hardwareType := 1
      hardwareLen := 6
      relayHops := hops
      clientIP := [0, 0, 0, 0]
      yourClientIP := [192, 168, 50, 77]
      relayAgentIP := [192, 168, 50, 1] }
  decoded :=
    { length_data := by
        show ∀ o ∈ (offerOf []).options, o.length.toNat = o.data.length
        decide
      end_last := by
        show ∀ o ∈ (offerOf []).options.dropLast, o.type ≠ optEnd
        decide
      length_clientIP := rfl
      length_yourClientIP := rfl
      length_relayAgentIP := rfl
      length_clientHWAddr := rfl }

/-- A DISCOVER goes through two relays to the server, and the OFFER comes back the same
way. -/
theorem chain_roundTrip_discover :
    firstNode.sent .literal 2 (discoverPacket [0xaa] (by decide))
        = [.datagram "10.0.0.1".toList copyPacket.dhcp]
      ∧ (∃ m, secondNode.sent .literal 3 copyPacket = [.datagram "10.0.0.1".toList m]
        ∧ m.relayHops = 2 ∧ Answers m (returnPacket 2).dhcp)
      ∧ secondNode.sent .literal 3 (returnPacket 2)
        = [.datagram "192.168.50.1".toList (returnPacket 1).dhcp]
      ∧ ∃ f, firstNode.sent .literal 2 (returnPacket 1) = [.frame f] ∧ f.nic = 2
        ∧ (∀ o ∈ f.message.options, o.type ≠ relayAgentInformation)
        ∧ f.message.relayAgentIP = [] ∧ f.message.clientHWAddr = [2, 0, 0, 0, 0, 1] := by
  have hworks : ∀ R ∈ [firstNode, secondNode], R.Works := by
    intro R hR
    rcases List.mem_cons.mp hR with rfl | hR
    · exact ⟨fun _ => rfl, fun _ => rfl, rfl, rfl, rfl⟩
    · cases List.mem_singleton.mp hR
      exact ⟨fun _ => rfl, fun _ => rfl, rfl, rfl, rfl⟩
  have hdisj : ∀ R ∈ [secondNode], ∀ ip4, Owns firstNode.host firstNode.cfg ip4 →
      ¬ Owns R.host R.cfg ip4 := by
    intro R hR ip4 h₁ h₂
    cases List.mem_singleton.mp hR
    obtain ⟨_, n₁, hall₁, hn₁, h4₁⟩ | ⟨hne, -⟩ := h₁
    · obtain ⟨_, n₂, hall₂, hn₂, h4₂⟩ | ⟨hne, -⟩ := h₂
      · cases hall₁
        cases hall₂
        cases List.mem_singleton.mp hn₁
        cases List.mem_singleton.mp hn₂
        exact absurd (h4₁.trans h4₂.symm) (by decide)
      · exact hne rfl
    · exact hne rfl
  have hifi : firstNode.host.interfaceByIndex 2
      = .ok ⟨2, "eth0".toList, [2, 0, 0, 0, 0, 2], true⟩ := rfl
  have hp : firstNode.Accepts .literal (discoverPacket [0xaa] (by decide)) :=
    show validateLayers _ _ _ = none by decide
  have hg : resolveGiaddr firstNode.host firstNode.cfg {} 2
      = .ok { addrs := [⟨[192, 168, 50, 1], [255, 255, 255, 0]⟩] } := rfl
  have h := chain_roundTrip .literal firstNode [secondNode] hworks
    (Host.coherent_ofInterfaces _) (by simp [firstNode, secondNode]) (by decide) hdisj
    (by decide) (by decide) hifi rfl (by decide) hp rfl rfl hg
  have hsent : firstNode.sent .literal 2 (discoverPacket [0xaa] (by decide))
      = [.datagram "10.0.0.1".toList copyPacket.dhcp] := by decide
  rw [hsent] at h ⊢
  obtain ⟨c, hc, -, hthere⟩ := h.2 _ List.mem_cons_self
  cases hc
  -- there
  obtain ⟨m, hm, -, -, -, hback⟩ := hthere copyPacket 3 ⟨rfl, rfl, rfl, rfl, rfl, rfl, rfl, rfl⟩
    (show validateLayers _ _ _ = none by decide) (by decide)
  have hpassed : secondNode.sent .literal 3 copyPacket
      = [.datagram "10.0.0.1".toList { copyPacket.dhcp with relayHops := 2 }] := by decide
  cases hpassed.symm.trans hm
  have hans : Answers { copyPacket.dhcp with relayHops := 2 } (returnPacket 2).dhcp :=
    { operation := rfl
      messageType := ⟨newDHCPOption optMessageType [2], rfl⟩
      valid := rfl
      relayHops := rfl
      relayAgentIP := rfl
      clientHWAddr := rfl
      option82 := rfl }
  -- and back
  obtain ⟨r, hr, hend⟩ := hback _ [secondNode] hans (List.Sublist.refl _) (returnPacket 2) 3
    ⟨rfl, rfl, rfl, rfl, rfl, rfl, rfl, rfl⟩ (show validateLayers _ _ _ = none by decide)
    (by decide)
  have hreturned : secondNode.sent .literal 3 (returnPacket 2)
      = [.datagram "192.168.50.1".toList (returnPacket 1).dhcp] := by decide
  cases hreturned.symm.trans hr
  exact ⟨rfl, ⟨_, hpassed, rfl, hans⟩, hreturned, hend (returnPacket 1) 2
    ⟨rfl, rfl, rfl, rfl, rfl, rfl, rfl, rfl⟩ (show validateLayers _ _ _ = none by decide)
    (by decide)⟩
