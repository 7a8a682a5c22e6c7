import DhcpRelay.Handle
import DhcpRelay.RoundTrip

/-!
# The relay's stamp

A server trusts giaddr and Option 82 to tell it where a client sits, so a
client's own message should never reach it without the relay's stamp: a giaddr
of the relay, and one Option 82, the relay's own, that names the interface the
message came in on. `relayStamp` is that Option 82, and it has no message among
its arguments: nothing the client sent goes into it.

Whether a message is stamped is decided by its hop count and not by its
giaddr. `handle_stamped_iff` says what this leaves open: the client's own
messages that reach a server unstamped are those that state a hop count
between one and the limit, whatever else they carry.
-/

open Dhcp Relay

/-- **The Option 82 a relay puts on the messages of an interface**, when the
interface resolves to a giaddr. -/
def relayStamp (host : Host) (cfg : HandleOptions) (dec : Decision) (ifIndex : ℤ) :
    Option DHCPOption :=
  match resolveGiaddr host cfg dec ifIndex with
  | .error _ => none
  | .ok g => some (installedOption82 ifIndex g.linkSubnet dec.policyTag)

/-- **A stamped message**: giaddr is not zero on the wire, and the only Option
82 is the relay's own, whose circuit id is the ingress interface. -/
def Stamped (host : Host) (cfg : HandleOptions) (dec : Decision) (ifIndex : ℤ)
    (m : DHCPv4) : Prop :=
  IP.wire m.relayAgentIP ≠ [0, 0, 0, 0]
    ∧ ∃ opt82, relayStamp host cfg dec ifIndex = some opt82
      ∧ m.options.filter (fun o => o.type = relayAgentInformation) = [opt82]
      ∧ extractAgentCircuitIDSubOptionData (decodeRelayAgentInformationOption opt82)
        = ifIndex

/-- What `HandleGenericRequest` sends is stamped. -/
theorem stamped_of_resolveGiaddr {host : Host} {cfg : HandleOptions} {dec : Decision}
    {ifIndex : ℤ} (h₁ : 1 ≤ ifIndex) (h₂ : ifIndex < 2 ^ 32) {g : Giaddrs} {ip : IP}
    (hg : resolveGiaddr host cfg dec ifIndex = .ok g) (hip : ip ∈ g.copies)
    (layer : DHCPv4) :
    Stamped host cfg dec ifIndex
      { stamp host.sort layer (installedOption82 ifIndex g.linkSubnet dec.policyTag) with
        relayAgentIP := ip } := by
  have hl := linkSubnet_of_resolveGiaddr hg
  refine ⟨wire_ne_zero_of_isGlobalUnicastIPv4 ((copies_of_resolveGiaddr hg).2 ip hip),
    installedOption82 ifIndex g.linkSubnet dec.policyTag, ?_, ?_, ?_⟩
  · rw [relayStamp, hg]
  · exact filter_type_setOption host.sort layer
      (installedOption82 ifIndex g.linkSubnet dec.policyTag)
  · rw [decode_installedOption82 ifIndex dec.policyTag hl]
    exact extractAgentCircuitID_installed (by omega) h₂ _ _

/-- A relay with a working socket passes a relayed request on. -/
theorem sent_passed {host : Host} (hser : host.serialize 0 = none)
    (hsend : host.send 0 = none) {cfg : HandleOptions} (dec : Option Decision)
    (ifIndex : ℤ) {layer : DHCPv4} (hop : layer.operation = opRequest)
    (htype : (getMessageType layer).isSome = true) (hpos : 0 < layer.relayHops)
    (hmax : layer.relayHops < cfg.maxHops) :
    (handle host cfg dec ifIndex layer).sent
      = [.datagram (effectiveServerAddress cfg (dec.getD {}))
          { layer with relayHops := layer.relayHops + 1 }] := by
  have hhandle : (handle host cfg dec ifIndex layer).attempts
      = [⟨.datagram (effectiveServerAddress cfg (dec.getD {}))
          { layer with relayHops := layer.relayHops + 1 }, none⟩] := by
    rw [handle_of_request htype hop, handleRequest_of_relayed hpos]
    simp only [forwardRelayedRequest, UInt8.not_le.mpr hmax, if_false, relayToServer, hser, hsend]
  rw [Outcome.sent, hhandle]
  rfl

/-- **Which of a client's own messages are stamped.** A request with giaddr
zero reaches a server only with the relay's stamp, whatever the host does,
exactly when it is not one that claims to have been relayed: of a valid type,
with a hop count between one and the limit. -/
theorem handle_stamped_iff (cfg : HandleOptions) (dec : Option Decision) {ifIndex : ℤ}
    (h₁ : 1 ≤ ifIndex) (h₂ : ifIndex < 2 ^ 32) {layer : DHCPv4}
    (hop : layer.operation = opRequest)
    (hgi : IP.wire layer.relayAgentIP = [0, 0, 0, 0]) :
    (∀ host : Host, ∀ e ∈ (handle host cfg dec ifIndex layer).sent,
        Stamped host cfg (dec.getD {}) ifIndex e.message)
      ↔ ¬ ((getMessageType layer).isSome = true ∧ 0 < layer.relayHops
        ∧ layer.relayHops < cfg.maxHops) := by
  constructor
  · rintro h ⟨htype, hpos, hmax⟩
    let host : Host := .ofInterfaces []
    have hser : host.serialize 0 = none := rfl
    have hsent := sent_passed hser rfl dec ifIndex hop htype hpos hmax
    have hstamped := h host _ (by rw [hsent]; exact List.mem_singleton_self _)
    exact hstamped.1 hgi
  · intro hno host e he
    obtain ⟨htype, hem⟩ := emits_of_mem_attempts (Outcome.mem_sent.mp he)
    cases hem with
    | stamped _ _ hg hip => exact stamped_of_resolveGiaddr h₁ h₂ hg hip layer
    | passed _ hpos hmax => exact absurd ⟨htype, hpos, hmax⟩ hno
    | returned hrep => exact absurd hrep (DHCPv4.not_reply_of_request hop)
    | delivered hrep => exact absurd hrep (DHCPv4.not_reply_of_request hop)

/-- A client's own DISCOVER is relayed, and stamped. -/
theorem handle_stamped_discover :
    ∃ e ∈ (handle numberedHost plainOptions none 2 (discoverOf [0xaa])).sent,
      Stamped numberedHost plainOptions {} 2 e.message := by
  have hmem : Emission.datagram "10.0.0.1".toList
      { stamp (SortBy.insertion _) (discoverOf [0xaa]) (installedOption82 2 [] []) with
        relayAgentIP := [192, 168, 50, 1] }
        ∈ (handle numberedHost plainOptions none 2 (discoverOf [0xaa])).sent := by decide
  have hop : (discoverOf [0xaa]).operation = opRequest := rfl
  have hall := (handle_stamped_iff plainOptions none (show (1 : ℤ) ≤ 2 by decide)
    (by decide) hop (by decide)).mpr (by decide)
  exact ⟨_, hmem, hall numberedHost _ hmem⟩

/-- A DISCOVER of a client that states one hop, with giaddr zero and an Option
82 of its own that names the interface 7. -/
def forgedDiscover : DHCPv4 :=
  { discoverOf [0xaa] with
    relayHops := 1
    options := [newDHCPOption optMessageType [1], installedOption82 7 [] []] }

/-- It reaches the server with giaddr zero and the client's own Option 82. -/
theorem forgedDiscover_unstamped :
    (handle numberedHost plainOptions none 2 forgedDiscover).sent
        = [.datagram "10.0.0.1".toList { forgedDiscover with relayHops := 2 }]
      ∧ IP.wire forgedDiscover.relayAgentIP = [0, 0, 0, 0]
      ∧ extractAgentCircuitIDSubOptionData (decodeRelayAgentInformationOption
          (getOption forgedDiscover relayAgentInformation)) = 7 := by
  decide
