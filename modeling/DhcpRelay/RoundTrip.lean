import DhcpRelay.Request

/-!
# The policy round trip

A request is tagged with the policy key that matched it, so that the reply,
which may carry neither the client identifier nor anything else the policy
knows the client by, can be given the reply action of the same entry. The
reply brings the tag back in Option 82, and the gate looks it up.

The gate looks up something else before. So that a forged tag cannot get past
a denial, a reply is dropped when Option 61 and the hardware address alone
already resolve to a denial, and this is where the round trip can break. A
client that was admitted by its Option 61, and whose hardware address is not
listed in a table without a catch-all, has its reply dropped whenever the
server does not echo Option 61. `policyRoundTrip_iff` says that this is the
only way it breaks.
-/

open Dhcp MacPolicy

namespace Relay

/-! ## The tag in a reply -/

/-- The sub-options of a packet are those of its first Option 82. -/
theorem subOptions_congr {m r : DHCPv4}
    (h : getOption r relayAgentInformation = getOption m relayAgentInformation) :
    subOptions r = subOptions m := by
  rw [subOptions, subOptions, getRelayAgentInformationOption,
    getRelayAgentInformationOption, h]

/-- The sub-options of a packet that carries a relay's Option 82. -/
theorem subOptions_of_installed {layer : DHCPv4} {ifIndex : ℤ} {linkSubnet : IP}
    {tag : Bytes} (hl : linkSubnet = [] ∨ linkSubnet.length = 4)
    (h : getOption layer relayAgentInformation
      = installedOption82 ifIndex linkSubnet tag) :
    subOptions layer = installedSubOptions ifIndex linkSubnet tag := by
  have hopt := isOption_installedOption82 ifIndex tag hl
  have hdata := (installedSubOptions_wf ifIndex tag hl).2.2
  have hget : getRelayAgentInformationOption layer
      = installedOption82 ifIndex linkSubnet tag := by
    have hlen : ¬ (installedOption82 ifIndex linkSubnet tag).length < 1 := by
      rw [isOption, decide_eq_true_eq, UInt8.lt_iff_toNat_lt] at hopt
      rw [UInt8.lt_iff_toNat_lt]
      exact Nat.not_lt.mpr hopt
    have hne : (installedOption82 ifIndex linkSubnet tag).data ≠ [] := hdata
    simp [getRelayAgentInformationOption, h, hopt, hlen, hne]
  rw [subOptions, hget, if_pos hopt, decode_installedOption82 ifIndex tag hl]

/-- A stamped copy carries the relay's Option 82, and no other. -/
theorem getOption_stamp (S : OptionSort) (layer : DHCPv4) (ifIndex : ℤ)
    (linkSubnet : IP) (tag : Bytes) (giaddr : IP) :
    getOption { stamp S layer (installedOption82 ifIndex linkSubnet tag) with
        relayAgentIP := giaddr } relayAgentInformation
      = installedOption82 ifIndex linkSubnet tag :=
  getOption_setOption_self S layer (installedOption82 ifIndex linkSubnet tag)

/-- Every copy carries the Option 82 that was made for its subnet. -/
theorem getOption_of_mem_attempts {host : Host} {cfg : HandleOptions} {dec : Decision}
    {ifIndex : ℤ} {layer : DHCPv4} {a : Attempt}
    (ha : a ∈ (handleGenericRequest host cfg dec ifIndex layer).attempts) :
    ∃ g, resolveGiaddr host cfg dec ifIndex = .ok g
      ∧ getOption a.emission.message relayAgentInformation
        = installedOption82 ifIndex g.linkSubnet dec.policyTag := by
  rcases handleGenericRequest_cases host cfg dec ifIndex layer with ⟨e, he⟩ | ⟨g, -, hg, he⟩
  · rw [he] at ha
    cases ha
  · rw [he] at ha
    obtain ⟨ip, -, hm⟩ := mem_attempts_sendCopies ha
    refine ⟨g, hg, ?_⟩
    rw [hm]
    exact getOption_stamp host.sort layer ifIndex g.linkSubnet dec.policyTag ip

/-- **The tag of a relayed copy**: where the key is in its Option 82 at all,
it is the tag that is read back. -/
theorem policyTag_of_mem_attempts {host : Host} {cfg : HandleOptions}
    {dec : Decision} {ifIndex : ℤ} {m copy : DHCPv4} {dst : Text}
    {err : Option String}
    (hcopy : ⟨.datagram dst copy, err⟩
      ∈ (handleGenericRequest host cfg dec ifIndex m).attempts)
    (htag : ∃ o ∈ subOptions copy, o.type = policyTagSubOption) :
    policyTag copy = dec.policyTag := by
  obtain ⟨g, hg, hopt⟩ := getOption_of_mem_attempts hcopy
  have hl := linkSubnet_of_resolveGiaddr hg
  have hsub : subOptions copy = _ := subOptions_of_installed hl hopt
  rw [hsub] at htag
  rw [policyTag, hsub, extractPolicyTag_installed ifIndex dec.policyTag hl]
  split_ifs with hfit
  · rfl
  · obtain ⟨o, ho, hot⟩ := htag
    rw [installedSubOptions, if_neg hfit, List.append_nil] at ho
    exact absurd hot (type_ne_of_mem_routing hl ho)

/-! ## The reply -/

/-- **A server's reply to a relayed copy of a request**: it echoes the
hardware address and, verbatim and once, the Option 82 of the copy, and it
carries the request's Option 61 or none. -/
structure Echoes (m copy r : DHCPv4) : Prop where
  operation : r.operation = opReply
  clientHWAddr : r.clientHWAddr = m.clientHWAddr
  option82 : r.options.filter (fun o => o.type = relayAgentInformation)
    = [getOption copy relayAgentInformation]
  option61 : r.options.filter (fun o => o.type = optClientID)
      = m.options.filter (fun o => o.type = optClientID)
    ∨ r.options.filter (fun o => o.type = optClientID) = []

/-- A reply echoes the tag with Option 82. -/
theorem Echoes.policyTag_eq {m copy r : DHCPv4} (h : Echoes m copy r) :
    policyTag r = policyTag copy := by
  have hget : getOption r relayAgentInformation
      = getOption copy relayAgentInformation := by
    rw [getOption_eq_head, h.option82]
    rfl
  rw [policyTag, policyTag, subOptions_congr hget]

/-- The base action of a reply: the request's own, when the reply identifies
the client as the request did, and the hardware address's otherwise. -/
theorem Echoes.baseAction_eq {m copy r : DHCPv4} (h : Echoes m copy r) (t : Table) :
    baseAction t r
      = if clientID r = clientID m then baseAction t m else t.lookup [m.clientHWAddr] := by
  rw [baseAction, baseAction, h.clientHWAddr]
  split_ifs with hid
  · rw [hid]
  · rcases h.option61 with h61 | h61
    · exact absurd (clientID_congr h61) hid
    · rw [clientID_eq_nil h61, Table.lookup, Table.lookupID_cons,
        t.lookup_entries_of_not_keySize (fun hk => absurd hk.1 (by decide))]
      rfl

/-- **When the round trip closes.** A request was admitted because one of its
identifiers matched an entry, and a server answers a relayed copy that carries
the entry's key. The reply is let through and given the reply action of that
entry exactly when it identifies the client as the request did, or the
hardware address alone is not denied. -/
theorem policyRoundTrip_iff (lib : GoLib) {t : Table} {m copy r : DHCPv4} {a : Action}
    {k : Bytes} {dec : Decision} {host : Host} {cfg : HandleOptions} {ifIndex : ℤ}
    {dst : Text} {err : Option String} (hop : m.operation = opRequest)
    (hadm : (policyForPacket lib m).eval (some t) = (some dec, false))
    (hmatch : t.lookupID [clientID m, m.clientHWAddr] = (a, some k))
    (hcopy : ⟨.datagram dst copy, err⟩
      ∈ (handleGenericRequest host cfg dec ifIndex m).attempts)
    (htag : createPolicyTagSubOption k ∈ subOptions copy)
    (hecho : Echoes m copy r) :
    (∃ d : Decision, (policyForPacket lib r).eval (some t) = (some d, false)
        ∧ d.dropReply = (replyConfig lib a).dropReply
        ∧ d.replyNICMatch = (replyConfig lib a).replyNICMatch)
      ↔ clientID r = clientID m ∨ (t.lookup [m.clientHWAddr]).kind ≠ .blackhole := by
  obtain ⟨-, hentry⟩ := Table.lookup_entries_of_lookupID hmatch
  -- the request was not denied, so it is tagged with the key
  have hreq : requestOutcome a (some k) = (some dec, false) := by
    rw [← hadm, eval_policyForPacket_request lib t (DHCPv4.not_reply_of_request hop), hmatch]
  have hkind : a.kind ≠ .blackhole := by
    intro hb
    rw [requestOutcome, if_pos hb] at hreq
    cases hreq
  have hdec : dec.policyTag = k := by
    rw [requestOutcome, if_neg hkind] at hreq
    cases hreq
    rfl
  have hkey : createPolicyTagSubOption k
      = ⟨policyTagSubOption, UInt8.ofNat k.length, k⟩ := by
    have hsize := t.keySize k (AList.lookup_isSome.mp (by rw [hentry]; rfl))
    refine if_neg (fun h => ?_)
    have : maxPolicyTagSize = 241 ∧ maxSubOptionSize = 253 := ⟨rfl, rfl⟩
    have := hsize.1
    have := hsize.2
    omega
  have htagr : policyTag r = k := by
    rw [hecho.policyTag_eq, policyTag_of_mem_attempts hcopy
      ⟨_, htag, by rw [hkey]⟩, hdec]
  have hbase : (baseAction t r).kind ≠ .blackhole
      ↔ clientID r = clientID m ∨ (t.lookup [m.clientHWAddr]).kind ≠ .blackhole := by
    have hm : baseAction t m = a := by rw [baseAction, Table.lookup, hmatch]
    rw [hecho.baseAction_eq t, hm]
    split_ifs with hid
    · exact ⟨fun _ => .inl hid, fun _ => hkind⟩
    · exact ⟨.inr, fun h => h.resolve_left hid⟩
  rw [← hbase, eval_policyForPacket_reply lib t hecho.operation, replyAction,
    mixedAction, htagr, hentry, Option.getD_some]
  constructor
  · rintro ⟨d, hd, -⟩ hb
    rw [if_pos hb, replyOutcome, if_pos hb] at hd
    cases hd
  · intro hb
    refine ⟨{ replyConfig lib a with replySubOpts := subOptions r }, ?_, rfl, rfl⟩
    rw [if_neg hb, replyOutcome, if_neg hkind]

/-! ## A round trip that closes and one that does not -/

/-- A host with one numbered interface. -/
def numberedHost : Host :=
  .ofInterfaces
    [(⟨2, "eth0".toList, [2, 0, 0, 0, 0, 2], true⟩,
      [.ipNet ⟨[192, 168, 50, 1], [255, 255, 255, 0]⟩])]

/-- A configuration with an upstream server and nothing else. -/
def plainOptions : HandleOptions :=
  { dhcpServerAddress := "10.0.0.1".toList, maxHops := 16 }

/-- A DISCOVER of a client that identifies itself by `id` in Option 61. -/
def discoverOf (id : Bytes) : DHCPv4 :=
  { operation := opRequest
    clientHWAddr := [2, 0, 0, 0, 0, 1]
    options := [newDHCPOption optMessageType [1], newDHCPOption optClientID id] }

/-- The copy of a DISCOVER that `numberedHost` relays under the tag `id`. -/
def relayedOf (id : Bytes) : DHCPv4 :=
  { stamp (SortBy.insertion _) (discoverOf id) (installedOption82 2 [] id) with
    relayAgentIP := [192, 168, 50, 1] }

/-- An OFFER that answers it, and echoes Option 82 but not Option 61. -/
def offerOf (id : Bytes) : DHCPv4 :=
  { operation := opReply
    clientHWAddr := [2, 0, 0, 0, 0, 1]
    options := [newDHCPOption optMessageType [2], installedOption82 2 [] id] }

/-- The table `0xaa @default` with a catch-all `* @default`. -/
def catchAllTable : Table :=
  { Table.empty.insert ⟨[0xaa], by decide⟩ { kind := .default } with
    fallback := { kind := .default } }

theorem policyRoundTrip_catchAllTable :
    (policyForPacket .literal (discoverOf [0xaa])).eval (some catchAllTable)
        = (some { policyTag := [0xaa] }, false)
      ∧ ∃ d : Decision,
        (policyForPacket .literal (offerOf [0xaa])).eval (some catchAllTable)
            = (some d, false)
          ∧ d.dropReply = false ∧ d.replyNICMatch = none := by
  have hadm : (policyForPacket .literal (discoverOf [0xaa])).eval (some catchAllTable)
      = (some { policyTag := [0xaa] }, false) := rfl
  have hmatch : catchAllTable.lookupID
      [clientID (discoverOf [0xaa]), (discoverOf [0xaa]).clientHWAddr]
        = ({ kind := .default }, some [0xaa]) := rfl
  have hcopy : ⟨.datagram "10.0.0.1".toList (relayedOf [0xaa]), none⟩
      ∈ (handleGenericRequest numberedHost plainOptions { policyTag := [0xaa] } 2
          (discoverOf [0xaa])).attempts := by decide
  have hecho : Echoes (discoverOf [0xaa]) (relayedOf [0xaa]) (offerOf [0xaa]) :=
    ⟨rfl, rfl, by decide, .inr (by decide)⟩
  exact ⟨hadm, (policyRoundTrip_iff .literal rfl hadm hmatch hcopy (by decide)
    hecho).mpr (.inr (by decide))⟩

/-- A policy file that lists a client by its Option 61 and has no catch-all:
the client is admitted and its request relayed with the tag, and the reply
that echoes the tag and not Option 61 is dropped at the gate. -/
theorem policyRoundTrip_breaks :
    ∃ t : Table, parse .literal "0xaa @default\n".toList = .ok (t, [])
      ∧ (policyForPacket .literal (discoverOf [0xaa])).eval (some t)
        = (some { policyTag := [0xaa] }, false)
      ∧ t.lookupID [clientID (discoverOf [0xaa]), (discoverOf [0xaa]).clientHWAddr]
        = ({ kind := .default }, some [0xaa])
      ∧ ⟨.datagram "10.0.0.1".toList (relayedOf [0xaa]), none⟩
        ∈ (handleGenericRequest numberedHost plainOptions { policyTag := [0xaa] } 2
            (discoverOf [0xaa])).attempts
      ∧ createPolicyTagSubOption [0xaa] ∈ subOptions (relayedOf [0xaa])
      ∧ Echoes (discoverOf [0xaa]) (relayedOf [0xaa]) (offerOf [0xaa])
      ∧ (policyForPacket .literal (offerOf [0xaa])).eval (some t) = (none, true) := by
  refine ⟨_, rfl, rfl, rfl, ?_, ?_, ?_, rfl⟩
  · decide
  · decide
  · exact ⟨rfl, rfl, by decide, .inr (by decide)⟩

end Relay
