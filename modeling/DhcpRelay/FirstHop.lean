import DhcpRelay.LinkMap
import DhcpRelay.RoundTrip

/-!
# What a first hop sends

The first relay a request meets decides two things that nobody decides again:
what is in Option 82, and how many copies go out and under which giaddr.

* `option82_assembly` is the first. The circuit id and the subnet are in every
  Option 82, whatever else is asked of it, and the policy tag is in it exactly
  when the three fit 255 bytes. The keys of a policy table are short enough for
  the tag always to fit where the interface has an address.
* `firstHop_copies` is the second: one copy per address of a numbered
  interface, one copy for an unnumbered interface that the link map knows, and
  no copy and an untouched message in every other case. What an ingress is, and
  the server a copy goes to, are written out there (`Numbered`, `Mapped`) and not
  taken from the handler.
-/

open Dhcp MacPolicy Relay

/-! ## The ingress -/

/-- A usable address of an interface: a network with a global unicast IPv4 address. -/
def Addr.usable : Addr → Bool
  | .ipAddr _ => false
  | .ipNet n => isGlobalUnicastIPv4 n.ip

/-- **A numbered ingress**: the interface exists, and of its addresses the usable
ones, in its order, are `addrs`, at least one. -/
def Numbered (host : Host) (ifIndex : ℤ) (addrs : List IPNet) : Prop :=
  ∃ ifi nets, host.interfaceByIndex ifIndex = .ok ifi ∧ host.addrs ifi = .ok nets
    ∧ nets.filter Addr.usable = addrs.map Addr.ipNet ∧ addrs ≠ []

/-- **An unnumbered ingress that the link map knows**: the interface exists and
has no usable address, the first entry of the map that accepts it has the
subnet, and giaddr is the override, or else the global unicast address that the
host has towards the server of the policy, or towards the configured one where the
policy names none. -/
def Mapped (lib : GoLib) (links : Option LinkMap.Table) (host : Host)
    (cfg : HandleOptions) (dec : Decision) (ifIndex : ℤ) (giaddr subnet : IP) : Prop :=
  ∃ ifi nets t, host.interfaceByIndex ifIndex = .ok ifi ∧ host.addrs ifi = .ok nets
    ∧ nets.filter Addr.usable = [] ∧ links = some t
    ∧ (t.entries.find? (fun e =>
        e.sel.accepts lib ifi.name (hardwareAddrString ifi.hardwareAddr))).map
          LinkMap.Entry.subnet = some subnet
    ∧ if cfg.giaddr ≠ [] then giaddr = cfg.giaddr
      else isGlobalUnicastIPv4 giaddr = true
        ∧ ∃ ip, host.dial (if dec.serverAddress ≠ [] then dec.serverAddress
            else cfg.dhcpServerAddress) = .ok ip ∧ IP.to4 ip = some giaddr

/-- What `InterfaceGlobalUnicastAddrs4` returns, as a filter. -/
theorem interfaceGlobalUnicastAddrs4_ok_iff {host : Host} {ifi : Interface}
    {addrs : List IPNet} :
    interfaceGlobalUnicastAddrs4 host ifi = .ok addrs
      ↔ ∃ nets, host.addrs ifi = .ok nets ∧ nets.filter Addr.usable = addrs.map Addr.ipNet := by
  have hfilter : ∀ nets : List Addr, nets.filter Addr.usable
      = (nets.filterMap (fun addr => match addr with
          | .ipAddr _ => none
          | .ipNet v => if isGlobalUnicastIPv4 v.ip then some v else none)).map Addr.ipNet := by
    intro nets
    induction nets with
    | nil => rfl
    | cons addr nets ih =>
      cases addr with
      | ipAddr ip => exact ih
      | ipNet n =>
        by_cases hn : isGlobalUnicastIPv4 n.ip = true
        · simp [Addr.usable, hn, ih]
        · simp [Addr.usable, hn, ih]
  have hinj : Function.Injective (List.map Addr.ipNet) :=
    List.map_injective_iff.mpr (fun _ _ h => Addr.ipNet.inj h)
  unfold interfaceGlobalUnicastAddrs4
  cases ha : host.addrs ifi with
  | error e =>
    constructor
    · intro h
      cases h
    · rintro ⟨nets, hnets, -⟩
      cases hnets
  | ok nets =>
    constructor
    · intro h
      cases h
      exact ⟨nets, rfl, hfilter nets⟩
    · rintro ⟨nets', hnets', hf⟩
      cases hnets'
      exact congrArg Except.ok (hinj ((hfilter nets).symm.trans hf))

theorem serverFacingAddr_ok_iff {host : Host} {serverAddr : Text} {giaddr : IP} :
    serverFacingAddr host serverAddr = .ok giaddr
      ↔ isGlobalUnicastIPv4 giaddr = true
        ∧ ∃ ip, host.dial serverAddr = .ok ip ∧ IP.to4 ip = some giaddr := by
  constructor
  · intro h
    exact ⟨(serverFacingAddr_ok h).2.1, (serverFacingAddr_ok h).2.2⟩
  · rintro ⟨hg, ip, hdial, h4⟩
    have hip : isGlobalUnicastIPv4 ip = true :=
      (isGlobalUnicastIPv4_iff_to4 ip).mpr ⟨giaddr, h4, hg⟩
    unfold serverFacingAddr
    rw [hdial]
    dsimp only
    rw [h4]
    dsimp only
    rw [if_pos hip]

section Ingress

variable {lib : GoLib} {links : Option LinkMap.Table} {host : Host} {cfg : HandleOptions}
  {dec : Decision} {ifIndex : ℤ}

theorem resolveGiaddr_of_numbered {addrs : List IPNet} (h : Numbered host ifIndex addrs) :
    resolveGiaddr host cfg dec ifIndex = .ok { addrs } := by
  obtain ⟨ifi, nets, hi, hnets, hfilter, hne⟩ := h
  have ha := interfaceGlobalUnicastAddrs4_ok_iff.mpr ⟨nets, hnets, hfilter⟩
  exact resolveGiaddr_of_addrs hi ha hne cfg dec

theorem resolveGiaddr_of_mapped (hlinks : cfg.linkMap = links.map (fun t => t.lookup lib))
    {giaddr subnet : IP} (h : Mapped lib links host cfg dec ifIndex giaddr subnet) :
    resolveGiaddr host cfg dec ifIndex
      = .ok { override := giaddr, linkSubnet := subnet } := by
  obtain ⟨ifi, nets, t, hi, hnets, hfilter, rfl, hsub, hgi⟩ := h
  have ha : interfaceGlobalUnicastAddrs4 host ifi = .ok [] :=
    interfaceGlobalUnicastAddrs4_ok_iff.mpr ⟨nets, hnets, hfilter⟩
  have hmap : cfg.linkMap = some (t.lookup lib) := hlinks
  rw [resolveGiaddr_of_lookup hi ha hmap, unnumberedGiaddr_ok_iff]
  refine ⟨rfl, hsub, ?_⟩
  split at hgi
  · next hne => rw [if_pos hne, hgi]
  · next heq =>
    rw [if_neg heq]
    exact serverFacingAddr_ok_iff.mpr hgi

/-- **What resolves is numbered or mapped.** -/
theorem numbered_or_mapped (hlinks : cfg.linkMap = links.map (fun t => t.lookup lib))
    {g : Giaddrs} (h : resolveGiaddr host cfg dec ifIndex = .ok g) :
    Numbered host ifIndex g.addrs
      ∨ Mapped lib links host cfg dec ifIndex g.override g.linkSubnet := by
  obtain ⟨ifi, hi, ⟨addrs, ha, hne, rfl⟩ | ⟨ha, lookup, hmap, hun⟩⟩ := exists_of_resolveGiaddr h
  · obtain ⟨nets, hnets, hfilter⟩ := interfaceGlobalUnicastAddrs4_ok_iff.mp ha
    exact .inl ⟨ifi, nets, hi, hnets, hfilter, hne⟩
  · obtain ⟨nets, hnets, hfilter⟩ := interfaceGlobalUnicastAddrs4_ok_iff.mp ha
    rw [hlinks, Option.map_eq_some_iff] at hmap
    obtain ⟨t, rfl, rfl⟩ := hmap
    obtain ⟨-, hsub, hgi⟩ := unnumberedGiaddr_ok_iff.mp hun
    refine .inr ⟨ifi, nets, t, hi, hnets, hfilter, rfl, hsub, ?_⟩
    split at hgi
    · next hne => rw [if_pos hne, hgi]
    · next heq =>
      rw [if_neg heq]
      exact serverFacingAddr_ok_iff.mp hgi

end Ingress

/-! ## Option 82 -/

/-- The routing sub-options: the circuit id, then the four bytes of the subnet. -/
theorem routingSubOptions_eq (ifIndex : ℤ) {subnet : IP}
    (hs : subnet = [] ∨ (IP.to4 subnet).isSome = true) :
    routingSubOptions ifIndex subnet
      = createAgentCircuitIDSubOption (UInt32.ofInt ifIndex)
        :: (IP.to4 subnet).toList.map (fun v4 => ⟨linkSelectionSubOption, 4, v4⟩) := by
  unfold routingSubOptions createLinkSelectionSubOption
  rcases hs with rfl | hs
  · rfl
  · obtain ⟨v4, h4⟩ := Option.isSome_iff_exists.mp hs
    have hne : subnet ≠ [] := by
      rintro rfl
      cases h4
    rw [if_pos hne, h4]
    rfl

/-- The same for a subnet of four bytes. -/
theorem routingSubOptions_of_length (ifIndex : ℤ) {linkSubnet : IP}
    (hl : linkSubnet.length = 4) :
    routingSubOptions ifIndex linkSubnet
      = [createAgentCircuitIDSubOption (UInt32.ofInt ifIndex),
          ⟨linkSelectionSubOption, 4, linkSubnet⟩] := by
  rw [routingSubOptions_eq ifIndex (.inr (by rw [IP.to4_of_length hl]; rfl)), IP.to4_of_length hl]
  rfl

/-- Both forms of a subnet make the same Option 82. -/
theorem relayOption82_to4 (ifIndex : ℤ) {subnet v4 : IP} (h : IP.to4 subnet = some v4)
    (dec : Decision) :
    relayOption82 ifIndex subnet dec = relayOption82 ifIndex v4 dec := by
  have hrouting : routingSubOptions ifIndex subnet = routingSubOptions ifIndex v4 := by
    rw [routingSubOptions_eq ifIndex (.inr (by rw [h]; rfl)), h,
      routingSubOptions_of_length ifIndex (IP.length_of_to4 h)]
    rfl
  unfold relayOption82 fullSubOptions
  rw [hrouting]

/-- The Agent Circuit ID of an interface: its index in decimal. -/
theorem createAgentCircuitID_of_pos {ifIndex : ℤ} (h₁ : 1 ≤ ifIndex)
    (h₂ : ifIndex < 2 ^ 32) :
    (createAgentCircuitIDSubOption (UInt32.ofInt ifIndex)).data.length
      = (Nat.digits 10 ifIndex.toNat).length := by
  have hnat : (UInt32.ofInt ifIndex).toNat = ifIndex.toNat := by
    rw [UInt32.ofInt, UInt32.toNat_ofNat']
    omega
  show (Decimal.render asciiDigit (UInt32.ofInt ifIndex).toNat).length = _
  rw [Decimal.length_render, hnat, Decimal.digits, if_neg (by omega), List.length_reverse]

/-- The bytes of the routing sub-options. -/
theorem length_routingSubOptions {ifIndex : ℤ} (h₁ : 1 ≤ ifIndex) (h₂ : ifIndex < 2 ^ 32)
    {linkSubnet : IP} (hl : linkSubnet = [] ∨ linkSubnet.length = 4) :
    (subOptionBytes (routingSubOptions ifIndex linkSubnet)).length
      = (2 + (Nat.digits 10 ifIndex.toNat).length)
        + (if linkSubnet = [] then 0 else 6) := by
  rw [length_subOptionBytes]
  rcases hl with rfl | hl
  · show 2 + _ + 0 = _
    rw [createAgentCircuitID_of_pos h₁ h₂, if_pos rfl]
  · rw [routingSubOptions_of_length ifIndex hl, List.map_cons, List.sum_cons,
      createAgentCircuitID_of_pos h₁ h₂, if_neg (List.ne_nil_of_length_eq_add_one hl)]
    show _ + (2 + linkSubnet.length + 0) = _
    rw [hl]

/-- The Link Selections of what a relay installs: the subnet, once, or none. -/
theorem filter_linkSelection_installed (ifIndex : ℤ) {linkSubnet : IP} (tag : Bytes)
    (hl : linkSubnet = [] ∨ linkSubnet.length = 4) :
    (installedSubOptions ifIndex linkSubnet tag).filter
        (fun o => o.type = linkSelectionSubOption)
      = if linkSubnet = [] then [] else [⟨linkSelectionSubOption, 4, linkSubnet⟩] := by
  have htag : (if TagFits ifIndex linkSubnet tag then [createPolicyTagSubOption tag]
      else []).filter (fun o => o.type = linkSelectionSubOption) = [] := by
    split
    · next hfit =>
      rw [(createPolicyTagSubOption_of_fits hl hfit).1]
      exact List.filter_cons_of_neg
        (by simp [show policyTagSubOption ≠ linkSelectionSubOption by decide])
    · rfl
  rw [installedSubOptions, List.filter_append, htag, List.append_nil]
  rcases hl with rfl | hl
  · rfl
  · rw [routingSubOptions_of_length ifIndex hl, if_neg (List.ne_nil_of_length_eq_add_one hl)]
    rfl

/-- The subnet of what a relay installs is read back. -/
theorem extractLinkSelection_installed (ifIndex : ℤ) {linkSubnet : IP} (tag : Bytes)
    (hl : linkSubnet = [] ∨ linkSubnet.length = 4) :
    extractLinkSelectionSubOptionData (installedSubOptions ifIndex linkSubnet tag)
      = IP.to4 linkSubnet := by
  have hfind : (installedSubOptions ifIndex linkSubnet tag).find?
      (fun opt => opt.type = linkSelectionSubOption ∧ opt.data.length = 4)
      = ((installedSubOptions ifIndex linkSubnet tag).filter
          (fun o => o.type = linkSelectionSubOption)).find? (fun o => o.data.length = 4) := by
    rw [List.find?_filter]
    refine congrArg (fun p => List.find? p _) ?_
    funext o
    simp only [Bool.decide_and, Bool.decide_eq_true]
  rw [extractLinkSelectionSubOptionData, hfind, filter_linkSelection_installed ifIndex tag hl]
  rcases hl with rfl | hl
  · rfl
  · rw [if_neg (List.ne_nil_of_length_eq_add_one hl), List.find?_cons_of_pos (by simpa using hl),
      IP.to4_of_length hl]
    rfl

/-- The policy tag fits beside the routing sub-options, byte by byte. -/
theorem tagFits_iff {ifIndex : ℤ} (h₁ : 1 ≤ ifIndex) (h₂ : ifIndex < 2 ^ 32)
    {linkSubnet : IP} (hl : linkSubnet = [] ∨ linkSubnet.length = 4) (tag : Bytes) :
    TagFits ifIndex linkSubnet tag
      ↔ tag ≠ [] ∧ (2 + (Nat.digits 10 ifIndex.toNat).length)
          + (if linkSubnet = [] then 0 else 6) + (2 + tag.length) ≤ 255 := by
  unfold TagFits
  rw [length_routingSubOptions h₁ h₂ hl]
  rfl

/-- What a relay installs for an interface, sub-option by sub-option. -/
theorem installedSubOptions_eq {ifIndex : ℤ} (h₁ : 1 ≤ ifIndex) (h₂ : ifIndex < 2 ^ 32)
    {linkSubnet : IP} (hl : linkSubnet = [] ∨ linkSubnet.length = 4) (tag : Bytes) :
    installedSubOptions ifIndex linkSubnet tag
      = [createAgentCircuitIDSubOption (UInt32.ofInt ifIndex)]
        ++ (IP.to4 linkSubnet).toList.map (fun v4 => ⟨linkSelectionSubOption, 4, v4⟩)
        ++ (if tag ≠ [] ∧ (2 + (Nat.digits 10 ifIndex.toNat).length)
              + (if linkSubnet = [] then 0 else 6) + (2 + tag.length) ≤ 255 then
            [⟨policyTagSubOption, UInt8.ofNat tag.length, tag⟩] else []) := by
  have hsome : linkSubnet = [] ∨ (IP.to4 linkSubnet).isSome = true :=
    hl.imp_right (fun h => by rw [IP.to4_of_length h]; rfl)
  rw [installedSubOptions, routingSubOptions_eq ifIndex hsome]
  by_cases hfit : TagFits ifIndex linkSubnet tag
  · rw [if_pos hfit, if_pos ((tagFits_iff h₁ h₂ hl tag).mp hfit),
      (createPolicyTagSubOption_of_fits hl hfit).1]
    rfl
  · rw [if_neg hfit, if_neg (fun h => hfit ((tagFits_iff h₁ h₂ hl tag).mpr h))]
    rfl

/-- **A policy key always fits** where the interface has an address. -/
theorem tagFits_of_keySize {ifIndex : ℤ} {id : Bytes} (h : KeySize id) :
    TagFits ifIndex [] id := by
  have hcid := length_circuitID (UInt32.ofInt ifIndex)
  have hbytes : (subOptionBytes (routingSubOptions ifIndex [])).length
      = 2 + (Decimal.render asciiDigit (UInt32.ofInt ifIndex).toNat).length := by
    rw [length_subOptionBytes]
    rfl
  have hkey : maxPolicyTagSize = 241 := rfl
  have hmax : maxOptionSize = 255 := rfl
  have hten : maxAgentCircuitIDSize = 10 := rfl
  obtain ⟨hpos, hle⟩ := h
  refine ⟨List.ne_nil_of_length_pos hpos, ?_⟩
  rw [hbytes]
  omega

/-- A subnet with a four byte form stands for this form in Option 82. -/
theorem exists_relayOption82_eq (ifIndex : ℤ) {subnet : IP} (dec : Decision)
    (hs : subnet = [] ∨ (IP.to4 subnet).isSome = true) :
    ∃ linkSubnet : IP, (linkSubnet = [] ∨ linkSubnet.length = 4)
      ∧ relayOption82 ifIndex subnet dec = relayOption82 ifIndex linkSubnet dec
      ∧ IP.to4 subnet = IP.to4 linkSubnet ∧ (subnet = [] ↔ linkSubnet = []) := by
  rcases hs with rfl | hs
  · exact ⟨[], .inl rfl, rfl, rfl, Iff.rfl⟩
  · obtain ⟨v4, h4⟩ := Option.isSome_iff_exists.mp hs
    have hlen := IP.length_of_to4 h4
    refine ⟨v4, .inr hlen, relayOption82_to4 ifIndex h4 dec, h4.trans (IP.to4_to4 h4).symm, ?_⟩
    constructor
    · rintro rfl
      cases h4
    · rintro rfl
      cases hlen

/-- **Option 82 keeps the routing data for every tag.** For every interface
index, every subnet in either form or none, and every tag of any length, the
Option 82 of the request path is an option. It decodes to the circuit id, then
the subnet, then the tag exactly when there is one and the three fit 255 bytes;
and each is read back as it went in. It is the Option 82 of every copy the
handler sends. And the key of a policy entry always fits, where the interface
has an address: all copies of such a request bring it. -/
theorem option82_assembly (ifIndex : ℤ) (h₁ : 1 ≤ ifIndex) (h₂ : ifIndex < 2 ^ 32) :
    (∀ (subnet : IP) (dec : Decision), subnet = [] ∨ (IP.to4 subnet).isSome = true →
      ∃ opt82, relayOption82 ifIndex subnet dec = .ok opt82
        ∧ isOption opt82 = true
        ∧ decodeRelayAgentInformationOption opt82
          = [createAgentCircuitIDSubOption (UInt32.ofInt ifIndex)]
            ++ (IP.to4 subnet).toList.map (fun v4 => ⟨linkSelectionSubOption, 4, v4⟩)
            ++ (if dec.policyTag ≠ [] ∧ (2 + (Nat.digits 10 ifIndex.toNat).length)
                  + (if subnet = [] then 0 else 6) + (2 + dec.policyTag.length) ≤ 255 then
                [⟨policyTagSubOption, UInt8.ofNat dec.policyTag.length, dec.policyTag⟩]
              else [])
        ∧ extractAgentCircuitIDSubOptionData (decodeRelayAgentInformationOption opt82)
          = ifIndex
        ∧ extractLinkSelectionSubOptionData (decodeRelayAgentInformationOption opt82)
          = IP.to4 subnet
        ∧ extractPolicyTagSubOptionData (decodeRelayAgentInformationOption opt82)
          = if (2 + (Nat.digits 10 ifIndex.toNat).length)
                + (if subnet = [] then 0 else 6) + (2 + dec.policyTag.length) ≤ 255 then
              dec.policyTag else [])
    ∧ (∀ host cfg dec layer,
      ∀ a ∈ (handleGenericRequest host cfg dec ifIndex layer).attempts,
        ∃ g, resolveGiaddr host cfg dec ifIndex = .ok g
          ∧ relayOption82 ifIndex g.linkSubnet dec
            = .ok (getOption a.emission.message relayAgentInformation))
    ∧ ∀ (t : Table) (dec : Decision), dec.policyTag ∈ t.entries →
      (∃ opt82, relayOption82 ifIndex [] dec = .ok opt82
        ∧ extractPolicyTagSubOptionData (decodeRelayAgentInformationOption opt82)
          = dec.policyTag)
      ∧ ∀ host cfg layer addrs, Numbered host ifIndex addrs →
        ∀ a ∈ (handleGenericRequest host cfg dec ifIndex layer).attempts,
          extractPolicyTagSubOptionData (decodeRelayAgentInformationOption
            (getOption a.emission.message relayAgentInformation)) = dec.policyTag := by
  refine ⟨?_, ?_, ?_⟩
  · intro subnet dec hs
    obtain ⟨linkSubnet, hl, heq, hto4, hnil⟩ := exists_relayOption82_eq ifIndex dec hs
    rw [heq, hto4]
    simp only [hnil]
    refine ⟨_, relayOption82_eq ifIndex dec hl, isOption_installedOption82 ifIndex _ hl, ?_⟩
    rw [decode_installedOption82 ifIndex _ hl]
    refine ⟨installedSubOptions_eq h₁ h₂ hl _,
      extractAgentCircuitID_installed (by omega) h₂ _ _,
      extractLinkSelection_installed ifIndex _ hl, ?_⟩
    rw [extractPolicyTag_installed ifIndex _ hl]
    by_cases htag : dec.policyTag = []
    · rw [htag, if_neg (fun h : TagFits _ _ _ => h.1 rfl), ite_self]
    · simp only [tagFits_iff h₁ h₂ hl, ne_eq, htag, not_false_eq_true, true_and]
  · intro host cfg dec layer a ha
    obtain ⟨g, hg, hopt⟩ := getOption_of_mem_attempts ha
    refine ⟨g, hg, ?_⟩
    rw [hopt, relayOption82_eq ifIndex dec (linkSubnet_of_resolveGiaddr hg)]
  · intro t dec hkey
    have htag : extractPolicyTagSubOptionData (decodeRelayAgentInformationOption
        (installedOption82 ifIndex [] dec.policyTag)) = dec.policyTag := by
      rw [decode_installedOption82 ifIndex _ (.inl rfl),
        extractPolicyTag_installed ifIndex _ (.inl rfl),
        if_pos (tagFits_of_keySize (t.keySize _ hkey))]
    refine ⟨⟨_, relayOption82_eq ifIndex dec (.inl rfl), htag⟩, ?_⟩
    intro host cfg layer addrs hnum a ha
    obtain ⟨g, hg, hopt⟩ := getOption_of_mem_attempts ha
    cases hg.symm.trans (resolveGiaddr_of_numbered hnum)
    rw [hopt]
    exact htag

/-- The longest key fits beside the greatest index, and loses its place to a
subnet. -/
theorem option82_assembly_longestKey :
    ((∃ opt82, relayOption82 4294967295 [] { policyTag := List.replicate 241 7 } = .ok opt82
        ∧ extractPolicyTagSubOptionData (decodeRelayAgentInformationOption opt82)
          = List.replicate 241 7)
      ∧ ∃ opt82, relayOption82 4294967295 [10, 0, 0, 0]
            { policyTag := List.replicate 241 7 } = .ok opt82
        ∧ extractAgentCircuitIDSubOptionData (decodeRelayAgentInformationOption opt82)
          = 4294967295
        ∧ extractPolicyTagSubOptionData (decodeRelayAgentInformationOption opt82) = []) := by
  have hdigits : (Nat.digits 10 (4294967295 : ℤ).toNat).length = 10 := by
    show (Nat.digits 10 4294967295).length = 10
    norm_num
  have h := (option82_assembly 4294967295 (by decide) (by decide)).1
  obtain ⟨opt82, hopt, -, -, -, -, htag⟩ :=
    h [] { policyTag := List.replicate 241 7 } (.inl rfl)
  obtain ⟨opt82', hopt', -, -, hcid, -, htag'⟩ :=
    h [10, 0, 0, 0] { policyTag := List.replicate 241 7 } (.inr rfl)
  refine ⟨⟨opt82, hopt, htag.trans (if_pos ?_)⟩, opt82', hopt', hcid, htag'.trans (if_neg ?_)⟩
  · rw [hdigits, List.length_replicate]
    decide
  · rw [hdigits, List.length_replicate]
    decide

/-! ## The copies -/

section Copies

variable {lib : GoLib} {links : Option LinkMap.Table} {host : Host} {cfg : HandleOptions}
  {dec : Decision} {ifIndex : ℤ} {layer : DHCPv4}

/-- Copies that can be encoded are sent without an error. -/
theorem err_sendCopies (hser : ∀ n, host.serialize n = none) (serverAddr : Text) (n : ℕ)
    (layer : DHCPv4) (giaddrs : List IP) :
    (sendCopies host serverAddr n layer giaddrs).err = none := by
  induction giaddrs generalizing n layer with
  | nil => rfl
  | cons giaddr giaddrs ih =>
    rw [sendCopies]
    simp only [hser n]
    exact ih _ _

/-- A request that resolves below the hop limit is copied. -/
theorem handleGenericRequest_of_resolved (hhops : layer.relayHops < cfg.maxHops)
    {g : Giaddrs} (hg : resolveGiaddr host cfg dec ifIndex = .ok g) :
    handleGenericRequest host cfg dec ifIndex layer
      = sendCopies host (effectiveServerAddress cfg dec) 0
          (stamp host.sort layer (installedOption82 ifIndex g.linkSubnet dec.policyTag))
          g.copies := by
  rw [handleGenericRequest_of_lt hhops, hg]
  exact copyRequest_ok host cfg dec layer (linkSubnet_of_resolveGiaddr hg)

end Copies

/-- The Link Selections in the Option 82 of a message. -/
def linkSelections (m : DHCPv4) : List Bytes :=
  ((subOptions m).filter (fun o => o.type = linkSelectionSubOption)).map DHCPOption.data

/-- The Link Selections of a message that carries the Option 82 of the relay: the
subnet, once, or none. -/
theorem linkSelections_setOption (S : OptionSort) (layer : DHCPv4) (ifIndex : ℤ)
    {linkSubnet : IP} (hl : linkSubnet = [] ∨ linkSubnet.length = 4) (tag : Bytes) :
    linkSelections (setOption S layer (installedOption82 ifIndex linkSubnet tag))
      = if linkSubnet = [] then [] else [linkSubnet] := by
  have hget : getOption (setOption S layer (installedOption82 ifIndex linkSubnet tag))
      relayAgentInformation = installedOption82 ifIndex linkSubnet tag :=
    getOption_setOption_self S layer (installedOption82 ifIndex linkSubnet tag)
  unfold linkSelections
  rw [subOptions_of_installed hl hget, filter_linkSelection_installed ifIndex tag hl]
  split <;> rfl

/-- **Which copies a first hop sends.** Below the hop limit, a numbered ingress
is copied once per address, in the order of the interface and without a Link
Selection, whatever the link map and the override say. An unnumbered ingress
that the link map knows is copied once, with the subnet as its only Link
Selection. Each copy is the message as it was received with the relay's Option 82
in it, one hop more and this giaddr; all go to the server of the policy, or to the
configured one where the policy names none; and none is held back by the failure of
another. In every other case nothing is sent, an error is returned and the message
is as it was received. -/
theorem firstHop_copies (lib : GoLib) (links : Option LinkMap.Table) (host : Host)
    (hser : ∀ n, host.serialize n = none) (cfg : HandleOptions)
    (hlinks : cfg.linkMap = links.map (fun t => t.lookup lib)) (dec : Decision)
    (ifIndex : ℤ) (layer : DHCPv4) :
    (∀ addrs, layer.relayHops < cfg.maxHops → Numbered host ifIndex addrs →
      (handleGenericRequest host cfg dec ifIndex layer).err = none
        ∧ ∃ opt82, relayOption82 ifIndex [] dec = .ok opt82
          ∧ linkSelections (setOption host.sort layer opt82) = []
          ∧ (handleGenericRequest host cfg dec ifIndex layer).attempts
            = addrs.zipIdx.map (fun p =>
              ⟨.datagram (if dec.serverAddress ≠ [] then dec.serverAddress
                  else cfg.dhcpServerAddress)
                { setOption host.sort layer opt82 with
                  relayHops := layer.relayHops + 1
                  relayAgentIP := p.1.ip }, host.send p.2⟩))
    ∧ (∀ giaddr subnet, layer.relayHops < cfg.maxHops →
      Mapped lib links host cfg dec ifIndex giaddr subnet →
      (handleGenericRequest host cfg dec ifIndex layer).err = none
        ∧ ∃ opt82, relayOption82 ifIndex subnet dec = .ok opt82
          ∧ linkSelections (setOption host.sort layer opt82) = [subnet]
          ∧ (handleGenericRequest host cfg dec ifIndex layer).attempts
            = [⟨.datagram (if dec.serverAddress ≠ [] then dec.serverAddress
                  else cfg.dhcpServerAddress)
                { setOption host.sort layer opt82 with
                  relayHops := layer.relayHops + 1
                  relayAgentIP := giaddr }, host.send 0⟩])
    ∧ (cfg.maxHops ≤ layer.relayHops
        ∨ (∀ addrs, ¬ Numbered host ifIndex addrs)
          ∧ (∀ giaddr subnet, ¬ Mapped lib links host cfg dec ifIndex giaddr subnet) →
      ∃ e, handleGenericRequest host cfg dec ifIndex layer
        = { err := some e, layer, attempts := [] }) := by
  refine ⟨?_, ?_, ?_⟩
  · intro addrs hhops hnum
    have hg : resolveGiaddr host cfg dec ifIndex = .ok { addrs } :=
      resolveGiaddr_of_numbered hnum
    rw [handleGenericRequest_of_resolved hhops hg]
    refine ⟨err_sendCopies hser _ _ _ _, installedOption82 ifIndex [] dec.policyTag,
      relayOption82_eq ifIndex dec (.inl rfl),
      (linkSelections_setOption host.sort layer ifIndex (.inl rfl) _).trans (if_pos rfl), ?_⟩
    rw [attempts_sendCopies hser, Giaddrs.copies, if_neg (by simp), List.zipIdx_map,
      List.map_map]
    rfl
  · intro giaddr subnet hhops hmap
    have hg := resolveGiaddr_of_mapped hlinks hmap
    rw [handleGenericRequest_of_resolved hhops hg]
    have hcopies := (copies_of_resolveGiaddr hg).1
    have hover : giaddr ≠ [] := by
      rintro rfl
      exact hcopies rfl
    have hne : subnet ≠ [] := by
      rintro rfl
      obtain ⟨ifi, nets, t, -, -, -, -, hsub, -⟩ := hmap
      cases LinkMap.Table.length_lookup hsub
    have hl : subnet = [] ∨ subnet.length = 4 := linkSubnet_of_resolveGiaddr hg
    refine ⟨err_sendCopies hser _ _ _ _, installedOption82 ifIndex subnet dec.policyTag,
      relayOption82_eq ifIndex dec hl,
      (linkSelections_setOption host.sort layer ifIndex hl _).trans (if_neg hne), ?_⟩
    rw [attempts_sendCopies hser, Giaddrs.copies, if_pos hover]
    rfl
  · intro hother
    rcases handleGenericRequest_cases host cfg dec ifIndex layer with
      ⟨e, he⟩ | ⟨g, hhops, hg, -⟩
    · exact ⟨e, he⟩
    · rcases hother with hmax | ⟨hnum, hmap⟩
      · exact absurd hhops (UInt8.not_lt.mpr hmax)
      · exact ((numbered_or_mapped hlinks hg).elim (hnum _) (hmap _ _)).elim

/-- A host with one interface that has no address. -/
def unnumberedHost : Host :=
  .ofInterfaces [(⟨3, "br0".toList, [2, 0, 0, 0, 0, 3], true⟩, [])]

/-- The link map `name=br0 192.168.7.0/24`. -/
def bridgeLinks : LinkMap.Table :=
  ⟨[⟨[192, 168, 7, 0], { nameGlobs := ["br0".toList] }, rfl⟩]⟩

/-- A configuration with this link map and an override for giaddr. -/
def bridgeOptions : HandleOptions :=
  { plainOptions.withLinkMap .literal (some bridgeLinks) with
    giaddr := [10, 0, 0, 9]
    giaddr_ok := by decide }

/-- A host with an interface of two usable addresses and one without any, which has a
route to 10.0.0.2 only and cannot send its first datagram. -/
def edgeHost : Host :=
  { Host.ofInterfaces
      [(⟨2, "eth0".toList, [2, 0, 0, 0, 0, 2], true⟩,
        [.ipNet ⟨[169, 254, 0, 1], [255, 255, 0, 0]⟩,
          .ipNet ⟨[192, 168, 50, 1], [255, 255, 255, 0]⟩,
          .ipNet ⟨[192, 168, 60, 1], [255, 255, 255, 0]⟩]),
        (⟨3, "br0".toList, [2, 0, 0, 0, 0, 3], true⟩,
        [.ipNet ⟨[169, 254, 0, 2], [255, 255, 0, 0]⟩])] with
    dial := fun serverAddr =>
      if serverAddr = "10.0.0.2".toList then .ok [10, 0, 0, 7]
      else .error "network is unreachable"
    send := fun n => if n = 0 then some "no buffer space available" else none }

/-- DISCOVERs under a policy with a server of its own. From the numbered interface
both copies go to that server, although the first one cannot be sent and a link map and
an override are configured; from the other one the copy goes out under the address
towards that server; and from an interface that does not exist none goes out. -/
theorem firstHop_copies_server :
    (∃ opt82, linkSelections (setOption edgeHost.sort (discoverOf [0xaa]) opt82) = []
      ∧ (handleGenericRequest edgeHost bridgeOptions { serverAddress := "10.0.0.2".toList } 2
          (discoverOf [0xaa])).attempts
        = [⟨.datagram "10.0.0.2".toList
              { setOption edgeHost.sort (discoverOf [0xaa]) opt82 with
                relayHops := 1, relayAgentIP := [192, 168, 50, 1] },
              some "no buffer space available"⟩,
            ⟨.datagram "10.0.0.2".toList
              { setOption edgeHost.sort (discoverOf [0xaa]) opt82 with
                relayHops := 1, relayAgentIP := [192, 168, 60, 1] }, none⟩])
    ∧ (∃ opt82,
      linkSelections (setOption edgeHost.sort (discoverOf [0xaa]) opt82) = [[192, 168, 7, 0]]
      ∧ (handleGenericRequest edgeHost (plainOptions.withLinkMap .literal (some bridgeLinks))
          { serverAddress := "10.0.0.2".toList } 3 (discoverOf [0xaa])).attempts
        = [⟨.datagram "10.0.0.2".toList
              { setOption edgeHost.sort (discoverOf [0xaa]) opt82 with
                relayHops := 1, relayAgentIP := [10, 0, 0, 7] },
              some "no buffer space available"⟩])
    ∧ ∃ e, handleGenericRequest edgeHost bridgeOptions {} 4 (discoverOf [0xaa])
      = { err := some e, layer := discoverOf [0xaa], attempts := [] } := by
  have hnumbered : Numbered edgeHost 2 [⟨[192, 168, 50, 1], [255, 255, 255, 0]⟩,
      ⟨[192, 168, 60, 1], [255, 255, 255, 0]⟩] :=
    ⟨_, _, rfl, rfl, by decide, by decide⟩
  have hmapped : Mapped .literal (some bridgeLinks) edgeHost
      (plainOptions.withLinkMap .literal (some bridgeLinks))
      { serverAddress := "10.0.0.2".toList } 3 [10, 0, 0, 7] [192, 168, 7, 0] :=
    ⟨_, _, bridgeLinks, rfl, rfl, by decide, rfl, by decide, by decide, [10, 0, 0, 7], rfl, rfl⟩
  have hgone : ∀ ifi, edgeHost.interfaceByIndex 4 ≠ .ok ifi := by
    intro ifi h
    cases h
  refine ⟨?_, ?_, ?_⟩
  · have h := firstHop_copies .literal (some bridgeLinks) edgeHost (fun _ => rfl)
      bridgeOptions rfl { serverAddress := "10.0.0.2".toList } 2 (discoverOf [0xaa])
    obtain ⟨-, opt82, -, hlinks, hattempts⟩ := h.1 _ (by decide) hnumbered
    exact ⟨opt82, hlinks, hattempts⟩
  · have h := firstHop_copies .literal (some bridgeLinks) edgeHost (fun _ => rfl)
      (plainOptions.withLinkMap .literal (some bridgeLinks)) rfl
      { serverAddress := "10.0.0.2".toList } 3 (discoverOf [0xaa])
    obtain ⟨-, opt82, -, hlinks, hattempts⟩ := h.2.1 _ _ (by decide) hmapped
    exact ⟨opt82, hlinks, hattempts⟩
  · have h := firstHop_copies .literal (some bridgeLinks) edgeHost (fun _ => rfl)
      bridgeOptions rfl {} 4 (discoverOf [0xaa])
    exact h.2.2 (.inr ⟨fun _ ⟨ifi, _, hi, _⟩ => hgone ifi hi,
      fun _ _ ⟨ifi, _, _, hi, _⟩ => hgone ifi hi⟩)
