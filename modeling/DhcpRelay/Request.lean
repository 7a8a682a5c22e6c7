import DhcpRelay.Host

/-!
# Relaying requests

The two ways a request leaves the relay (`pkg/dhcp4/request.go`). A client's
own request is *stamped*: it gets an Option 82 that names the interface it
came in on and one more hop, and one copy goes out per address of that
interface, under this address as giaddr. An unnumbered interface has no
address, and its requests go out once, under the configured or derived giaddr,
with the client's subnet in Option 82. A request that another relay has
stamped already gets one more hop and is otherwise passed on.

The link map, which has the client's subnet, is a file that may be reloaded while a
request is handled. `resolveGiaddrBy` and `handleGenericRequestBy` are therefore written
over any monad in which the map is asked, and `resolveGiaddr` and `handleGenericRequest`
are these functions on a map that does not change.

* `relayOption82_eq` is the whole of the Option 82 assembly: the routing
  sub-options are always there, and the policy tag is there when it fits.
* `handleGenericRequest_cases` and `forwardRelayedRequest_cases` are what the
  two handlers can do; every later theorem about requests starts from them.
-/

open Dhcp

/-- `EffectiveServerAddress`. -/
def effectiveServerAddress (cfg : HandleOptions) (dec : Decision) : Text :=
  if dec.serverAddress ≠ [] then dec.serverAddress else cfg.dhcpServerAddress

/-- The server for a request under a policy: the one that the action names, or the
configured one. -/
theorem effectiveServerAddress_requestConfig (cfg : HandleOptions) (a : MacPolicy.Action)
    (key : Option Bytes) :
    effectiveServerAddress cfg (Relay.requestConfig a key)
      = if a.kind = .server ∧ a.server ≠ [] then a.server else cfg.dhcpServerAddress := by
  unfold effectiveServerAddress Relay.requestConfig
  by_cases hk : a.kind = .server
  · simp [hk]
  · simp [hk]

/-! ## The giaddr of an ingress interface -/

/-- `ServerFacingAddr`: the address the kernel would use towards a server,
when it is a usable giaddr. -/
def serverFacingAddr (host : Host) (serverAddr : Text) : Except String IP :=
  match host.dial serverAddr with
  | .error e => .error e
  | .ok ip =>
    match IP.to4 ip with
    | none => .error ("no global unicast IPv4 route to server " ++ String.ofList serverAddr)
    | some ip4 =>
      if isGlobalUnicastIPv4 ip then .ok ip4
      else .error ("no global unicast IPv4 route to server " ++ String.ofList serverAddr)

/-- What `ResolveGiaddr` returns. -/
structure Giaddrs where
  /-- The addresses of a numbered ingress. -/
  addrs : List IPNet := []
  /-- The giaddr of an unnumbered ingress. -/
  override : IP := []
  /-- The client subnet of an unnumbered ingress. -/
  linkSubnet : IP := []
  deriving DecidableEq, Repr

/-- What `ResolveGiaddr` returns for an unnumbered ingress, by what the link map says of
it: the server has to be told the client's subnet. -/
def unnumberedGiaddr (host : Host) (cfg : HandleOptions) (dec : Decision) (ifIndex : ℤ)
    (ifi : Interface) : Option IP → Except String Giaddrs
  | none =>
    .error ("no IPv4 on IfIndex=" ++ toString ifIndex ++ " ("
      ++ String.ofList ifi.name ++ ") and no link-map entry")
  | some subnet =>
    if cfg.giaddr ≠ [] then .ok { override := cfg.giaddr, linkSubnet := subnet }
    else
      match serverFacingAddr host (effectiveServerAddress cfg dec) with
      | .error e => .error ("giaddr auto-derive for IfIndex=" ++ toString ifIndex ++ ": " ++ e)
      | .ok giaddr => .ok { override := giaddr, linkSubnet := subnet }

section LinkMap

variable {m : Type → Type} [Monad m] (linkMap : Option (Text → Text → m (Option IP)))

/-- **`ResolveGiaddr`**, over the way that the link map is asked: it may change while it
is. -/
def resolveGiaddrBy (host : Host) (cfg : HandleOptions) (dec : Decision) (ifIndex : ℤ) :
    m (Except String Giaddrs) :=
  let lookupError (e : String) :=
    "interface address lookup error for IfIndex=" ++ toString ifIndex ++ ": " ++ e
  match host.interfaceByIndex ifIndex with
  | .error e => pure (.error (lookupError e))
  | .ok ifi =>
    match interfaceGlobalUnicastAddrs4 host ifi with
    | .error e => pure (.error (lookupError e))
    | .ok (addr :: addrs) => pure (.ok { addrs := addr :: addrs })
    | .ok [] =>
      match linkMap with
      | none => pure (.error ("no IPv4 addresses on IfIndex=" ++ toString ifIndex))
      | some lookup =>
        lookup ifi.name (hardwareAddrString ifi.hardwareAddr) >>= fun subnet =>
          pure (unnumberedGiaddr host cfg dec ifIndex ifi subnet)

end LinkMap

/-- `ResolveGiaddr`, with a link map that stays. -/
def resolveGiaddr (host : Host) (cfg : HandleOptions) (dec : Decision) (ifIndex : ℤ) :
    Except String Giaddrs :=
  Id.run (resolveGiaddrBy (m := Id) cfg.linkMap host cfg dec ifIndex)

/-- An interface with addresses goes by them. -/
theorem resolveGiaddr_of_addrs {host : Host} {ifIndex : ℤ} {ifi : Interface}
    (hi : host.interfaceByIndex ifIndex = .ok ifi) {addrs : List IPNet}
    (ha : interfaceGlobalUnicastAddrs4 host ifi = .ok addrs) (hne : addrs ≠ [])
    (cfg : HandleOptions) (dec : Decision) :
    resolveGiaddr host cfg dec ifIndex = .ok { addrs } := by
  unfold resolveGiaddr resolveGiaddrBy
  rw [hi]
  dsimp only
  rw [ha]
  cases addrs with
  | nil => exact absurd rfl hne
  | cons addr addrs => rfl

/-- And one without goes by the link map. -/
theorem resolveGiaddr_of_lookup {host : Host} {cfg : HandleOptions} {ifIndex : ℤ}
    {ifi : Interface} (hi : host.interfaceByIndex ifIndex = .ok ifi)
    (ha : interfaceGlobalUnicastAddrs4 host ifi = .ok []) {lookup : Text → Text → Option IP}
    (hmap : cfg.linkMap = some lookup) (dec : Decision) :
    resolveGiaddr host cfg dec ifIndex
      = unnumberedGiaddr host cfg dec ifIndex ifi
          (lookup ifi.name (hardwareAddrString ifi.hardwareAddr)) := by
  unfold resolveGiaddr resolveGiaddrBy
  rw [hi]
  dsimp only
  rw [ha, hmap]
  rfl

/-- **What `ResolveGiaddr` goes by.** -/
theorem exists_of_resolveGiaddr {host : Host} {cfg : HandleOptions} {dec : Decision}
    {ifIndex : ℤ} {g : Giaddrs} (h : resolveGiaddr host cfg dec ifIndex = .ok g) :
    ∃ ifi, host.interfaceByIndex ifIndex = .ok ifi
      ∧ ((∃ addrs, interfaceGlobalUnicastAddrs4 host ifi = .ok addrs ∧ addrs ≠ []
          ∧ g = { addrs })
        ∨ interfaceGlobalUnicastAddrs4 host ifi = .ok [] ∧ ∃ lookup, cfg.linkMap = some lookup
          ∧ unnumberedGiaddr host cfg dec ifIndex ifi
            (lookup ifi.name (hardwareAddrString ifi.hardwareAddr)) = .ok g) := by
  unfold resolveGiaddr resolveGiaddrBy at h
  cases hi : host.interfaceByIndex ifIndex with
  | error e => rw [hi] at h; cases h
  | ok ifi =>
    rw [hi] at h
    dsimp only at h
    refine ⟨ifi, rfl, ?_⟩
    cases ha : interfaceGlobalUnicastAddrs4 host ifi with
    | error e => rw [ha] at h; cases h
    | ok l =>
      rw [ha] at h
      cases l with
      | cons addr addrs =>
        cases h
        exact .inl ⟨_, rfl, List.cons_ne_nil _ _, rfl⟩
      | nil =>
        cases hmap : cfg.linkMap with
        | none => rw [hmap] at h; cases h
        | some lookup =>
          rw [hmap] at h
          exact .inr ⟨rfl, lookup, rfl, h⟩

/-- **What an unnumbered ingress resolves to**: the subnet that the link map has for it,
and the configured giaddr or one that leads to the server. -/
theorem unnumberedGiaddr_ok_iff {host : Host} {cfg : HandleOptions} {dec : Decision}
    {ifIndex : ℤ} {ifi : Interface} {answer : Option IP} {g : Giaddrs} :
    unnumberedGiaddr host cfg dec ifIndex ifi answer = .ok g
      ↔ g.addrs = [] ∧ answer = some g.linkSubnet
        ∧ if cfg.giaddr ≠ [] then g.override = cfg.giaddr
          else serverFacingAddr host (effectiveServerAddress cfg dec) = .ok g.override := by
  obtain ⟨addrs, override, linkSubnet⟩ := g
  cases answer with
  | none => simp [unnumberedGiaddr]
  | some subnet =>
    rw [unnumberedGiaddr]
    by_cases hg : cfg.giaddr ≠ []
    · rw [if_pos hg, if_pos hg]
      simp only [Except.ok.injEq, Giaddrs.mk.injEq, Option.some.injEq]
      exact ⟨fun ⟨h1, h2, h3⟩ => ⟨h1.symm, h3, h2.symm⟩, fun ⟨h1, h2, h3⟩ => ⟨h1.symm, h3.symm, h2⟩⟩
    · rw [if_neg hg, if_neg hg]
      cases hfac : serverFacingAddr host (effectiveServerAddress cfg dec) with
      | error e => simp
      | ok giaddr =>
        simp only [Except.ok.injEq, Giaddrs.mk.injEq, Option.some.injEq]
        exact ⟨fun ⟨h1, h2, h3⟩ => ⟨h1.symm, h3, h2⟩, fun ⟨h1, h2, h3⟩ => ⟨h1.symm, h3, h2⟩⟩

/-- The giaddr of each copy that goes out. -/
def Giaddrs.copies (g : Giaddrs) : List IP :=
  if g.override ≠ [] then [g.override] else g.addrs.map IPNet.ip

theorem serverFacingAddr_ok {host : Host} {serverAddr : Text} {ip : IP}
    (h : serverFacingAddr host serverAddr = .ok ip) :
    ip.length = 4 ∧ isGlobalUnicastIPv4 ip = true
      ∧ ∃ x, host.dial serverAddr = .ok x ∧ IP.to4 x = some ip := by
  unfold serverFacingAddr at h
  split at h
  · cases h
  · next x hx =>
    split at h
    · cases h
    · next ip4 h4 =>
      split at h
      · next hg =>
        cases h
        obtain ⟨y, hy, hgy⟩ := (isGlobalUnicastIPv4_iff_to4 x).mp hg
        cases h4.symm.trans hy
        exact ⟨IP.length_of_to4 h4, hgy, x, hx, h4⟩
      · cases h

/-- **What `ResolveGiaddr` resolves to**: the addresses of a numbered ingress,
or one address and a subnet of four bytes for an unnumbered one. -/
theorem resolveGiaddr_cases {host : Host} {cfg : HandleOptions} {dec : Decision}
    {ifIndex : ℤ} {g : Giaddrs} (h : resolveGiaddr host cfg dec ifIndex = .ok g) :
    ∃ ifi, host.interfaceByIndex ifIndex = .ok ifi
      ∧ ((interfaceGlobalUnicastAddrs4 host ifi = .ok g.addrs ∧ g.addrs ≠ []
          ∧ g.override = [] ∧ g.linkSubnet = [])
        ∨ (interfaceGlobalUnicastAddrs4 host ifi = .ok [] ∧ g.addrs = []
          ∧ g.linkSubnet.length = 4
          ∧ ((cfg.giaddr ≠ [] ∧ g.override = cfg.giaddr)
            ∨ serverFacingAddr host (effectiveServerAddress cfg dec)
                = .ok g.override))) := by
  obtain ⟨ifi, hi, ⟨addrs, ha, hne, rfl⟩ | ⟨ha, lookup, hmap, hun⟩⟩ := exists_of_resolveGiaddr h
  · exact ⟨ifi, hi, .inl ⟨ha, hne, rfl, rfl⟩⟩
  · obtain ⟨haddrs, hsub, hgi⟩ := unnumberedGiaddr_ok_iff.mp hun
    refine ⟨ifi, hi, .inr ⟨ha, haddrs, cfg.linkMap_length lookup hmap _ _ _ hsub, ?_⟩⟩
    split at hgi
    · next hne => exact .inl ⟨hne, hgi⟩
    · exact .inr hgi

/-- The subnet is nil or has four bytes. -/
theorem linkSubnet_of_resolveGiaddr {host : Host} {cfg : HandleOptions}
    {dec : Decision} {ifIndex : ℤ} {g : Giaddrs}
    (h : resolveGiaddr host cfg dec ifIndex = .ok g) :
    g.linkSubnet = [] ∨ g.linkSubnet.length = 4 := by
  obtain ⟨-, -, ⟨-, -, -, hs⟩ | ⟨-, -, hs, -⟩⟩ := resolveGiaddr_cases h
  · exact .inl hs
  · exact .inr hs

/-- An override is a usable giaddr in four-byte form. -/
theorem override_ok {host : Host} {cfg : HandleOptions} {dec : Decision} {ip : IP}
    (h : (cfg.giaddr ≠ [] ∧ ip = cfg.giaddr)
      ∨ serverFacingAddr host (effectiveServerAddress cfg dec) = .ok ip) :
    ip.length = 4 ∧ isGlobalUnicastIPv4 ip = true := by
  rcases h with ⟨hne, rfl⟩ | h
  · exact cfg.giaddr_ok.resolve_left hne
  · exact ⟨(serverFacingAddr_ok h).1, (serverFacingAddr_ok h).2.1⟩

/-- **Every copy goes out under a usable giaddr**, and there is a copy. -/
theorem copies_of_resolveGiaddr {host : Host} {cfg : HandleOptions}
    {dec : Decision} {ifIndex : ℤ} {g : Giaddrs}
    (h : resolveGiaddr host cfg dec ifIndex = .ok g) :
    g.copies ≠ [] ∧ ∀ ip ∈ g.copies, isGlobalUnicastIPv4 ip = true := by
  obtain ⟨ifi, -, ⟨ha, hne, ho, -⟩ | ⟨-, -, -, ho⟩⟩ := resolveGiaddr_cases h
  · rw [Giaddrs.copies, if_neg (by simpa using ho)]
    refine ⟨by simpa using hne, fun ip hip => ?_⟩
    obtain ⟨n, hn, rfl⟩ := List.mem_map.mp hip
    exact isGlobalUnicastIPv4_of_mem ha hn
  · obtain ⟨hlen, hglobal⟩ := override_ok ho
    have hover : g.override ≠ [] := by
      intro hnil
      rw [hnil] at hlen
      cases hlen
    rw [Giaddrs.copies, if_pos hover]
    refine ⟨List.cons_ne_nil _ _, fun ip hip => ?_⟩
    rw [List.mem_singleton.mp hip]
    exact hglobal

/-! ## Option 82 -/

/-- The sub-options the server and the reply path need. -/
def routingSubOptions (ifIndex : ℤ) (linkSubnet : IP) : List DHCPOption :=
  createAgentCircuitIDSubOption (UInt32.ofInt ifIndex)
    :: (if linkSubnet ≠ [] then [createLinkSelectionSubOption linkSubnet] else [])

/-- The routing sub-options and the policy tag. -/
def fullSubOptions (ifIndex : ℤ) (linkSubnet : IP) (dec : Decision) : List DHCPOption :=
  let routing := routingSubOptions ifIndex linkSubnet
  if dec.policyTag.length > 0 then routing ++ [createPolicyTagSubOption dec.policyTag]
  else routing

/-- The Option 82 that `HandleGenericRequest` assembles: with the policy tag,
or without it when they do not fit together. -/
def relayOption82 (ifIndex : ℤ) (linkSubnet : IP) (dec : Decision) :
    Except String DHCPOption :=
  if !isOption (createAgentCircuitIDSubOption (UInt32.ofInt ifIndex)) then
    .error ("invalid Agent Circuit ID sub-option for IfIndex=" ++ toString ifIndex)
  else
    let opt82 := encodeRelayAgentInformationOption (fullSubOptions ifIndex linkSubnet dec)
    let opt82 :=
      if isOption opt82 then opt82
      else encodeRelayAgentInformationOption (routingSubOptions ifIndex linkSubnet)
    if !isOption opt82 then
      .error ("could not encode Option 82 for IfIndex=" ++ toString ifIndex)
    else .ok opt82

/-- The policy tag fits beside the routing sub-options. -/
def TagFits (ifIndex : ℤ) (linkSubnet : IP) (tag : Bytes) : Prop :=
  tag ≠ []
    ∧ (subOptionBytes (routingSubOptions ifIndex linkSubnet)).length + (2 + tag.length)
      ≤ maxOptionSize

instance (ifIndex : ℤ) (linkSubnet : IP) (tag : Bytes) :
    Decidable (TagFits ifIndex linkSubnet tag) :=
  inferInstanceAs (Decidable (_ ∧ _))

/-- The sub-options a relay installs. -/
def installedSubOptions (ifIndex : ℤ) (linkSubnet : IP) (tag : Bytes) :
    List DHCPOption :=
  routingSubOptions ifIndex linkSubnet
    ++ (if TagFits ifIndex linkSubnet tag then [createPolicyTagSubOption tag] else [])

/-- **The relay's Option 82.** -/
def installedOption82 (ifIndex : ℤ) (linkSubnet : IP) (tag : Bytes) : DHCPOption :=
  newDHCPOption relayAgentInformation
    (subOptionBytes (installedSubOptions ifIndex linkSubnet tag))

theorem subOptionBytes_append (L L' : List DHCPOption) :
    subOptionBytes (L ++ L') = subOptionBytes L ++ subOptionBytes L' :=
  List.flatMap_append

/-- The routing sub-options are well formed, none is empty, and they take at
most eighteen bytes. -/
theorem routingSubOptions_wf (ifIndex : ℤ) {linkSubnet : IP}
    (hl : linkSubnet = [] ∨ linkSubnet.length = 4) :
    (∀ o ∈ routingSubOptions ifIndex linkSubnet,
        o.length.toNat = o.data.length ∧ o.length ≠ 0)
      ∧ 1 ≤ (subOptionBytes (routingSubOptions ifIndex linkSubnet)).length
      ∧ (subOptionBytes (routingSubOptions ifIndex linkSubnet)).length ≤ 18 := by
  have hcid := length_circuitID (UInt32.ofInt ifIndex)
  have hc := createAgentCircuitIDSubOption_wf (UInt32.ofInt ifIndex)
  have hc0 : (createAgentCircuitIDSubOption (UInt32.ofInt ifIndex)).length ≠ 0 := by
    intro h0
    have := isOption_createAgentCircuitIDSubOption (UInt32.ofInt ifIndex)
    rw [isOption, h0] at this
    cases this
  rw [length_subOptionBytes]
  change 1 ≤ (createAgentCircuitIDSubOption (UInt32.ofInt ifIndex)).data.length
    ∧ (createAgentCircuitIDSubOption (UInt32.ofInt ifIndex)).data.length ≤ 10 at hcid
  rcases hl with rfl | hl
  · rw [routingSubOptions, if_neg (by simp)]
    refine ⟨fun o ho => ?_, ?_, ?_⟩
    · rw [List.mem_singleton.mp ho]
      exact ⟨hc, hc0⟩
    all_goals
      simp only [List.map_cons, List.map_nil, List.sum_cons, List.sum_nil]
      omega
  · have hne : linkSubnet ≠ [] := by
      rintro rfl
      cases hl
    have hlink : createLinkSelectionSubOption linkSubnet
        = ⟨linkSelectionSubOption, 4, linkSubnet⟩ := by
      rw [createLinkSelectionSubOption, IP.to4_of_length hl]
    rw [routingSubOptions, if_pos hne, hlink]
    refine ⟨fun o ho => ?_, ?_, ?_⟩
    · rcases List.mem_cons.mp ho with rfl | ho
      · exact ⟨hc, hc0⟩
      · rw [List.mem_singleton.mp ho]
        exact ⟨hl.symm, show (4 : UInt8) ≠ 0 by decide⟩
    all_goals
      simp only [List.map_cons, List.map_nil, List.sum_cons, List.sum_nil, hl]
      omega

/-- No routing sub-option is a policy tag. -/
theorem type_ne_of_mem_routing {ifIndex : ℤ} {linkSubnet : IP}
    (hl : linkSubnet = [] ∨ linkSubnet.length = 4) {o : DHCPOption}
    (ho : o ∈ routingSubOptions ifIndex linkSubnet) : o.type ≠ policyTagSubOption := by
  rcases List.mem_cons.mp ho with rfl | ho
  · exact show agentCircuitIDSubOption ≠ policyTagSubOption by decide
  · split at ho
    · next hne =>
      rw [List.mem_singleton.mp ho, createLinkSelectionSubOption,
        IP.to4_of_length (hl.resolve_left hne)]
      exact show linkSelectionSubOption ≠ policyTagSubOption by decide
    · cases ho

/-- A tag that fits makes a sub-option of its own. -/
theorem createPolicyTagSubOption_of_fits {ifIndex : ℤ} {linkSubnet : IP} {tag : Bytes}
    (hl : linkSubnet = [] ∨ linkSubnet.length = 4) (h : TagFits ifIndex linkSubnet tag) :
    createPolicyTagSubOption tag
        = ⟨policyTagSubOption, UInt8.ofNat tag.length, tag⟩
      ∧ (UInt8.ofNat tag.length).toNat = tag.length
      ∧ tag.length ≠ 0 := by
  obtain ⟨hne, hfit⟩ := h
  have hbytes := (routingSubOptions_wf ifIndex hl).2.1
  have hmax : maxOptionSize = 255 := rfl
  have hsub : maxSubOptionSize = 253 := rfl
  have hpos : tag.length ≠ 0 := fun h0 => hne (List.length_eq_zero_iff.mp h0)
  refine ⟨?_, UInt8.toNat_ofNat_of_lt' (show tag.length < 2 ^ 8 by omega), hpos⟩
  rw [createPolicyTagSubOption, if_neg (by omega)]

/-- What a relay installs is well formed, not empty, and fits. -/
theorem installedSubOptions_wf (ifIndex : ℤ) {linkSubnet : IP} (tag : Bytes)
    (hl : linkSubnet = [] ∨ linkSubnet.length = 4) :
    (∀ o ∈ installedSubOptions ifIndex linkSubnet tag,
        o.length.toNat = o.data.length ∧ o.length ≠ 0)
      ∧ (subOptionBytes (installedSubOptions ifIndex linkSubnet tag)).length
        ≤ maxOptionSize
      ∧ subOptionBytes (installedSubOptions ifIndex linkSubnet tag) ≠ [] := by
  obtain ⟨hr, hpos, hle⟩ := routingSubOptions_wf ifIndex hl
  have hmax : maxOptionSize = 255 := rfl
  have hbytes : (subOptionBytes (installedSubOptions ifIndex linkSubnet tag)).length
      = (subOptionBytes (routingSubOptions ifIndex linkSubnet)).length
        + if TagFits ifIndex linkSubnet tag then 2 + tag.length else 0 := by
    rw [installedSubOptions, subOptionBytes_append, List.length_append]
    split
    · next hfit =>
      rw [(createPolicyTagSubOption_of_fits hl hfit).1]
      simp [subOptionBytes]
      omega
    · rfl
  refine ⟨?_, ?_, ?_⟩
  · intro o ho
    rcases List.mem_append.mp ho with ho | ho
    · exact hr o ho
    · split at ho
      · next hfit =>
        obtain ⟨htag, hlen, hne⟩ := createPolicyTagSubOption_of_fits hl hfit
        rw [List.mem_singleton.mp ho, htag]
        refine ⟨hlen, fun h0 => hne ?_⟩
        rw [← hlen, show UInt8.ofNat tag.length = 0 from h0]
        rfl
      · cases ho
  · rw [hbytes]
    split
    · next hfit => exact hfit.2
    · omega
  · intro hnil
    rw [hnil] at hbytes
    simp only [List.length_nil] at hbytes
    omega

/-- A set whose tag does not fit does not encode. -/
theorem isOption_encode_of_not_tagFits {ifIndex : ℤ} {linkSubnet : IP} {tag : Bytes}
    (hne : tag ≠ []) (h : ¬ TagFits ifIndex linkSubnet tag) :
    isOption (encodeRelayAgentInformationOption
      (routingSubOptions ifIndex linkSubnet ++ [createPolicyTagSubOption tag])) = false := by
  rw [encode_of_not_fits]
  · rfl
  · by_cases hlen : tag.length = 0 ∨ tag.length > maxSubOptionSize
    · -- the tag's sub-option is the zero option, whose length is zero
      refine .inl ⟨createPolicyTagSubOption tag, by simp, ?_⟩
      rw [createPolicyTagSubOption, if_pos hlen]
    · refine .inr ?_
      have hfit : ¬ (subOptionBytes (routingSubOptions ifIndex linkSubnet)).length
          + (2 + tag.length) ≤ maxOptionSize := fun hle => h ⟨hne, hle⟩
      rw [subOptionBytes_append, List.length_append, createPolicyTagSubOption,
        if_neg hlen]
      simp only [subOptionBytes, List.flatMap_cons, List.flatMap_nil, List.append_nil,
        List.length_cons] at hfit ⊢
      omega

theorem encode_installedSubOptions (ifIndex : ℤ) {linkSubnet : IP} (tag : Bytes)
    (hl : linkSubnet = [] ∨ linkSubnet.length = 4) :
    encodeRelayAgentInformationOption (installedSubOptions ifIndex linkSubnet tag)
      = installedOption82 ifIndex linkSubnet tag := by
  obtain ⟨hwf, hfit, -⟩ := installedSubOptions_wf ifIndex tag hl
  exact encode_of_fits (fun o ho => (hwf o ho).2) hfit

theorem isOption_installedOption82 (ifIndex : ℤ) {linkSubnet : IP} (tag : Bytes)
    (hl : linkSubnet = [] ∨ linkSubnet.length = 4) :
    isOption (installedOption82 ifIndex linkSubnet tag) = true := by
  obtain ⟨-, hfit, hnil⟩ := installedSubOptions_wf ifIndex tag hl
  exact (isOption_newDHCPOption hfit).mpr hnil

/-- Either the full set is what is installed, or it does not encode and the
routing set is what is installed. -/
theorem fullSubOptions_cases (ifIndex : ℤ) (linkSubnet : IP) (dec : Decision) :
    fullSubOptions ifIndex linkSubnet dec
        = installedSubOptions ifIndex linkSubnet dec.policyTag
      ∨ (isOption (encodeRelayAgentInformationOption
            (fullSubOptions ifIndex linkSubnet dec)) = false
        ∧ routingSubOptions ifIndex linkSubnet
          = installedSubOptions ifIndex linkSubnet dec.policyTag) := by
  unfold fullSubOptions installedSubOptions
  by_cases htag : dec.policyTag = []
  · refine .inl ?_
    rw [if_neg (by simp [htag]), if_neg (fun h : TagFits _ _ _ => h.1 htag), List.append_nil]
  · simp only [if_pos (List.length_pos_iff.mpr htag)]
    by_cases hfit : TagFits ifIndex linkSubnet dec.policyTag
    · exact .inl (by rw [if_pos hfit])
    · refine .inr ⟨isOption_encode_of_not_tagFits htag hfit, ?_⟩
      rw [if_neg hfit, List.append_nil]

/-- **The Option 82 assembly never fails**, and installs the routing
sub-options with the policy tag exactly when there is one and it fits. -/
theorem relayOption82_eq (ifIndex : ℤ) {linkSubnet : IP} (dec : Decision)
    (hl : linkSubnet = [] ∨ linkSubnet.length = 4) :
    relayOption82 ifIndex linkSubnet dec
      = .ok (installedOption82 ifIndex linkSubnet dec.policyTag) := by
  have henc := encode_installedSubOptions ifIndex dec.policyTag hl
  have hopt := isOption_installedOption82 ifIndex dec.policyTag hl
  unfold relayOption82
  rw [isOption_createAgentCircuitIDSubOption]
  rcases fullSubOptions_cases ifIndex linkSubnet dec with h | ⟨hno, h⟩
  · simp [h, henc, hopt]
  · simp [hno, h, henc, hopt]

/-- **What a reply that echoes the relay's Option 82 is read as**: the
sub-options that were installed. -/
theorem decode_installedOption82 (ifIndex : ℤ) {linkSubnet : IP} (tag : Bytes)
    (hl : linkSubnet = [] ∨ linkSubnet.length = 4) :
    decodeRelayAgentInformationOption (installedOption82 ifIndex linkSubnet tag)
      = installedSubOptions ifIndex linkSubnet tag :=
  decode_subOptionBytes
    (fun o ho => ((installedSubOptions_wf ifIndex tag hl).1 o ho).1) rfl

/-- The interface index of a Linux interface survives the round trip through
the Agent Circuit ID. -/
theorem extractAgentCircuitID_installed {ifIndex : ℤ} (h₀ : 0 ≤ ifIndex)
    (h₁ : ifIndex < 2 ^ 32) (linkSubnet : IP) (tag : Bytes) :
    extractAgentCircuitIDSubOptionData (installedSubOptions ifIndex linkSubnet tag)
      = ifIndex := by
  have hnat : ((UInt32.ofInt ifIndex).toNat : ℤ) = ifIndex := by
    rw [UInt32.ofInt, UInt32.toNat_ofNat']
    omega
  rw [installedSubOptions, routingSubOptions, List.cons_append,
    extractAgentCircuitID_cons_create, hnat]

/-- The policy tag of what a relay installs: the tag when it fits. -/
theorem extractPolicyTag_installed (ifIndex : ℤ) {linkSubnet : IP} (tag : Bytes)
    (hl : linkSubnet = [] ∨ linkSubnet.length = 4) :
    extractPolicyTagSubOptionData (installedSubOptions ifIndex linkSubnet tag)
      = if TagFits ifIndex linkSubnet tag then tag else [] := by
  have hnone : (routingSubOptions ifIndex linkSubnet).find?
      (fun opt => opt.type = policyTagSubOption) = none := by
    refine List.find?_eq_none.mpr (fun o ho h => ?_)
    exact type_ne_of_mem_routing hl ho (of_decide_eq_true h)
  rw [extractPolicyTagSubOptionData, installedSubOptions, List.find?_append, hnone,
    Option.none_or]
  split_ifs with hfit
  · rw [(createPolicyTagSubOption_of_fits hl hfit).1]
    rfl
  · rfl

/-! ## Sending -/

/-- The loop of `HandleGenericRequest` over the giaddrs, from the `n`-th copy
on: a copy that cannot be encoded ends it, a copy that cannot be sent does
not. -/
def sendCopies (host : Host) (serverAddr : Text) : ℕ → DHCPv4 → List IP → Outcome
  | _, layer, [] => { layer }
  | n, layer, giaddr :: giaddrs =>
    let layer := { layer with relayAgentIP := giaddr }
    match host.serialize n with
    | some e => .failed layer ("layer encoding error: " ++ e)
    | none =>
      let o := sendCopies host serverAddr (n + 1) layer giaddrs
      { o with attempts := ⟨.datagram serverAddr layer, host.send n⟩ :: o.attempts }

/-- A request with the relay's Option 82 and one more hop. -/
def stamp (S : OptionSort) (layer : DHCPv4) (opt82 : DHCPOption) : DHCPv4 :=
  let layer := setOption S layer opt82
  { layer with relayHops := layer.relayHops + 1 }

/-- The rest of `HandleGenericRequest`, when the giaddr is resolved. -/
def copyRequest (host : Host) (cfg : HandleOptions) (dec : Decision) (ifIndex : ℤ)
    (layer : DHCPv4) : Except String Giaddrs → Outcome
  | .error e => .failed layer e
  | .ok g =>
    match relayOption82 ifIndex g.linkSubnet dec with
    | .error e => .failed layer e
    | .ok opt82 =>
      sendCopies host (effectiveServerAddress cfg dec) 0 (stamp host.sort layer opt82) g.copies

/-- **`HandleGenericRequest`**, over the way that the link map is asked: a client's own
request. -/
def handleGenericRequestBy {m : Type → Type} [Monad m]
    (linkMap : Option (Text → Text → m (Option IP))) (host : Host) (cfg : HandleOptions)
    (dec : Decision) (ifIndex : ℤ) (layer : DHCPv4) : m Outcome :=
  if cfg.maxHops ≤ layer.relayHops then
    pure (.failed layer ("hop count " ++ toString layer.relayHops ++ " reaches maximum "
      ++ toString cfg.maxHops ++ " for IfIndex=" ++ toString ifIndex))
  else
    resolveGiaddrBy linkMap host cfg dec ifIndex >>= fun g =>
      pure (copyRequest host cfg dec ifIndex layer g)

/-- `HandleGenericRequest`, with a link map that stays. -/
def handleGenericRequest (host : Host) (cfg : HandleOptions) (dec : Decision)
    (ifIndex : ℤ) (layer : DHCPv4) : Outcome :=
  Id.run (handleGenericRequestBy (m := Id) cfg.linkMap host cfg dec ifIndex layer)

/-- `RelayToServer`. -/
def relayToServer (host : Host) (dst : Text) (layer : DHCPv4) : Outcome :=
  match host.serialize 0 with
  | some e => .failed layer ("layer encoding error: " ++ e)
  | none =>
    { err := host.send 0, layer, attempts := [⟨.datagram dst layer, host.send 0⟩] }

/-- **`ForwardRelayedRequest`**: a request that a relay has stamped. An error
of sending it is logged and not returned. -/
def forwardRelayedRequest (host : Host) (cfg : HandleOptions) (dec : Decision)
    (layer : DHCPv4) : Outcome :=
  if cfg.maxHops ≤ layer.relayHops then
    .failed layer ("hop count " ++ toString layer.relayHops ++ " reaches maximum "
      ++ toString cfg.maxHops)
  else
    { relayToServer host (effectiveServerAddress cfg dec)
        { layer with relayHops := layer.relayHops + 1 } with
      err := none }

/-! ## What the two handlers can do -/

/-- The copies are the message, each under one of the giaddrs. -/
theorem mem_attempts_sendCopies {host : Host} {serverAddr : Text} {n : ℕ}
    {layer : DHCPv4} {giaddrs : List IP} {a : Attempt}
    (h : a ∈ (sendCopies host serverAddr n layer giaddrs).attempts) :
    ∃ ip ∈ giaddrs,
      a.emission = .datagram serverAddr { layer with relayAgentIP := ip } := by
  induction giaddrs generalizing n layer with
  | nil => cases h
  | cons giaddr giaddrs ih =>
    rw [sendCopies] at h
    cases hs : host.serialize n with
    | some e => simp only [hs] at h; cases h
    | none =>
      simp only [hs] at h
      rcases List.mem_cons.mp h with rfl | h
      · exact ⟨giaddr, List.mem_cons_self, rfl⟩
      · -- the later copies start from a message with this giaddr, and overwrite it
        obtain ⟨ip, hip, he⟩ := ih h
        exact ⟨ip, List.mem_cons_of_mem _ hip, he⟩

/-- **A numbered ingress sends one copy per giaddr**, whatever becomes of
sending the others, when every copy can be encoded. -/
theorem attempts_sendCopies {host : Host} (hser : ∀ n, host.serialize n = none)
    (serverAddr : Text) (n : ℕ) (layer : DHCPv4) (giaddrs : List IP) :
    (sendCopies host serverAddr n layer giaddrs).attempts
      = (giaddrs.zipIdx n).map (fun p =>
          ⟨.datagram serverAddr { layer with relayAgentIP := p.1 }, host.send p.2⟩) := by
  induction giaddrs generalizing n layer with
  | nil => rfl
  | cons giaddr giaddrs ih =>
    rw [sendCopies, List.zipIdx_cons, List.map_cons]
    simp only [hser n]
    rw [ih]

/-- Below the hop limit the giaddr is resolved, and the request copied. -/
theorem handleGenericRequest_of_lt {host : Host} {cfg : HandleOptions} {dec : Decision}
    {ifIndex : ℤ} {layer : DHCPv4} (h : layer.relayHops < cfg.maxHops) :
    handleGenericRequest host cfg dec ifIndex layer
      = copyRequest host cfg dec ifIndex layer (resolveGiaddr host cfg dec ifIndex) := by
  rw [handleGenericRequest, handleGenericRequestBy, if_neg (UInt8.not_le.mpr h)]
  rfl

theorem copyRequest_ok (host : Host) (cfg : HandleOptions) (dec : Decision) {ifIndex : ℤ}
    (layer : DHCPv4) {g : Giaddrs} (h : g.linkSubnet = [] ∨ g.linkSubnet.length = 4) :
    copyRequest host cfg dec ifIndex layer (.ok g)
      = sendCopies host (effectiveServerAddress cfg dec) 0
          (stamp host.sort layer (installedOption82 ifIndex g.linkSubnet dec.policyTag))
          g.copies := by
  rw [copyRequest, relayOption82_eq ifIndex dec h]

/-- **What `HandleGenericRequest` can do**: fail with nothing sent and the
message untouched, or send stamped copies. -/
theorem handleGenericRequest_cases (host : Host) (cfg : HandleOptions)
    (dec : Decision) (ifIndex : ℤ) (layer : DHCPv4) :
    (∃ e, handleGenericRequest host cfg dec ifIndex layer = .failed layer e)
      ∨ ∃ g, layer.relayHops < cfg.maxHops
        ∧ resolveGiaddr host cfg dec ifIndex = .ok g
        ∧ handleGenericRequest host cfg dec ifIndex layer
          = sendCopies host (effectiveServerAddress cfg dec) 0
              (stamp host.sort layer
                (installedOption82 ifIndex g.linkSubnet dec.policyTag)) g.copies := by
  by_cases hh : cfg.maxHops ≤ layer.relayHops
  · rw [handleGenericRequest, handleGenericRequestBy, if_pos hh]
    exact .inl ⟨_, rfl⟩
  · cases hg : resolveGiaddr host cfg dec ifIndex with
    | error e =>
      refine .inl ⟨e, ?_⟩
      rw [handleGenericRequest_of_lt (UInt8.not_le.mp hh), hg]
      rfl
    | ok g =>
      refine .inr ⟨g, UInt8.not_le.mp hh, rfl, ?_⟩
      rw [handleGenericRequest_of_lt (UInt8.not_le.mp hh), hg]
      exact copyRequest_ok host cfg dec layer (linkSubnet_of_resolveGiaddr hg)

theorem mem_attempts_relayToServer {host : Host} {dst : Text} {layer : DHCPv4}
    {a : Attempt} (h : a ∈ (relayToServer host dst layer).attempts) :
    a.emission = .datagram dst layer := by
  rw [relayToServer] at h
  split at h
  · cases h
  · rw [List.mem_singleton.mp h]

/-- **What `ForwardRelayedRequest` can do**: fail with nothing sent and the
message untouched, or pass the message on with one more hop. -/
theorem forwardRelayedRequest_cases (host : Host) (cfg : HandleOptions)
    (dec : Decision) (layer : DHCPv4) :
    (∃ e, forwardRelayedRequest host cfg dec layer = .failed layer e)
      ∨ (layer.relayHops < cfg.maxHops
        ∧ (forwardRelayedRequest host cfg dec layer).attempts
          = (relayToServer host (effectiveServerAddress cfg dec)
              { layer with relayHops := layer.relayHops + 1 }).attempts) := by
  rw [forwardRelayedRequest]
  by_cases hh : cfg.maxHops ≤ layer.relayHops
  · rw [if_pos hh]
    exact .inl ⟨_, rfl⟩
  · rw [if_neg hh]
    exact .inr ⟨UInt8.not_le.mp hh, rfl⟩
