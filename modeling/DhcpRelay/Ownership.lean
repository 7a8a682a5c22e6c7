import DhcpRelay.Handle
import DhcpRelay.RoundTrip

/-!
# Which addresses a relay owns

A reply finds its way back by its giaddr: the relay that owns the address
delivers the reply, and every other one forwards it there. So what the request
path puts into giaddr has to be recognised on the reply path, by the relay that
put it there and by no other.

`Owns` is what a relay recognises, in terms of what the host and the
configuration say: an address of the host or the configured override. The check
of the source asks for a usable address besides, and on usable addresses the two
agree (`giaddrIsLocal_iff`). `owns_of_mem_copies` is the other half: on a
coherent host every giaddr of the request path is owned.

The source tests an address in five places, each written on its own.
`giaddr_owned` compares them: what the request path writes passes the test of
the reply path, and what passes it passes the checks that come after.

A reply whose giaddr is not owned is passed on to that address, which need not be
one that a relay could have written there: `reply_usable_iff` says that multicast
and link-local addresses are what the check of the forwarding path leaves out.
-/

open Dhcp Relay

/-- **A relay owns the four bytes of an address**: they are an address of the
host, or the configured override. -/
def Owns (host : Host) (cfg : HandleOptions) (ip4 : IP) : Prop :=
  (∃ addrs n, host.interfaceAddrs = .ok addrs ∧ Addr.ipNet n ∈ addrs
      ∧ IP.to4 n.ip = some ip4)
    ∨ cfg.giaddr ≠ [] ∧ IP.to4 cfg.giaddr = some ip4

/-- **A host whose answers agree**: the addresses of the host can be listed, and
among them are those of each interface and those the kernel sends from. -/
structure Host.Coherent (host : Host) : Prop where
  listed : ∃ addrs, host.interfaceAddrs = .ok addrs
  addrs : ∀ all, host.interfaceAddrs = .ok all → ∀ i ifi l,
    host.interfaceByIndex i = .ok ifi → host.addrs ifi = .ok l → l ⊆ all
  dial : ∀ all, host.interfaceAddrs = .ok all → ∀ server ip ip4,
    host.dial server = .ok ip → IP.to4 ip = some ip4 →
      ∃ n, Addr.ipNet n ∈ all ∧ IP.to4 n.ip = some ip4

/-- A host that has the given interfaces and no route is coherent. -/
theorem Host.coherent_ofInterfaces (ifaces : List (Interface × List Addr)) :
    (Host.ofInterfaces ifaces).Coherent where
  listed := ⟨_, rfl⟩
  addrs := by
    intro all hall i ifi l _ hl addr haddr
    cases hall
    simp only [Host.ofInterfaces] at hl
    split at hl
    · next q hq =>
      cases hl
      exact List.mem_flatMap.mpr ⟨q, List.mem_of_find?_eq_some hq, haddr⟩
    · cases hl
  dial := by
    intro _ _ _ _ _ h
    cases h

/-- The usable addresses of an interface are addresses of the interface. -/
theorem mem_addrs_of_mem {host : Host} {ifi : Interface} {l : List IPNet}
    (h : interfaceGlobalUnicastAddrs4 host ifi = .ok l) {n : IPNet} (hn : n ∈ l) :
    ∃ all, host.addrs ifi = .ok all ∧ Addr.ipNet n ∈ all := by
  unfold interfaceGlobalUnicastAddrs4 at h
  cases ha : host.addrs ifi with
  | error e => rw [ha] at h; cases h
  | ok all =>
    rw [ha] at h
    cases h
    refine ⟨all, rfl, ?_⟩
    obtain ⟨addr, haddr, hx⟩ := List.mem_filterMap.mp hn
    cases addr with
    | ipAddr ip => cases hx
    | ipNet v =>
      simp only [Option.ite_none_right_eq_some, Option.some.injEq] at hx
      rw [← hx.2]
      exact haddr

/-- An address of the host is recognised exactly when it is usable. -/
theorem isRelayLocalAddr_iff {host : Host} {ip ip4 : IP} (h4 : IP.to4 ip = some ip4) :
    isRelayLocalAddr host ip = true
      ↔ isGlobalUnicastIPv4 ip4 = true
        ∧ ∃ addrs n, host.interfaceAddrs = .ok addrs ∧ Addr.ipNet n ∈ addrs
          ∧ IP.to4 n.ip = some ip4 := by
  have h44 := IP.to4_to4 h4
  have hglobal : ∀ {x : IP}, IP.to4 x = some ip4 →
      (IP.isGlobalUnicast x = true ↔ isGlobalUnicastIPv4 ip4 = true) := by
    intro x hx
    rw [isGlobalUnicastIPv4, h44, Option.isSome_some, Bool.true_and,
      IP.isGlobalUnicast_iff_of_to4 hx, IP.isGlobalUnicast_iff_of_to4 h44]
  unfold isRelayLocalAddr
  rw [h4]
  dsimp only
  constructor
  · intro h
    split at h
    · cases h
    · cases ha : host.interfaceAddrs with
      | error e => rw [ha] at h; cases h
      | ok addrs =>
        rw [ha] at h
        obtain ⟨addr, haddr, hx⟩ := List.any_eq_true.mp h
        cases addr with
        | ipAddr x => cases hx
        | ipNet n =>
          cases hn : IP.to4 n.ip with
          | none => simp [hn] at hx
          | some a4 =>
            simp only [hn, Bool.and_eq_true] at hx
            have heq := (IP.equal_iff_of_to4 (IP.to4_to4 hn) h44).mp hx.2
            subst heq
            exact ⟨(hglobal hn).mp hx.1, addrs, n, rfl, haddr, hn⟩
  · rintro ⟨hg, addrs, n, ha, hmem, hn⟩
    have hu := (not_special_of_isGlobalUnicastIPv4 hg).1
    rw [hu, ha]
    refine List.any_eq_true.mpr ⟨.ipNet n, hmem, ?_⟩
    simp only [hn, Bool.and_eq_true]
    exact ⟨(hglobal hn).mpr hg, (IP.equal_iff_of_to4 h44 h44).mpr rfl⟩

/-- **What `GiaddrIsLocal` recognises**: the usable addresses that the relay
owns. -/
theorem giaddrIsLocal_iff {host : Host} {cfg : HandleOptions} {ip ip4 : IP}
    (h4 : IP.to4 ip = some ip4) :
    giaddrIsLocal host cfg ip = true
      ↔ isGlobalUnicastIPv4 ip4 = true ∧ Owns host cfg ip4 := by
  rw [giaddrIsLocal, Bool.or_eq_true, isRelayLocalAddr_iff h4, Bool.and_eq_true,
    decide_eq_true_eq, Owns, and_or_left]
  refine or_congr Iff.rfl ?_
  constructor
  · rintro ⟨hne, heq⟩
    obtain ⟨hlen, hg⟩ := cfg.giaddr_ok.resolve_left hne
    have hg4 := IP.to4_of_length hlen
    rw [← (IP.equal_iff_of_to4 hg4 h4).mp heq]
    exact ⟨hg, hne, hg4⟩
  · rintro ⟨-, hne, hg4⟩
    exact ⟨hne, (IP.equal_iff_of_to4 hg4 h4).mpr rfl⟩

/-- **The giaddr of every copy is owned**, and usable. -/
theorem owns_of_mem_copies {host : Host} (hco : host.Coherent) {cfg : HandleOptions}
    {dec : Decision} {ifIndex : ℤ} {g : Giaddrs}
    (hg : resolveGiaddr host cfg dec ifIndex = .ok g) {ip : IP} (hip : ip ∈ g.copies) :
    ∃ ip4, IP.to4 ip = some ip4 ∧ isGlobalUnicastIPv4 ip4 = true ∧ Owns host cfg ip4 := by
  obtain ⟨ip4, h4, hglobal⟩ :=
    (isGlobalUnicastIPv4_iff_to4 ip).mp ((copies_of_resolveGiaddr hg).2 ip hip)
  refine ⟨ip4, h4, hglobal, ?_⟩
  obtain ⟨all, hall⟩ := hco.listed
  obtain ⟨ifi, hifi, ⟨ha, -, ho, -⟩ | ⟨-, -, -, ho⟩⟩ := resolveGiaddr_cases hg
  · -- a numbered ingress: its own addresses
    rw [Giaddrs.copies, if_neg (by simpa using ho)] at hip
    obtain ⟨n, hn, rfl⟩ := List.mem_map.mp hip
    obtain ⟨l, hl, hmem⟩ := mem_addrs_of_mem ha hn
    exact .inl ⟨all, n, hall, hco.addrs all hall _ ifi l hifi hl hmem, h4⟩
  · -- an unnumbered one: the override, or the address towards the server
    have hover : g.override ≠ [] := by
      intro hnil
      have hlen := (override_ok ho).1
      rw [hnil] at hlen
      cases hlen
    rw [Giaddrs.copies, if_pos hover] at hip
    cases List.mem_singleton.mp hip
    rcases ho with ⟨hne, heq⟩ | hfac
    · exact .inr ⟨hne, heq ▸ h4⟩
    · obtain ⟨hlen, -, x, hx, hx4⟩ := serverFacingAddr_ok hfac
      cases (IP.to4_of_length hlen).symm.trans h4
      obtain ⟨n, hn, hn4⟩ := hco.dial all hall _ x _ hx hx4
      exact .inl ⟨all, n, hall, hn, hn4⟩

/-! ## The request path and the reply path agree -/

/-- What is no IPv4 address is not recognised. -/
theorem giaddrIsLocal_of_to4_eq_none {host : Host} {cfg : HandleOptions} {ip : IP}
    (h : IP.to4 ip = none) : giaddrIsLocal host cfg ip = false := by
  have haddr : isRelayLocalAddr host ip = false := by
    unfold isRelayLocalAddr
    rw [h]
  rw [giaddrIsLocal, haddr, Bool.false_or]
  rcases cfg.giaddr_ok with hnil | ⟨hlen, -⟩
  · rw [hnil]
    rfl
  · rw [IP.equal_eq_false_of_to4 (IP.to4_of_length hlen) h, Bool.and_false]

/-- **What is recognised is usable.** -/
theorem isGlobalUnicastIPv4_of_giaddrIsLocal {host : Host} {cfg : HandleOptions} {ip : IP}
    (h : giaddrIsLocal host cfg ip = true) : isGlobalUnicastIPv4 ip = true := by
  cases h4 : IP.to4 ip with
  | none =>
    rw [giaddrIsLocal_of_to4_eq_none h4] at h
    cases h
  | some ip4 =>
    exact (isGlobalUnicastIPv4_iff_to4 ip).mpr ⟨ip4, h4, ((giaddrIsLocal_iff h4).mp h).1⟩

/-- A usable giaddr passes the check at the head of `HandleGenericReply`. -/
theorem replySource_of_isGlobalUnicastIPv4 {layer : DHCPv4}
    (h : isGlobalUnicastIPv4 layer.relayAgentIP = true) :
    ∃ srcIP, IP.to4 layer.relayAgentIP = some srcIP ∧ replySource layer = .ok srcIP := by
  obtain ⟨ip4, h4, hg⟩ := (isGlobalUnicastIPv4_iff_to4 _).mp h
  obtain ⟨hu, hl, hb⟩ := not_special_of_isGlobalUnicastIPv4 hg
  rw [IP.isUnspecified, Bool.or_eq_false_iff] at hu
  exact ⟨ip4, h4, replySource_ok_iff.mpr ⟨h4, hl, hu.1, hb⟩⟩

/-- **The giaddr of every copy is recognised when it comes back**, as the four
bytes that went out. -/
theorem giaddrIsLocal_of_mem_attempts {host : Host} (hco : host.Coherent)
    {cfg : HandleOptions} {dec : Decision} {ifIndex : ℤ} {layer : DHCPv4} {a : Attempt}
    (ha : a ∈ (handleGenericRequest host cfg dec ifIndex layer).attempts) :
    giaddrIsLocal host cfg (IP.wire a.emission.message.relayAgentIP) = true := by
  rcases handleGenericRequest_cases host cfg dec ifIndex layer with
    ⟨e, he⟩ | ⟨g, -, hg, he⟩
  · rw [he, attempts_failed] at ha
    cases ha
  · rw [he] at ha
    obtain ⟨ip, hip, hm⟩ := mem_attempts_sendCopies ha
    obtain ⟨ip4, h4, hglobal, howns⟩ := owns_of_mem_copies hco hg hip
    rw [hm]
    show giaddrIsLocal host cfg (IP.wire ip) = true
    rw [IP.wire, h4, Option.getD_some]
    exact (giaddrIsLocal_iff (IP.to4_to4 h4)).mpr ⟨hglobal, howns⟩

/-- **The request path and the reply path agree on giaddr.** On a host whose
answers agree, every giaddr that goes out on a copy is recognised when it is
read back off the wire. And whatever is recognised is a usable address: a reply
to it passes the check at the head of `HandleGenericReply`, and is not
forwarded. -/
theorem giaddr_owned (host : Host) (hco : host.Coherent) (cfg : HandleOptions) :
    (∀ dec ifIndex layer,
      ∀ a ∈ (handleGenericRequest host cfg dec ifIndex layer).attempts,
        giaddrIsLocal host cfg (IP.wire a.emission.message.relayAgentIP) = true)
    ∧ ∀ ip, giaddrIsLocal host cfg ip = true →
      isGlobalUnicastIPv4 ip = true
        ∧ ∀ layer : DHCPv4, layer.relayAgentIP = ip →
          (∃ srcIP, IP.to4 ip = some srcIP ∧ replySource layer = .ok srcIP)
            ∧ (layer.operation = opReply → ∀ dec ifIndex,
              ∀ a ∈ (handle host cfg dec ifIndex layer).attempts,
                ∃ f, a.emission = .frame f) := by
  refine ⟨fun dec ifIndex layer a ha => giaddrIsLocal_of_mem_attempts hco ha, ?_⟩
  intro ip hlocal
  have hglobal := isGlobalUnicastIPv4_of_giaddrIsLocal hlocal
  refine ⟨hglobal, ?_⟩
  rintro layer rfl
  refine ⟨replySource_of_isGlobalUnicastIPv4 hglobal, ?_⟩
  intro hop dec ifIndex a ha
  rcases (emits_of_mem_attempts ha).2.reply_cases hop with ⟨hforeign, -⟩ | ⟨-, hframe⟩
  · rw [hlocal] at hforeign
    cases hforeign
  · exact hframe

/-- A DISCOVER goes out under the address of its interface, and a reply to this
address is recognised, in either form of the address. -/
theorem giaddr_owned_discover :
    (handleGenericRequest numberedHost plainOptions {} 2 (discoverOf [0xaa])).attempts.map
        (fun a => IP.wire a.emission.message.relayAgentIP) = [[192, 168, 50, 1]]
      ∧ giaddrIsLocal numberedHost plainOptions [192, 168, 50, 1] = true
      ∧ isGlobalUnicastIPv4 (IP.ipv4 192 168 50 1) = true := by
  have howned := giaddr_owned numberedHost (Host.coherent_ofInterfaces _) plainOptions
  have hmem : (⟨.datagram "10.0.0.1".toList
      { stamp (SortBy.insertion _) (discoverOf [0xaa]) (installedOption82 2 [] []) with
        relayAgentIP := [192, 168, 50, 1] }, none⟩ : Attempt)
      ∈ (handleGenericRequest numberedHost plainOptions {} 2 (discoverOf [0xaa])).attempts := by
    decide
  have hlocal : giaddrIsLocal numberedHost plainOptions (IP.ipv4 192 168 50 1) = true := by
    decide
  exact ⟨by decide, howned.1 _ _ _ _ hmem, (howned.2 _ hlocal).1⟩

/-! ## Where a reply goes -/

/-- **A reply for another relay that is sent** has passed the checks of
`ForwardRelayedReply`, and could be encoded. -/
theorem returned_of_mem_attempts {host : Host} {cfg : HandleOptions} {dec : Option Decision}
    {ifIndex : ℤ} {layer : DHCPv4} (hop : layer.operation = opReply)
    (hforeign : giaddrIsLocal host cfg layer.relayAgentIP = false) {a : Attempt}
    (ha : a ∈ (handle host cfg dec ifIndex layer).attempts) :
    (getMessageType layer).isSome = true ∧ 1 ≤ layer.relayHops
      ∧ layer.relayHops ≤ cfg.maxHops ∧ (dec.getD {}).dropReply = false
      ∧ host.serialize 0 = none
      ∧ ∃ ip4, IP.to4 layer.relayAgentIP = some ip4 ∧ IP.isUnspecified ip4 = false
        ∧ IP.isLoopback ip4 = false ∧ IP.equal ip4 IP.ipv4bcast = false := by
  obtain ⟨htype, hem⟩ := emits_of_mem_attempts ha
  generalize a.emission = e at hem
  cases hem with
  | stamped hreq => exact absurd hop (DHCPv4.not_reply_of_request hreq)
  | passed hreq => exact absurd hop (DHCPv4.not_reply_of_request hreq)
  | delivered _ _ _ _ hlocal =>
    rw [hforeign] at hlocal
    cases hlocal
  | @returned ip4 _ h1 hmax hdrop _ h4 hu hl hb =>
    refine ⟨htype, h1, hmax, hdrop, ?_, ip4, h4, hu, hl, hb⟩
    rw [handle_reply_eq ifIndex hop htype h1 hmax hdrop, hforeign, Bool.not_false,
      if_pos rfl] at ha
    rcases forwardRelayedReply_cases host layer with ⟨e, he⟩ | ⟨x, -, -, -, -, -, he⟩
    · rw [he, attempts_failed] at ha
      cases ha
    · rw [he, relayToServer] at ha
      split at ha
      · cases ha
      · assumption

/-- **A multicast or link-local giaddr is no obstacle**: such a reply is passed on,
where nothing else stands in the way. -/
theorem exists_attempt_of_unusable {host : Host} {cfg : HandleOptions}
    {dec : Option Decision} (ifIndex : ℤ) {layer : DHCPv4} (hop : layer.operation = opReply)
    (htype : (getMessageType layer).isSome = true) (h1 : 1 ≤ layer.relayHops)
    (hmax : layer.relayHops ≤ cfg.maxHops) (hdrop : (dec.getD {}).dropReply = false)
    (hser : host.serialize 0 = none) {ip4 : IP} (h4 : IP.to4 layer.relayAgentIP = some ip4)
    (hbad : IP.isMulticast ip4 = true ∨ IP.isLinkLocalUnicast ip4 = true) :
    isGlobalUnicastIPv4 layer.relayAgentIP = false
      ∧ ∃ a, a ∈ (handle host cfg dec ifIndex layer).attempts := by
  have hlen := IP.length_of_to4 h4
  have hglobal : isGlobalUnicastIPv4 layer.relayAgentIP = false := by
    rw [Bool.eq_false_iff]
    intro hg
    obtain ⟨x, hx, hg⟩ := (isGlobalUnicastIPv4_iff_to4 _).mp hg
    cases h4.symm.trans hx
    obtain ⟨-, hm, hl⟩ := (isGlobalUnicastIPv4_iff_of_length hlen).mp hg
    rw [hm, hl] at hbad
    exact hbad.elim Bool.false_ne_true Bool.false_ne_true
  have hforeign : giaddrIsLocal host cfg layer.relayAgentIP = false := by
    rw [Bool.eq_false_iff]
    intro hlocal
    rw [isGlobalUnicastIPv4_of_giaddrIsLocal hlocal] at hglobal
    cases hglobal
  obtain ⟨hu, hl, hb⟩ := not_special_of_multicast_or_linkLocal hlen hbad
  refine ⟨hglobal, ?_⟩
  rw [handle_reply_eq ifIndex hop htype h1 hmax hdrop, hforeign, Bool.not_false, if_pos rfl]
  unfold forwardRelayedReply
  simp only [h4, hu, hl, hb, Bool.or_self, Bool.false_eq_true, if_false,
    if_neg (UInt8.not_lt.mpr h1), relayToServer, hser]
  exact ⟨_, List.mem_singleton_self _⟩

/-- **A reply is delivered or passed on, never both.** The owner of giaddr decides
which of the two it is. -/
theorem frames_or_datagrams (host : Host) (cfg : HandleOptions) (dec : Option Decision)
    (ifIndex : ℤ) {layer : DHCPv4} (hop : layer.operation = opReply) :
    (∀ a ∈ (handle host cfg dec ifIndex layer).attempts, ∃ f, a.emission = .frame f)
      ∨ ∀ a ∈ (handle host cfg dec ifIndex layer).attempts,
        ∃ dst m, a.emission = .datagram dst m := by
  cases hlocal : giaddrIsLocal host cfg layer.relayAgentIP with
  | true =>
    refine .inl (fun a ha => ?_)
    rcases (emits_of_mem_attempts ha).2.reply_cases hop with ⟨hforeign, -⟩ | ⟨-, hframe⟩
    · rw [hlocal] at hforeign
      cases hforeign
    · exact hframe
  | false =>
    refine .inr (fun a ha => ?_)
    rcases (emits_of_mem_attempts ha).2.reply_cases hop with ⟨-, hdgram⟩ | ⟨hl, -⟩
    · exact hdgram
    · rw [hlocal] at hl
      cases hl

/-- **When replies go only where a usable giaddr points.** A reply is delivered or
passed on and never both, and what is delivered has a usable giaddr. What is
passed on need not: `ForwardRelayedReply` has a list of its own of the addresses it
rejects, and multicast and link-local addresses are not on it. -/
theorem reply_usable_iff (host : Host) (cfg : HandleOptions) (dec : Option Decision)
    (ifIndex : ℤ) (layer : DHCPv4) (hop : layer.operation = opReply) :
    (((∀ a ∈ (handle host cfg dec ifIndex layer).attempts, ∃ f, a.emission = .frame f)
        ∨ ∀ a ∈ (handle host cfg dec ifIndex layer).attempts,
          ∃ dst m, a.emission = .datagram dst m)
      ∧ ∀ a ∈ (handle host cfg dec ifIndex layer).attempts,
          isGlobalUnicastIPv4 layer.relayAgentIP = true)
      ↔ (∀ ip4, IP.to4 layer.relayAgentIP = some ip4 →
            IP.isMulticast ip4 = false ∧ IP.isLinkLocalUnicast ip4 = false)
        ∨ getMessageType layer = none
        ∨ layer.relayHops < 1 ∨ cfg.maxHops < layer.relayHops
        ∨ (dec.getD {}).dropReply = true
        ∨ host.serialize 0 ≠ none := by
  constructor
  · rintro ⟨-, husable⟩
    by_contra hno
    simp only [not_or, not_forall, UInt8.not_lt, Bool.not_eq_true, not_not] at hno
    obtain ⟨⟨ip4, h4, hbad⟩, htype, h1, hmax, hdrop, hser⟩ := hno
    have hbad : IP.isMulticast ip4 = true ∨ IP.isLinkLocalUnicast ip4 = true := by
      rw [not_and_or, Bool.not_eq_false, Bool.not_eq_false] at hbad
      exact hbad
    obtain ⟨hglobal, a, ha⟩ := exists_attempt_of_unusable ifIndex hop
      (Option.isSome_iff_ne_none.mpr htype) h1 hmax hdrop hser h4 hbad
    rw [husable a ha] at hglobal
    cases hglobal
  · intro hcond
    refine ⟨frames_or_datagrams host cfg dec ifIndex hop, fun a ha => ?_⟩
    cases hlocal : giaddrIsLocal host cfg layer.relayAgentIP with
    | true => exact isGlobalUnicastIPv4_of_giaddrIsLocal hlocal
    | false =>
      obtain ⟨htype, h1, hmax, hdrop, hser, ip4, h4, hspecial⟩ :=
        returned_of_mem_attempts hop hlocal ha
      rcases hcond with hgood | hnone | hlow | hhigh | hd | hs
      · exact (isGlobalUnicastIPv4_iff_to4 _).mpr ⟨ip4, h4,
          (isGlobalUnicastIPv4_iff_of_length (IP.length_of_to4 h4)).mpr
            ⟨hspecial, hgood ip4 h4⟩⟩
      · rw [hnone] at htype
        cases htype
      · exact absurd hlow (UInt8.not_lt.mpr h1)
      · exact absurd hhigh (UInt8.not_lt.mpr hmax)
      · rw [hdrop] at hd
        cases hd
      · exact absurd hser hs

/-- The OFFER of a server, for the relay at `giaddr`. -/
def offerFor (giaddr : IP) : DHCPv4 :=
  { offerOf [0xaa] with relayHops := 1, relayAgentIP := giaddr }

/-- An OFFER for another relay is passed on to it. -/
theorem reply_usable_iff_foreign :
    (handle numberedHost plainOptions none 2 (offerFor [192, 0, 2, 7])).attempts.map
        Attempt.emission
      = [.datagram "192.0.2.7".toList { offerFor [192, 0, 2, 7] with relayHops := 0 }]
      ∧ ∀ a ∈ (handle numberedHost plainOptions none 2 (offerFor [192, 0, 2, 7])).attempts,
        isGlobalUnicastIPv4 (offerFor [192, 0, 2, 7]).relayAgentIP = true := by
  have hgood : ∀ ip4, IP.to4 (offerFor [192, 0, 2, 7]).relayAgentIP = some ip4 →
      IP.isMulticast ip4 = false ∧ IP.isLinkLocalUnicast ip4 = false := by
    intro ip4 h
    cases h
    decide
  exact ⟨by decide,
    ((reply_usable_iff numberedHost plainOptions none 2 (offerFor [192, 0, 2, 7]) rfl).mpr
      (.inl hgood)).2⟩

/-- **An OFFER with a link-local or a multicast giaddr is passed on to it.** -/
theorem reply_sent_to_unusable :
    ((offerFor [169, 254, 1, 1]).operation = opReply
      ∧ isGlobalUnicastIPv4 [169, 254, 1, 1] = false
      ∧ (handle numberedHost plainOptions none 2 (offerFor [169, 254, 1, 1])).sent
        = [.datagram "169.254.1.1".toList { offerFor [169, 254, 1, 1] with relayHops := 0 }])
    ∧ (offerFor [224, 0, 0, 1]).operation = opReply
      ∧ isGlobalUnicastIPv4 [224, 0, 0, 1] = false
      ∧ (handle numberedHost plainOptions none 2 (offerFor [224, 0, 0, 1])).sent
        = [.datagram "224.0.0.1".toList { offerFor [224, 0, 0, 1] with relayHops := 0 }] := by
  decide
