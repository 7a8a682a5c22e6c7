import DhcpRelay.Fanout

/-!
# The addresses of a unicast reply

A unicast reply goes to yiaddr, or to ciaddr where yiaddr is zero, as in the
answer to an INFORM. Two slips show in how its addresses are chosen. That there
is no client address is checked for nil, which an address read off the wire never
is, so a reply with neither yiaddr nor ciaddr is sent to 0.0.0.0. And the source
of a copy on another interface than the ingress is chosen for yiaddr, also where
the copy goes to ciaddr, so it may be an address of another network.

`unicast_specified_iff` and `redirected_onLink_iff` say exactly when this happens.
-/

open Dhcp Relay

/-! ## The destination of a unicast frame -/

theorem SameButSource.dstIP {replyType : ReplyType} {a b : IPv4Header}
    (h : SameButSource replyType a b) : a.dstIP = b.dstIP := by
  unfold SameButSource at h
  split at h
  · have hdst := congrArg IPv4Header.dstIP h
    exact hdst
  · rw [h]

/-- Every unicast frame goes to the client's address as it is read off the
reply. -/
theorem dstIP_of_mem_attempts {host : Host} {cfg : HandleOptions} {dec : Decision}
    {layer : DHCPv4} {a : Attempt}
    (h : a ∈ (handleGenericReply host cfg dec layer unicastReply).attempts) :
    ∃ f : Frame, a.emission = .frame f ∧ unicastDst layer = some f.ipv4.dstIP := by
  obtain ⟨srcIP, ifi, dstMAC, ipv4, nic, header, f, -, haddr, -, hsrc, he, -, -, hipv4⟩ :=
    frame_of_mem_attempts h
  refine ⟨f, he, ?_⟩
  rw [hipv4, ← (sameButSource_of_nicSource hsrc).dstIP]
  have hdst : unicastDst (stripRelay layer) = unicastDst layer := rfl
  rw [replyAddressing, if_pos rfl, hdst] at haddr
  split at haddr
  · cases haddr
  · next dstIP hd =>
    cases haddr
    rw [hd]

/-- The client's address of a decoded reply. -/
theorem unicastDst_eq {layer : DHCPv4} (hy : layer.yourClientIP.length = 4)
    (hc : layer.clientIP.length = 4) :
    unicastDst layer
      = some (if layer.yourClientIP ≠ [0, 0, 0, 0] then layer.yourClientIP
          else layer.clientIP) := by
  have hy4 := IP.to4_of_length hy
  rw [unicastDst, hy4, IP.to4_of_length hc]
  dsimp only
  by_cases hz : layer.yourClientIP = [0, 0, 0, 0]
  · rw [if_pos ((IP.isUnspecified_iff_of_to4 hy4).mpr hz), if_neg (not_not.mpr hz)]
  · have hu : ¬ IP.isUnspecified layer.yourClientIP = true := fun h =>
      hz ((IP.isUnspecified_iff_of_to4 hy4).mp h)
    rw [if_neg hu, if_pos hz]

/-- The client's address is specified when there is one. -/
theorem isUnspecified_client {layer : DHCPv4} (hy : layer.yourClientIP.length = 4)
    (hc : layer.clientIP.length = 4)
    (hne : layer.yourClientIP ≠ [0, 0, 0, 0] ∨ layer.clientIP ≠ [0, 0, 0, 0]) :
    IP.isUnspecified (if layer.yourClientIP ≠ [0, 0, 0, 0] then layer.yourClientIP
      else layer.clientIP) = false := by
  rw [Bool.eq_false_iff]
  intro hu
  split at hu
  · next hyz => exact hyz ((IP.isUnspecified_iff_of_to4 (IP.to4_of_length hy)).mp hu)
  · next hyz =>
    have hcz := hne.resolve_left hyz
    exact hcz ((IP.isUnspecified_iff_of_to4 (IP.to4_of_length hc)).mp hu)

/-- **The replies that no host delivers**: giaddr is no address of a relay, or
there is no interface that the circuit id could name. -/
def Undeliverable (dec : Decision) (layer : DHCPv4) : Prop :=
  (∀ srcIP, replySource layer ≠ .ok srcIP)
    ∨ ∀ subOpts, replySubOptions dec layer = .ok subOpts →
      extractAgentCircuitIDSubOptionData subOpts < 1

/-- The interface of an index, with which any circuit id is delivered. -/
def Host.withInterface (i : ℤ) : Host :=
  .ofInterfaces [(⟨i, "eth0".toList, [2, 0, 0, 0, 0, 2], true⟩, [])]

/-- The one interface that it has. -/
def eth0 (i : ℤ) : Interface := ⟨i, "eth0".toList, [2, 0, 0, 0, 0, 2], true⟩

theorem interfaceByIndex_withInterface (i : ℤ) :
    (Host.withInterface i).interfaceByIndex i = .ok (eth0 i) := by
  simp [Host.withInterface, Host.ofInterfaces, eth0]

/-- Whether or not a selector accepts it, the only interface is the only target. -/
theorem replyTargets_withInterface (i : ℤ) (cfg : HandleOptions)
    (sel : Option (Text → Text → Bool)) :
    replyTargets (Host.withInterface i) cfg sel (eth0 i) = [eth0 i] := by
  rcases replyTargets_cases (Host.withInterface i) cfg sel (eth0 i) with
    ⟨h, -⟩ | ⟨accepts, -, -, hne, h⟩
  · exact h
  · rw [h]
    exact (List.sublist_singleton.mp List.filter_sublist).resolve_left hne

/-- A reply with a circuit id is attempted on the host that has the interface of
the circuit id and no other. -/
theorem attempts_withInterface {dec : Decision} {layer : DHCPv4} {srcIP : IP}
    {subOpts : List DHCPOption} {i : ℤ} (cfg : HandleOptions) (hdrop : dec.dropReply = false)
    (hsrc : replySource layer = .ok srcIP) (hsub : replySubOptions dec layer = .ok subOpts)
    (hcid : extractAgentCircuitIDSubOptionData subOpts = i) (hpos : 1 ≤ i)
    (hy : layer.yourClientIP.length = 4) (hc : layer.clientIP.length = 4) :
    (handleGenericReply (Host.withInterface i) cfg dec layer unicastReply).attempts ≠ [] := by
  have hcirc : circuitInterface (Host.withInterface i) subOpts = .ok (eth0 i) := by
    rw [circuitInterface_ok_iff, hcid]
    exact ⟨by omega, interfaceByIndex_withInterface i, rfl, List.cons_ne_nil _ _⟩
  have hin := replyIngress_ok_iff.mpr ⟨hsrc, ⟨subOpts, hsub, hcirc⟩, rfl⟩
  have hy' : (stripRelay layer).yourClientIP.length = 4 := hy
  obtain ⟨dstMAC, layer', ipv4, haddr⟩ := replyAddressing_ok (.inl rfl) srcIP hy' hc
    (replyIPv4Header (Host.withInterface i) cfg) cfg.broadcastReplyL2Unicast
  obtain ⟨f, hf, -⟩ := attempts_sendReplies_ingress
    (show (Host.withInterface i).serialize 0 = none from rfl) unicastReply srcIP
    (show (eth0 i).hardwareAddr ≠ [] from List.cons_ne_nil _ _) dstMAC layer' ipv4
  rw [handleGenericReply_eq hdrop hin haddr rfl rfl, replyTargets_withInterface, hf]
  exact List.cons_ne_nil _ _

/-- A reply that no host delivers is refused, with nothing attempted. -/
theorem refused_of_undeliverable {host : Host}
    (hindex : ∀ i ifi, host.interfaceByIndex i = .ok ifi → 1 ≤ i) {dec : Decision}
    {layer : DHCPv4} (hdrop : dec.dropReply = false) (h : Undeliverable dec layer)
    (cfg : HandleOptions) (replyType : ReplyType) :
    ∃ m e, handleGenericReply host cfg dec layer replyType = .failed m e := by
  rcases handleGenericReply_cases host cfg dec layer replyType with
    ⟨htrue, -⟩ | ⟨-, hfailed | ⟨srcIP, ifi, -, -, hin, -⟩⟩
  · rw [hdrop] at htrue
    cases htrue
  · exact hfailed
  · obtain ⟨hsrc, ⟨subOpts, hsub, hcirc⟩, -⟩ := replyIngress_ok_iff.mp hin
    obtain ⟨-, hi, -⟩ := circuitInterface_ok_iff.mp hcirc
    rcases h with h | h
    · exact absurd hsrc (h srcIP)
    · exact absurd (hindex _ _ hi) (not_le.mpr (h subOpts hsub))

/-- **When a unicast reply is never sent to the unspecified address**: when it
has a client address at all, or is refused before it is addressed. A reply with
neither yiaddr nor ciaddr is sent to 0.0.0.0 by every host that has the
interface of its circuit id. -/
theorem unicast_specified_iff (cfg : HandleOptions) (dec : Decision) (layer : DHCPv4)
    (hy : layer.yourClientIP.length = 4) (hc : layer.clientIP.length = 4) :
    (∀ host : Host, (∀ i ifi, host.interfaceByIndex i = .ok ifi → 1 ≤ i) →
      (∀ a ∈ (handleGenericReply host cfg dec layer unicastReply).attempts,
        ∃ f : Frame, a.emission = .frame f ∧ IP.isUnspecified f.ipv4.dstIP = false
          ∧ f.ipv4.dstIP = if layer.yourClientIP ≠ [0, 0, 0, 0] then layer.yourClientIP
              else layer.clientIP)
      ∧ (layer.yourClientIP = [0, 0, 0, 0] → layer.clientIP = [0, 0, 0, 0] →
        (handleGenericReply host cfg dec layer unicastReply).err ≠ none
          ∧ (handleGenericReply host cfg dec layer unicastReply).attempts = []))
      ↔ layer.yourClientIP ≠ [0, 0, 0, 0] ∨ layer.clientIP ≠ [0, 0, 0, 0]
        ∨ dec.dropReply = false ∧ Undeliverable dec layer := by
  constructor
  · intro h
    by_contra hcond
    simp only [not_or, not_and, ne_eq, not_not] at hcond
    obtain ⟨hyz, hcz, hnot⟩ := hcond
    have hindex : ∀ i j ifi, (Host.withInterface i).interfaceByIndex j = .ok ifi → j = i := by
      intro i j ifi hj
      by_contra hne
      simp [Host.withInterface, Host.ofInterfaces, Ne.symm hne] at hj
    cases hdrop : dec.dropReply with
    | true =>
      -- The reply is dropped without an error, on any host.
      have herr := ((h (Host.withInterface 1) (fun j ifi hj =>
        (hindex 1 j ifi hj).symm.le)).2 hyz hcz).1
      exact herr (by rw [handleGenericReply_of_drop hdrop])
    | false =>
      have hdel := hnot hdrop
      simp only [Undeliverable, not_or, not_forall, not_not, not_lt] at hdel
      obtain ⟨⟨srcIP, hsrc⟩, subOpts, hsub, hpos⟩ := hdel
      have hnil := ((h (Host.withInterface (extractAgentCircuitIDSubOptionData subOpts))
        (fun j ifi hj => by rwa [hindex _ j ifi hj])).2 hyz hcz).2
      exact attempts_withInterface cfg hdrop hsrc hsub rfl hpos hy hc hnil
  · intro hcond host hindex
    have hdst := unicastDst_eq hy hc
    have hsome : layer.yourClientIP ≠ [0, 0, 0, 0] ∨ layer.clientIP ≠ [0, 0, 0, 0] →
        ∀ a ∈ (handleGenericReply host cfg dec layer unicastReply).attempts,
          ∃ f : Frame, a.emission = .frame f ∧ IP.isUnspecified f.ipv4.dstIP = false
            ∧ f.ipv4.dstIP = if layer.yourClientIP ≠ [0, 0, 0, 0] then layer.yourClientIP
                else layer.clientIP := by
      intro hne a ha
      obtain ⟨f, he, hf⟩ := dstIP_of_mem_attempts ha
      have hd := Option.some.inj (hf.symm.trans hdst)
      refine ⟨f, he, ?_, hd⟩
      rw [hd]
      exact isUnspecified_client hy hc hne
    rcases hcond with hyz | hcz | ⟨hdrop, hun⟩
    · exact ⟨hsome (.inl hyz), fun h => absurd h hyz⟩
    · exact ⟨hsome (.inr hcz), fun _ h => absurd h hcz⟩
    · obtain ⟨m, e, he⟩ := refused_of_undeliverable hindex hdrop hun cfg unicastReply
      rw [he]
      exact ⟨fun a ha => absurd ha List.not_mem_nil, fun _ _ => ⟨Option.some_ne_none e, rfl⟩⟩

/-- The answer to an INFORM is sent to ciaddr. -/
theorem unicast_specified_iff_inform :
    (handleGenericReply numberedHost plainOptions {} (ackOf [0, 0, 0, 0] [192, 168, 50, 77])
        unicastReply).attempts.length = 1
      ∧ ∀ a ∈ (handleGenericReply numberedHost plainOptions {}
          (ackOf [0, 0, 0, 0] [192, 168, 50, 77]) unicastReply).attempts,
        ∃ f : Frame, a.emission = .frame f ∧ IP.isUnspecified f.ipv4.dstIP = false := by
  have hindex : ∀ i ifi, numberedHost.interfaceByIndex i = .ok ifi → 1 ≤ i := by
    intro i ifi h
    by_contra hlt
    have hne : ¬ (2 : ℤ) = i := by omega
    simp [numberedHost, Host.ofInterfaces, hne] at h
  refine ⟨by decide, fun a ha => ?_⟩
  obtain ⟨f, he, hu, -⟩ := ((unicast_specified_iff plainOptions {}
    (ackOf [0, 0, 0, 0] [192, 168, 50, 77]) rfl rfl).mpr (.inr (.inl (by decide)))
      numberedHost hindex).1 a ha
  exact ⟨f, he, hu⟩

/-- A NAK with the broadcast flag clear, which has neither yiaddr nor ciaddr. -/
def unicastNak : DHCPv4 :=
  { operation := opReply
    relayHops := 1
    clientHWAddr := [2, 0, 0, 0, 0, 1]
    yourClientIP := [0, 0, 0, 0]
    clientIP := [0, 0, 0, 0]
    relayAgentIP := [192, 168, 50, 1]
    options := [newDHCPOption optMessageType [6], installedOption82 2 [] []] }

/-- The NAK is delivered to 0.0.0.0, and no error is returned. -/
theorem unicast_unspecified_nak :
    (handleGenericReply numberedHost plainOptions {} unicastNak unicastReply).err = none
      ∧ (handleGenericReply numberedHost plainOptions {} unicastNak unicastReply).attempts.map
          (fun a => match a.emission with
            | .frame f => (f.nic, f.ipv4.srcIP, f.ipv4.dstIP, a.err)
            | .datagram _ _ => (0, [], [], none))
        = [(2, [192, 168, 50, 1], [0, 0, 0, 0], none)] := by
  decide

/-! ## The source of a redirected frame -/

/-- The address that a unicast copy on a network of addresses is sourced from:
the first whose network holds yiaddr, or the first. -/
theorem to4_bestUnicastSrc {addrs : List IPNet} (hne : addrs ≠ [])
    (h4 : ∀ n ∈ addrs, (IP.to4 n.ip).isSome = true) {yiaddr : IP} (hy : yiaddr.length = 4) :
    ∃ m ∈ addrs, (addrs.find? (fun n => n.contains yiaddr)).or addrs.head? = some m
      ∧ IP.to4 m.ip = some (bestUnicastSrc addrs yiaddr) := by
  cases addrs with
  | nil => exact absurd rfl hne
  | cons first rest =>
    have hfind : (first :: rest).find? (fun n => (IP.to4 n.ip).isSome && n.contains yiaddr)
        = (first :: rest).find? (fun n => n.contains yiaddr) :=
      List.find?_congr (fun n hn => by rw [h4 n hn, Bool.true_and])
    have hget : ∀ n ∈ first :: rest, IP.to4 n.ip = some ((IP.to4 n.ip).getD []) := by
      intro n hn
      obtain ⟨v, hv⟩ := Option.isSome_iff_exists.mp (h4 n hn)
      rw [hv, Option.getD_some]
    rw [bestUnicastSrc, IP.to4_of_length hy]
    dsimp only
    rw [hfind]
    cases hm : (first :: rest).find? (fun n => n.contains yiaddr) with
    | none =>
      exact ⟨first, List.mem_cons_self, rfl, hget first List.mem_cons_self⟩
    | some m =>
      have hmem := List.mem_of_find?_eq_some hm
      exact ⟨m, hmem, rfl, hget m hmem⟩

/-- The source `src` is an address of the interface, and on the network of `dst`
if any is. -/
def OnLink (addrs : List IPNet) (src dst : IP) : Prop :=
  (∃ n ∈ addrs, IP.to4 n.ip = some src)
    ∧ ((∃ n ∈ addrs, n.contains dst = true) →
      ∃ n ∈ addrs, IP.to4 n.ip = some src ∧ n.contains dst = true)

/-- **The interfaces where ciaddr finds its own network**: the address that is
taken for a yiaddr of zero is on the network of ciaddr, if any is. -/
def CiaddrOnLink (addrs : List IPNet) (ciaddr : IP) : Prop :=
  (∃ n ∈ addrs, n.contains ciaddr = true) →
    ∃ m n, (addrs.find? (fun a => a.contains [0, 0, 0, 0])).or addrs.head? = some m
      ∧ n ∈ addrs ∧ IP.to4 n.ip = IP.to4 m.ip ∧ n.contains ciaddr = true

/-- The source is chosen by yiaddr, and so it is right for yiaddr. -/
theorem onLink_yiaddr {addrs : List IPNet} (hne : addrs ≠ [])
    (h4 : ∀ n ∈ addrs, (IP.to4 n.ip).isSome = true) {yiaddr : IP} (hy : yiaddr.length = 4) :
    OnLink addrs (bestUnicastSrc addrs yiaddr) yiaddr := by
  obtain ⟨m, hm, hfirst, hsrc⟩ := to4_bestUnicastSrc hne h4 hy
  refine ⟨⟨m, hm, hsrc⟩, ?_⟩
  rintro ⟨n, hn, hin⟩
  have hsome : (addrs.find? (fun n => n.contains yiaddr)).isSome = true :=
    List.find?_isSome.mpr ⟨n, hn, hin⟩
  obtain ⟨n', hn'⟩ := Option.isSome_iff_exists.mp hsome
  rw [hn', Option.some_or, Option.some.injEq] at hfirst
  rw [hfirst] at hn'
  have hcontains := List.find?_some hn'
  exact ⟨m, hm, hsrc, hcontains⟩

/-- For another destination it is right where the two agree. -/
theorem onLink_ciaddr_iff {addrs : List IPNet} (hne : addrs ≠ [])
    (h4 : ∀ n ∈ addrs, (IP.to4 n.ip).isSome = true) (ciaddr : IP) :
    OnLink addrs (bestUnicastSrc addrs [0, 0, 0, 0]) ciaddr ↔ CiaddrOnLink addrs ciaddr := by
  obtain ⟨m, hm, hfirst, hsrc⟩ := to4_bestUnicastSrc hne h4
    (show List.length ([0, 0, 0, 0] : IP) = 4 from rfl)
  constructor
  · rintro ⟨-, h⟩ hex
    obtain ⟨n, hn, hn4, hin⟩ := h hex
    exact ⟨m, n, hfirst, hn, hn4.trans hsrc.symm, hin⟩
  · intro h
    refine ⟨⟨m, hm, hsrc⟩, fun hex => ?_⟩
    obtain ⟨m', n, hfirst', hn, hn4, hin⟩ := h hex
    cases hfirst.symm.trans hfirst'
    exact ⟨n, hn, hn4.trans hsrc, hin⟩

/-- A redirected unicast copy is sourced from an address of its interface that
yiaddr chooses. -/
theorem srcIP_of_nicSource {host : Host} {srcIP : IP} {ingress nic : Interface}
    {layer : DHCPv4} {ipv4 header : IPv4Header} (hnic : nic.index ≠ ingress.index)
    (h : nicSource host unicastReply srcIP ingress layer ipv4 nic = .ok header) :
    ∃ addrs, interfaceGlobalUnicastAddrs4 host nic = .ok addrs ∧ addrs ≠ []
      ∧ header.srcIP = bestUnicastSrc addrs layer.yourClientIP := by
  rw [nicSource, if_pos rfl, if_pos hnic] at h
  split at h
  · cases h
  · cases h
  · next addrs hne ha =>
    cases h
    exact ⟨addrs, ha, hne, rfl⟩

/-- **When a redirected unicast copy is sourced on the link of its
destination**: exactly when yiaddr is the destination, or ciaddr would be given
the same source. The source is chosen by yiaddr also where the copy goes to
ciaddr. -/
theorem redirected_onLink_iff (host : Host) (cfg : HandleOptions) (dec : Decision)
    (layer : DHCPv4) (hy : layer.yourClientIP.length = 4) (hc : layer.clientIP.length = 4)
    (a : Attempt) (h : a ∈ (handleGenericReply host cfg dec layer unicastReply).attempts) :
    ∃ (srcIP : IP) (ifi nic : Interface) (f : Frame),
      replyIngress host dec layer = .ok (srcIP, ifi)
        ∧ nic ∈ replyTargets host cfg dec.replyNICMatch ifi
        ∧ a.emission = .frame f ∧ f.nic = nic.index ∧ f.srcMAC = nic.hardwareAddr
        ∧ (nic.index ≠ ifi.index →
          ∃ addrs, interfaceGlobalUnicastAddrs4 host nic = .ok addrs ∧ addrs ≠ []
            ∧ (OnLink addrs f.ipv4.srcIP f.ipv4.dstIP
              ↔ layer.yourClientIP ≠ [0, 0, 0, 0] ∨ CiaddrOnLink addrs layer.clientIP)) := by
  obtain ⟨f', he', hdst⟩ := dstIP_of_mem_attempts h
  obtain ⟨srcIP, ifi, dstMAC, ipv4, nic, header, f, hin, -, ht, hsrc, he, hnic, hmac, hf⟩ :=
    frame_of_mem_attempts h
  obtain rfl : f' = f := Emission.frame.inj (he'.symm.trans he)
  refine ⟨srcIP, ifi, nic, f', hin, ht, he, hnic, hmac, fun hne => ?_⟩
  obtain ⟨addrs, ha, hnil, hs⟩ := srcIP_of_nicSource hne hsrc
  have h4 : ∀ n ∈ addrs, (IP.to4 n.ip).isSome = true := by
    intro n hn
    have hg := isGlobalUnicastIPv4_of_mem ha hn
    rw [isGlobalUnicastIPv4, Bool.and_eq_true] at hg
    exact hg.1
  refine ⟨addrs, ha, hnil, ?_⟩
  have hd := Option.some.inj (hdst.symm.trans (unicastDst_eq hy hc))
  have hyi : (delivered unicastReply layer).yourClientIP = layer.yourClientIP := rfl
  rw [hf, hs, ← hf, hd, hyi]
  by_cases hz : layer.yourClientIP = [0, 0, 0, 0]
  · rw [if_neg (not_not.mpr hz), hz, onLink_ciaddr_iff hnil h4]
    exact ⟨.inr, fun h => h.resolve_left (not_not.mpr rfl)⟩
  · rw [if_pos hz]
    exact iff_of_true (onLink_yiaddr hnil h4 hy) (.inl hz)

/-- The selector of a policy that sends the replies of a client out of eth1. -/
def toEth1 : Decision := { replyNICMatch := some (fun name _ => name = "eth1".toList) }

/-- The frames of a reply that is sent out of eth1: interface, source and
destination. -/
def eth1Frames (layer : DHCPv4) : List (ℤ × IP × IP) :=
  (handleGenericReply twoNICHost plainOptions toEth1 layer unicastReply).attempts.map (fun a =>
    match a.emission with
    | .frame f => (f.nic, f.ipv4.srcIP, f.ipv4.dstIP)
    | .datagram _ _ => (0, [], []))

/-- An ACK with a lease is sourced on the link of the client. -/
theorem redirected_onLink_lease :
    eth1Frames (ackOf [192, 168, 9, 50] [0, 0, 0, 0])
        = [(3, [192, 168, 9, 1], [192, 168, 9, 50])]
      ∧ ∀ a ∈ (handleGenericReply twoNICHost plainOptions toEth1
          (ackOf [192, 168, 9, 50] [0, 0, 0, 0]) unicastReply).attempts,
        ∃ (srcIP : IP) (ifi nic : Interface) (f : Frame),
          replyIngress twoNICHost toEth1 (ackOf [192, 168, 9, 50] [0, 0, 0, 0])
              = .ok (srcIP, ifi)
            ∧ a.emission = .frame f ∧ f.nic = nic.index
            ∧ (nic.index ≠ ifi.index →
              ∃ addrs, interfaceGlobalUnicastAddrs4 twoNICHost nic = .ok addrs
                ∧ OnLink addrs f.ipv4.srcIP f.ipv4.dstIP) := by
  refine ⟨by decide, fun a ha => ?_⟩
  obtain ⟨srcIP, ifi, nic, f, hin, -, he, hnic, -, h⟩ := redirected_onLink_iff twoNICHost
    plainOptions toEth1 (ackOf [192, 168, 9, 50] [0, 0, 0, 0]) rfl rfl a ha
  refine ⟨srcIP, ifi, nic, f, hin, he, hnic, fun hne => ?_⟩
  obtain ⟨addrs, hl, -, hiff⟩ := h hne
  exact ⟨addrs, hl, hiff.mpr (.inl (by decide))⟩

/-- The answer to an INFORM of the same client, which has ciaddr and no yiaddr, is
sourced from the first address of the interface, on another network. -/
theorem redirected_offLink_inform :
    eth1Frames (ackOf [0, 0, 0, 0] [192, 168, 9, 50]) = [(3, [10, 0, 0, 1], [192, 168, 9, 50])]
      ∧ interfaceGlobalUnicastAddrs4 twoNICHost
          ⟨3, "eth1".toList, [2, 0, 0, 0, 0, 3], true⟩
        = .ok [⟨[10, 0, 0, 1], [255, 255, 255, 0]⟩, ⟨[192, 168, 9, 1], [255, 255, 255, 0]⟩]
      ∧ ¬ OnLink [⟨[10, 0, 0, 1], [255, 255, 255, 0]⟩, ⟨[192, 168, 9, 1], [255, 255, 255, 0]⟩]
          [10, 0, 0, 1] [192, 168, 9, 50] := by
  refine ⟨by decide, rfl, ?_⟩
  rw [OnLink]
  decide
