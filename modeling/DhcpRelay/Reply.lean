import DhcpRelay.Request

/-!
# Relaying replies

The two ways a reply leaves the relay (`pkg/dhcp4/reply.go`). A reply whose
giaddr is of this relay is *delivered*: the interface it goes out of is read
from the circuit id that the relay put in Option 82, Option 82 and giaddr are
removed, and the reply is sent as a frame, to the client's address or to the
broadcast address as its flags say. A policy may select other interfaces than
the one of the circuit id, and then one frame goes out of each. A reply whose
giaddr is of another relay is forwarded there, with one hop less.

The handler mutates one IPv4 header from one frame to the next, and
`sendRepliesBy` passes it along. The calls that it makes on its socket are a
`ReplySocket`, over any monad. `handleGenericReply` is `handleGenericReplyBy` on the
socket of a host, which only says of each call whether it fails.

* `replyIngress_ok_iff` is the gate every delivered reply passes.
* `mem_attempts_handleGenericReply` and `forwardRelayedReply_cases` say what
  the two handlers can send; `handleGenericReply_ingress` is the delivery on
  the ingress interface alone.
-/

open Dhcp

/-- `ReplyType`. -/
abbrev ReplyType := UInt8

/-- `UnicastReply`: the broadcast flag is clear. -/
def unicastReply : ReplyType := 0

/-- `BroadcastReply`: the broadcast flag is set. -/
def broadcastReply : ReplyType := 1

/-! ## The ingress interface of a reply -/

/-- The relay's own address, as `HandleGenericReply` takes it from giaddr. -/
def replySource (layer : DHCPv4) : Except String IP :=
  match IP.to4 layer.relayAgentIP with
  | none => .error "invalid Relay Agent address value"
  | some srcIP =>
    if IP.isLoopback srcIP || IP.equal srcIP IP.ipv4zero || IP.equal srcIP IP.ipv4bcast then
      .error "invalid Relay Agent address value"
    else .ok srcIP

/-- The sub-options of the reply's Option 82: those the policy gate decoded,
or decoded here. -/
def replySubOptions (dec : Decision) (layer : DHCPv4) : Except String (List DHCPOption) :=
  if dec.replySubOpts = [] then
    let opt82 := getRelayAgentInformationOption layer
    if !isOption opt82 then .error "no Relay Agent Information"
    else
      let subOpts := decodeRelayAgentInformationOption opt82
      if subOpts = [] then .error "no Relay Agent Information" else .ok subOpts
  else .ok dec.replySubOpts

/-- The interface of the circuit id, when it can carry an Ethernet reply. -/
def circuitInterface (host : Host) (subOpts : List DHCPOption) : Except String Interface :=
  let ifIndex := extractAgentCircuitIDSubOptionData subOpts
  if ifIndex = 0 then .error "invalid Agent Circuit ID sub-option value"
  else
    match host.interfaceByIndex ifIndex with
    | .error e =>
      .error ("invalid interface data in Agent Circuit ID for IfIndex="
        ++ toString ifIndex ++ ": " ++ e)
    | .ok ifi =>
      if !ifi.up || ifi.hardwareAddr.length == 0 then
        .error ("ingress interface " ++ String.ofList ifi.name ++ " (IfIndex="
          ++ toString ifIndex ++ ") is down or has no hardware address")
      else .ok ifi

/-- The head of `HandleGenericReply`: the source address and the ingress
interface of a reply that can be delivered. -/
def replyIngress (host : Host) (dec : Decision) (layer : DHCPv4) :
    Except String (IP × Interface) :=
  match replySource layer with
  | .error e => .error e
  | .ok srcIP =>
    match replySubOptions dec layer with
    | .error e => .error e
    | .ok subOpts =>
      match circuitInterface host subOpts with
      | .error e => .error e
      | .ok ifi =>
        match host.setNetworkLayer with
        | some e => .error ("layer crafting error: " ++ e)
        | none => .ok (srcIP, ifi)

/-! ## Addressing -/

/-- `EthernetBroadcast`. -/
def ethernetBroadcast : Bytes := [255, 255, 255, 255, 255, 255]

/-- The client's address for a unicast reply: yiaddr, or ciaddr for the answer
to an INFORM, which leaves yiaddr zero. -/
def unicastDst (layer : DHCPv4) : Option IP :=
  match IP.to4 layer.yourClientIP with
  | none => IP.to4 layer.clientIP
  | some dstIP => if IP.isUnspecified dstIP then IP.to4 layer.clientIP else some dstIP

/-- `ReplyAddressing`: the Ethernet destination, and the message and the IPv4
header as it left them. -/
def replyAddressing (replyType : ReplyType) (srcIP : IP) (layer : DHCPv4)
    (ipv4 : IPv4Header) (broadcastL2Unicast : Bool) :
    Except String (Bytes × DHCPv4 × IPv4Header) :=
  if replyType = unicastReply then
    match unicastDst layer with
    | none => .error "invalid client IP address for unicast reply"
    | some dstIP =>
      .ok (layer.clientHWAddr, setUnicast layer,
        { ipv4 with srcIP := (IP.to4 srcIP).getD [], dstIP })
  else if replyType = broadcastReply then
    .ok (if broadcastL2Unicast then layer.clientHWAddr else ethernetBroadcast,
      setBroadcast layer, { ipv4 with srcIP := IP.ipv4zero, dstIP := IP.ipv4bcast })
  else .error ("unsupported reply type: " ++ toString replyType)

/-- `SelectReplyInterfaces`: the interfaces that are up, have a hardware
address and are accepted. -/
def selectReplyInterfaces (accepts : Text → Text → Bool) (ifaces : List Interface) :
    List Interface :=
  ifaces.filter (fun ni =>
    ni.up && ni.hardwareAddr.length != 0
      && accepts ni.name (hardwareAddrString ni.hardwareAddr))

/-- `ReplyTargets`: the selected interfaces, or the ingress interface alone
where there is no selector, no cache, no snapshot, or nothing selected. -/
def replyTargets (host : Host) (cfg : HandleOptions)
    (accepts : Option (Text → Text → Bool)) (ingress : Interface) : List Interface :=
  match accepts with
  | none => [ingress]
  | some accepts =>
    if !cfg.replyInterfaceCache then [ingress]
    else
      let matched := selectReplyInterfaces accepts host.interfaces.1
      if matched = [] then [ingress] else matched

/-! ## Sending -/

/-- The frame of `SendReply`. -/
def replyFrame (nic : Interface) (dstMAC : Bytes) (layer : DHCPv4) (ipv4 : IPv4Header) : Frame :=
  { nic := nic.index
    srcMAC := nic.hardwareAddr
    dstMAC
    ethernetType := 0x0800
    ipv4
    srcPort := 67
    dstPort := 68
    message := layer }

/-- The IPv4 header of the frame on an interface: a unicast copy out of
another interface than the ingress is sourced from an address on that
interface. -/
def nicSource (host : Host) (replyType : ReplyType) (srcIP : IP) (ingress : Interface)
    (layer : DHCPv4) (ipv4 : IPv4Header) (nic : Interface) : Except String IPv4Header :=
  if replyType = unicastReply then
    if nic.index ≠ ingress.index then
      match interfaceGlobalUnicastAddrs4 host nic with
      | .error e =>
        .error (String.ofList nic.name ++ ": interface address lookup error: " ++ e)
      | .ok [] =>
        .error (String.ofList nic.name ++ ": no IPv4 address for a unicast reply copy")
      | .ok addrs => .ok { ipv4 with srcIP := bestUnicastSrc addrs layer.yourClientIP }
    else .ok { ipv4 with srcIP }
  else .ok ipv4

/-- `errors.Join`. -/
def errorsJoin (errs : List String) : Option String :=
  if errs = [] then none else some (String.intercalate "\n" errs)

/-- The IPv4 header `HandleGenericReply` starts from. -/
def replyIPv4Header (host : Host) (cfg : HandleOptions) : IPv4Header :=
  { version := 4, id := host.randomIPv4ID, dontFragment := true, ttl := cfg.replyTTL,
    protocol := 17 }

/-- The message without what relays put in it. -/
def stripRelay (layer : DHCPv4) : DHCPv4 :=
  { deleteRelayAgentInformationOption layer with relayAgentIP := [] }

/-- **The raw socket of `HandleGenericReply`**, as far as the handler sees it: what it
takes to create it, to have the kernel drop what would be received on it, to send the
`n`-th frame out of an interface, and to close it. -/
structure ReplySocket (m : Type → Type) (S : Type) where
  create : m (S × Option String)
  attachBPF : S → m (Option String)
  send : S → ℕ → Interface → Frame → m (Option String)
  close : S → m Unit

section Sending

variable {m : Type → Type} [Monad m] (send : ℕ → Interface → Frame → m (Option String))

/-- `SendReply`, over the way that frames are sent: the `n`-th frame, out of an interface.
The result is what was attempted, if anything, and the error. -/
def sendReplyBy (host : Host) (n : ℕ) (nic : Interface) (dstMAC : Bytes) (layer : DHCPv4)
    (ipv4 : IPv4Header) : m (Option Attempt × Option String) :=
  if nic.hardwareAddr.length = 0 then
    pure (none, some ("interface " ++ String.ofList nic.name ++ " (IfIndex="
      ++ toString nic.index ++ ") has no hardware address for L2 framing"))
  else
    match host.serialize n with
    | some e => pure (none, some ("layer encoding error: " ++ e))
    | none =>
      send n nic (replyFrame nic dstMAC layer ipv4) >>= fun err =>
        pure (some ⟨.frame (replyFrame nic dstMAC layer ipv4), err⟩,
          err.map (fun e => "socket write error: " ++ e))

/-- The loop of `HandleGenericReply` over the target interfaces, from the
`n`-th frame on: the header is mutated from one frame to the next, and an
error on one interface does not stop the others. -/
def sendRepliesBy (host : Host) (replyType : ReplyType) (srcIP : IP) (ingress : Interface)
    (dstMAC : Bytes) (layer : DHCPv4) :
    ℕ → IPv4Header → List Interface → m (List Attempt × List String)
  | _, _, [] => pure ([], [])
  | n, ipv4, nic :: nics =>
    match nicSource host replyType srcIP ingress layer ipv4 nic with
    | .error e =>
      sendRepliesBy host replyType srcIP ingress dstMAC layer (n + 1) ipv4 nics >>= fun r =>
        pure (r.1, e :: r.2)
    | .ok ipv4 =>
      sendReplyBy send host n nic dstMAC layer ipv4 >>= fun s =>
        sendRepliesBy host replyType srcIP ingress dstMAC layer (n + 1) ipv4 nics >>= fun r =>
          pure (s.1.toList ++ r.1,
            (s.2.map (fun e => String.ofList nic.name ++ ": " ++ e)).toList ++ r.2)

end Sending

section Socket

variable {m : Type → Type} [Monad m] {S : Type} (socket : ReplySocket m S)

/-- The part of `HandleGenericReply` that has the socket, which is closed on every way
out. -/
def deliverBy (host : Host) (cfg : HandleOptions) (dec : Decision) (replyType : ReplyType)
    (srcIP : IP) (ingress : Interface) (dstMAC : Bytes) (layer : DHCPv4) (ipv4 : IPv4Header) :
    m Outcome :=
  socket.create >>= fun x =>
    match x.2 with
    | some e => pure (.failed layer ("socket create error: " ++ e))
    | none =>
      socket.attachBPF x.1 >>= fun err =>
        match err with
        | some e =>
          socket.close x.1 >>= fun _ =>
            pure (.failed layer ("socket attach BPF error: " ++ e))
        | none =>
          sendRepliesBy (socket.send x.1) host replyType srcIP ingress dstMAC layer 0 ipv4
              (replyTargets host cfg dec.replyNICMatch ingress) >>= fun r =>
            socket.close x.1 >>= fun _ =>
              pure { err := errorsJoin r.2, layer, attempts := r.1 }

/-- **`HandleGenericReply`**, over its socket: a reply for a client of this relay. -/
def handleGenericReplyBy (host : Host) (cfg : HandleOptions) (dec : Decision) (layer : DHCPv4)
    (replyType : ReplyType) : m Outcome :=
  if dec.dropReply then pure { layer }
  else
    match replyIngress host dec layer with
    | .error e => pure (.failed layer e)
    | .ok (srcIP, ifi) =>
      match replyAddressing replyType srcIP (stripRelay layer) (replyIPv4Header host cfg)
          cfg.broadcastReplyL2Unicast with
      | .error e => pure (.failed (stripRelay layer) ("reply addressing error: " ++ e))
      | .ok (dstMAC, layer, ipv4) =>
        deliverBy socket host cfg dec replyType srcIP ifi dstMAC layer ipv4

end Socket

/-- The socket as the host has it: each step succeeds or fails, and that is all. -/
def Host.socket (host : Host) : ReplySocket Id Unit where
  create := ((), host.rawCreate)
  attachBPF _ := host.rawAttachBPF
  send _ n _ _ := host.send n
  close _ := ()

/-- `SendReply`, on a host. -/
def sendReply (host : Host) (n : ℕ) (nic : Interface) (dstMAC : Bytes) (layer : DHCPv4)
    (ipv4 : IPv4Header) : Option Attempt × Option String :=
  Id.run (sendReplyBy (host.socket.send ()) host n nic dstMAC layer ipv4)

/-- The loop of `HandleGenericReply`, on a host. -/
def sendReplies (host : Host) (replyType : ReplyType) (srcIP : IP) (ingress : Interface)
    (dstMAC : Bytes) (layer : DHCPv4) (n : ℕ) (ipv4 : IPv4Header) (nics : List Interface) :
    List Attempt × List String :=
  Id.run (sendRepliesBy (host.socket.send ()) host replyType srcIP ingress dstMAC layer n ipv4
    nics)

/-- `HandleGenericReply`, on a host. -/
def handleGenericReply (host : Host) (cfg : HandleOptions) (dec : Decision)
    (layer : DHCPv4) (replyType : ReplyType) : Outcome :=
  Id.run (handleGenericReplyBy host.socket host cfg dec layer replyType)

/-- **`ForwardRelayedReply`**: a reply for a client of another relay. -/
def forwardRelayedReply (host : Host) (layer : DHCPv4) : Outcome :=
  match IP.to4 layer.relayAgentIP with
  | none => .failed layer "invalid Relay Agent address for reply forwarding"
  | some giaddr =>
    if IP.isUnspecified giaddr || IP.isLoopback giaddr || IP.equal giaddr IP.ipv4bcast then
      .failed layer "invalid Relay Agent address for reply forwarding"
    else if layer.relayHops < 1 then
      .failed layer ("hop count " ++ toString layer.relayHops
        ++ " below minimum for reply forwarding")
    else
      relayToServer host (IP.string4 giaddr) { layer with relayHops := layer.relayHops - 1 }

/-! ## What the two handlers can do -/

theorem replySource_ok_iff {layer : DHCPv4} {srcIP : IP} :
    replySource layer = .ok srcIP
      ↔ IP.to4 layer.relayAgentIP = some srcIP ∧ IP.isLoopback srcIP = false
        ∧ IP.equal srcIP IP.ipv4zero = false ∧ IP.equal srcIP IP.ipv4bcast = false := by
  unfold replySource
  cases h4 : IP.to4 layer.relayAgentIP with
  | none => simp
  | some ip4 =>
    simp only [Option.some.injEq]
    split
    · next h =>
      constructor
      · intro h'
        cases h'
      · rintro ⟨rfl, hl, hz, hb⟩
        simp [hl, hz, hb] at h
    · next h =>
      simp only [Bool.or_eq_true, not_or, Bool.not_eq_true] at h
      constructor
      · intro h'
        cases h'
        exact ⟨rfl, h.1.1, h.1.2, h.2⟩
      · rintro ⟨rfl, -⟩
        rfl

/-- Where the policy gate has decoded nothing, Option 82 is decoded here, with the
same result. -/
theorem replySubOptions_of_nil {dec : Decision} (h : dec.replySubOpts = [])
    (layer : DHCPv4) :
    replySubOptions dec layer
      = if Relay.subOptions layer = [] then .error "no Relay Agent Information"
        else .ok (Relay.subOptions layer) := by
  rw [replySubOptions, if_pos h, Relay.subOptions]
  dsimp only
  cases isOption (getRelayAgentInformationOption layer) with
  | false => rfl
  | true => rfl

theorem circuitInterface_ok_iff {host : Host} {subOpts : List DHCPOption}
    {ifi : Interface} :
    circuitInterface host subOpts = .ok ifi
      ↔ extractAgentCircuitIDSubOptionData subOpts ≠ 0
        ∧ host.interfaceByIndex (extractAgentCircuitIDSubOptionData subOpts) = .ok ifi
        ∧ ifi.up = true ∧ ifi.hardwareAddr ≠ [] := by
  unfold circuitInterface
  by_cases h0 : extractAgentCircuitIDSubOptionData subOpts = 0
  · simp [h0]
  · simp only [h0, if_false, ne_eq, not_false_eq_true, true_and]
    cases hi : host.interfaceByIndex (extractAgentCircuitIDSubOptionData subOpts) with
    | error e => simp
    | ok x =>
      simp only [Except.ok.injEq]
      split
      · next h =>
        constructor
        · intro h'
          cases h'
        · rintro ⟨rfl, hup, hne⟩
          simp [hup, hne] at h
      · next h =>
        simp only [Bool.or_eq_true, Bool.not_eq_true', beq_iff_eq, not_or,
          Bool.not_eq_false, List.length_eq_zero_iff] at h
        constructor
        · intro h'
          cases h'
          exact ⟨rfl, h.1, h.2⟩
        · rintro ⟨rfl, -⟩
          rfl

/-- **The gate of a delivered reply.** -/
theorem replyIngress_ok_iff {host : Host} {dec : Decision} {layer : DHCPv4}
    {srcIP : IP} {ifi : Interface} :
    replyIngress host dec layer = .ok (srcIP, ifi)
      ↔ replySource layer = .ok srcIP
        ∧ (∃ subOpts, replySubOptions dec layer = .ok subOpts
          ∧ circuitInterface host subOpts = .ok ifi)
        ∧ host.setNetworkLayer = none := by
  unfold replyIngress
  cases hs : replySource layer with
  | error e => simp
  | ok src =>
    cases ho : replySubOptions dec layer with
    | error e => simp
    | ok subOpts =>
      cases hc : circuitInterface host subOpts with
      | error e => simp [hc]
      | ok ifi' =>
        cases hn : host.setNetworkLayer with
        | some e => simp [hc]
        | none => simp [hc]

/-- The message that a delivered reply carries. -/
def delivered (replyType : ReplyType) (layer : DHCPv4) : DHCPv4 :=
  if replyType = unicastReply then setUnicast (stripRelay layer)
  else setBroadcast (stripRelay layer)

theorem layer_of_replyAddressing {replyType : ReplyType} {srcIP : IP}
    {layer layer' : DHCPv4} {ipv4 ipv4' : IPv4Header} {b : Bool} {dstMAC : Bytes}
    (h : replyAddressing replyType srcIP (stripRelay layer) ipv4 b
      = .ok (dstMAC, layer', ipv4')) :
    layer' = delivered replyType layer := by
  unfold replyAddressing at h
  unfold delivered
  by_cases hu : replyType = unicastReply
  · rw [if_pos hu] at h ⊢
    split at h
    · cases h
    · cases h
      rfl
  · rw [if_neg hu] at h ⊢
    split at h
    · cases h
      rfl
    · cases h

/-- A frame that can be made is attempted. -/
theorem sendReply_ok {host : Host} {n : ℕ} {nic : Interface}
    (hhw : nic.hardwareAddr.length ≠ 0) (hser : host.serialize n = none) (dstMAC : Bytes)
    (layer : DHCPv4) (ipv4 : IPv4Header) :
    sendReply host n nic dstMAC layer ipv4
      = (some ⟨.frame (replyFrame nic dstMAC layer ipv4), host.send n⟩,
          (host.send n).map (fun e => "socket write error: " ++ e)) := by
  rw [sendReply, sendReplyBy, if_neg hhw, hser]
  rfl

/-- **What `SendReply` can do**: fail with nothing attempted, or attempt one frame. -/
theorem sendReply_cases (host : Host) (n : ℕ) (nic : Interface) (dstMAC : Bytes)
    (layer : DHCPv4) (ipv4 : IPv4Header) :
    (∃ e, sendReply host n nic dstMAC layer ipv4 = (none, some e))
      ∨ sendReply host n nic dstMAC layer ipv4
        = (some ⟨.frame (replyFrame nic dstMAC layer ipv4), host.send n⟩,
            (host.send n).map (fun e => "socket write error: " ++ e)) := by
  by_cases hhw : nic.hardwareAddr.length = 0
  · rw [sendReply, sendReplyBy, if_pos hhw]
    exact .inl ⟨_, rfl⟩
  · cases hser : host.serialize n with
    | some e =>
      rw [sendReply, sendReplyBy, if_neg hhw, hser]
      exact .inl ⟨_, rfl⟩
    | none => exact .inr (sendReply_ok hhw hser dstMAC layer ipv4)

theorem mem_attempt_sendReply {host : Host} {n : ℕ} {nic : Interface} {dstMAC : Bytes}
    {layer : DHCPv4} {ipv4 : IPv4Header} {a : Attempt}
    (h : a ∈ (sendReply host n nic dstMAC layer ipv4).1) :
    ∃ f : Frame, a.emission = .frame f ∧ f.message = layer ∧ f.nic = nic.index := by
  rcases sendReply_cases host n nic dstMAC layer ipv4 with ⟨e, he⟩ | he
  · rw [he] at h
    cases h
  · rw [he] at h
    cases h
    exact ⟨_, rfl, rfl, rfl⟩

section Loop

variable {host : Host} {replyType : ReplyType} {srcIP : IP} {ingress : Interface}
  {dstMAC : Bytes} {layer : DHCPv4} {n : ℕ} {ipv4 : IPv4Header} {nic : Interface}

theorem sendReplies_nil :
    sendReplies host replyType srcIP ingress dstMAC layer n ipv4 [] = ([], []) := rfl

/-- An interface without a source is passed over. -/
theorem sendReplies_of_error {e : String}
    (h : nicSource host replyType srcIP ingress layer ipv4 nic = .error e)
    (nics : List Interface) :
    sendReplies host replyType srcIP ingress dstMAC layer n ipv4 (nic :: nics)
      = ((sendReplies host replyType srcIP ingress dstMAC layer (n + 1) ipv4 nics).1,
          e :: (sendReplies host replyType srcIP ingress dstMAC layer (n + 1) ipv4 nics).2) := by
  rw [sendReplies, sendRepliesBy, h]
  rfl

/-- The header of an interface is passed along to the next one. -/
theorem sendReplies_of_ok {header : IPv4Header}
    (h : nicSource host replyType srcIP ingress layer ipv4 nic = .ok header)
    (nics : List Interface) :
    sendReplies host replyType srcIP ingress dstMAC layer n ipv4 (nic :: nics)
      = ((sendReply host n nic dstMAC layer header).1.toList
            ++ (sendReplies host replyType srcIP ingress dstMAC layer (n + 1) header nics).1,
          ((sendReply host n nic dstMAC layer header).2.map
              (fun e => String.ofList nic.name ++ ": " ++ e)).toList
            ++ (sendReplies host replyType srcIP ingress dstMAC layer (n + 1) header nics).2) := by
  rw [sendReplies, sendRepliesBy, h]
  rfl

end Loop

/-- Every frame carries the message, and goes out of a target. -/
theorem mem_attempts_sendReplies {host : Host} {replyType : ReplyType} {srcIP : IP}
    {ingress : Interface} {dstMAC : Bytes} {layer : DHCPv4} {n : ℕ} {ipv4 : IPv4Header}
    {nics : List Interface} {a : Attempt}
    (h : a ∈ (sendReplies host replyType srcIP ingress dstMAC layer n ipv4 nics).1) :
    ∃ f : Frame, a.emission = .frame f ∧ f.message = layer
      ∧ ∃ nic ∈ nics, f.nic = nic.index := by
  induction nics generalizing n ipv4 with
  | nil => cases h
  | cons nic nics ih =>
    have hrest : ∀ {n ipv4}, a ∈ (sendReplies host replyType srcIP ingress dstMAC layer
        n ipv4 nics).1 → ∃ f : Frame, a.emission = .frame f ∧ f.message = layer
          ∧ ∃ x ∈ nic :: nics, f.nic = x.index := by
      intro n ipv4 h
      obtain ⟨f, he, hm, x, hx, hi⟩ := ih h
      exact ⟨f, he, hm, x, List.mem_cons_of_mem nic hx, hi⟩
    cases hsrc : nicSource host replyType srcIP ingress layer ipv4 nic with
    | error e =>
      rw [sendReplies_of_error hsrc] at h
      exact hrest h
    | ok header =>
      rw [sendReplies_of_ok hsrc] at h
      rcases List.mem_append.mp h with h | h
      · obtain ⟨f, he, hm, hi⟩ := mem_attempt_sendReply (Option.mem_toList.mp h)
        exact ⟨f, he, hm, nic, List.mem_cons_self, hi⟩
      · exact hrest h

theorem handleGenericReply_of_drop {dec : Decision} (h : dec.dropReply = true) (host : Host)
    (cfg : HandleOptions) (layer : DHCPv4) (replyType : ReplyType) :
    handleGenericReply host cfg dec layer replyType = { layer } := by
  rw [handleGenericReply, handleGenericReplyBy, if_pos h]
  rfl

/-- A reply that is addressed is given to the socket. -/
theorem handleGenericReply_of_addressed {host : Host} {cfg : HandleOptions} {dec : Decision}
    (hdrop : dec.dropReply = false) {layer layer' : DHCPv4} {srcIP : IP} {ifi : Interface}
    (hin : replyIngress host dec layer = .ok (srcIP, ifi)) {replyType : ReplyType}
    {dstMAC : Bytes} {ipv4 : IPv4Header}
    (haddr : replyAddressing replyType srcIP (stripRelay layer) (replyIPv4Header host cfg)
      cfg.broadcastReplyL2Unicast = .ok (dstMAC, layer', ipv4)) :
    handleGenericReply host cfg dec layer replyType
      = Id.run (deliverBy host.socket host cfg dec replyType srcIP ifi dstMAC layer' ipv4) := by
  rw [handleGenericReply, handleGenericReplyBy, hdrop, if_neg Bool.false_ne_true, hin]
  dsimp only
  rw [haddr]

/-- A reply that is addressed and has a socket goes through the loop. -/
theorem handleGenericReply_eq {host : Host} {cfg : HandleOptions} {dec : Decision}
    (hdrop : dec.dropReply = false) {layer layer' : DHCPv4} {srcIP : IP} {ifi : Interface}
    (hin : replyIngress host dec layer = .ok (srcIP, ifi)) {replyType : ReplyType}
    {dstMAC : Bytes} {ipv4 : IPv4Header}
    (haddr : replyAddressing replyType srcIP (stripRelay layer) (replyIPv4Header host cfg)
      cfg.broadcastReplyL2Unicast = .ok (dstMAC, layer', ipv4))
    (hcreate : host.rawCreate = none) (hbpf : host.rawAttachBPF = none) :
    handleGenericReply host cfg dec layer replyType
      = { err := errorsJoin (sendReplies host replyType srcIP ifi dstMAC layer' 0 ipv4
            (replyTargets host cfg dec.replyNICMatch ifi)).2
          layer := layer'
          attempts := (sendReplies host replyType srcIP ifi dstMAC layer' 0 ipv4
            (replyTargets host cfg dec.replyNICMatch ifi)).1 } := by
  rw [handleGenericReply_of_addressed hdrop hin haddr]
  simp only [deliverBy, Host.socket, hcreate, hbpf]
  rfl

/-- **What `HandleGenericReply` can do**: drop the reply as the policy asks,
fail with nothing attempted, or go through the loop. -/
theorem handleGenericReply_cases (host : Host) (cfg : HandleOptions) (dec : Decision)
    (layer : DHCPv4) (replyType : ReplyType) :
    dec.dropReply = true ∧ handleGenericReply host cfg dec layer replyType = { layer }
      ∨ dec.dropReply = false
        ∧ ((∃ m e, handleGenericReply host cfg dec layer replyType = .failed m e)
          ∨ ∃ srcIP ifi dstMAC ipv4, replyIngress host dec layer = .ok (srcIP, ifi)
            ∧ replyAddressing replyType srcIP (stripRelay layer) (replyIPv4Header host cfg)
                cfg.broadcastReplyL2Unicast = .ok (dstMAC, delivered replyType layer, ipv4)
            ∧ host.rawCreate = none ∧ host.rawAttachBPF = none) := by
  cases hdrop : dec.dropReply with
  | true => exact .inl ⟨rfl, handleGenericReply_of_drop hdrop host cfg layer replyType⟩
  | false =>
    refine .inr ⟨rfl, ?_⟩
    cases hin : replyIngress host dec layer with
    | error e =>
      rw [handleGenericReply, handleGenericReplyBy, hdrop, if_neg Bool.false_ne_true, hin]
      exact .inl ⟨_, _, rfl⟩
    | ok p =>
      obtain ⟨srcIP, ifi⟩ := p
      cases haddr : replyAddressing replyType srcIP (stripRelay layer) (replyIPv4Header host cfg)
          cfg.broadcastReplyL2Unicast with
      | error e =>
        rw [handleGenericReply, handleGenericReplyBy, hdrop, if_neg Bool.false_ne_true, hin]
        dsimp only
        rw [haddr]
        exact .inl ⟨_, _, rfl⟩
      | ok q =>
        obtain ⟨dstMAC, layer', ipv4⟩ := q
        cases layer_of_replyAddressing haddr
        rw [handleGenericReply_of_addressed hdrop hin haddr]
        cases hcreate : host.rawCreate with
        | some e =>
          simp only [deliverBy, Host.socket, hcreate]
          exact .inl ⟨_, _, rfl⟩
        | none =>
          cases hbpf : host.rawAttachBPF with
          | some e =>
            simp only [deliverBy, Host.socket, hcreate, hbpf]
            exact .inl ⟨_, _, rfl⟩
          | none => exact .inr ⟨srcIP, ifi, dstMAC, ipv4, rfl, haddr, rfl, rfl⟩

/-- **What `HandleGenericReply` can send**: frames with the reply as
`delivered` leaves it. -/
theorem mem_attempts_handleGenericReply {host : Host} {cfg : HandleOptions}
    {dec : Decision} {layer : DHCPv4} {replyType : ReplyType} {a : Attempt}
    (h : a ∈ (handleGenericReply host cfg dec layer replyType).attempts) :
    dec.dropReply = false
      ∧ ∃ f : Frame, a.emission = .frame f ∧ f.message = delivered replyType layer := by
  rcases handleGenericReply_cases host cfg dec layer replyType with
    ⟨-, he⟩ | ⟨hdrop, ⟨m, e, he⟩ | ⟨srcIP, ifi, dstMAC, ipv4, hin, haddr, hcreate, hbpf⟩⟩
  · rw [he] at h
    cases h
  · rw [he] at h
    cases h
  · rw [handleGenericReply_eq hdrop hin haddr hcreate hbpf] at h
    obtain ⟨f, he, hm, -⟩ := mem_attempts_sendReplies h
    exact ⟨hdrop, f, he, hm⟩

/-- **What `ForwardRelayedReply` can do**: fail with nothing sent and the
message untouched, or pass the message on to giaddr with one hop less. -/
theorem forwardRelayedReply_cases (host : Host) (layer : DHCPv4) :
    (∃ e, forwardRelayedReply host layer = .failed layer e)
      ∨ ∃ giaddr, IP.to4 layer.relayAgentIP = some giaddr
        ∧ IP.isUnspecified giaddr = false ∧ IP.isLoopback giaddr = false
        ∧ IP.equal giaddr IP.ipv4bcast = false ∧ 1 ≤ layer.relayHops
        ∧ forwardRelayedReply host layer
          = relayToServer host (IP.string4 giaddr)
              { layer with relayHops := layer.relayHops - 1 } := by
  unfold forwardRelayedReply
  cases h4 : IP.to4 layer.relayAgentIP with
  | none => exact .inl ⟨_, rfl⟩
  | some giaddr =>
    simp only
    split
    · exact .inl ⟨_, rfl⟩
    · next h =>
      simp only [Bool.or_eq_true, not_or, Bool.not_eq_true] at h
      split
      · exact .inl ⟨_, rfl⟩
      · next hh =>
        exact .inr ⟨giaddr, rfl, h.1.1, h.1.2, h.2, UInt8.not_lt.mp hh, rfl⟩

/-! ## Delivery on the ingress interface -/

/-- A decoded reply can be addressed, whichever way its flags ask for. -/
theorem replyAddressing_ok {replyType : ReplyType}
    (ht : replyType = unicastReply ∨ replyType = broadcastReply) (srcIP : IP)
    {layer : DHCPv4} (hy : layer.yourClientIP.length = 4) (hc : layer.clientIP.length = 4)
    (ipv4 : IPv4Header) (b : Bool) :
    ∃ dstMAC layer' ipv4',
      replyAddressing replyType srcIP layer ipv4 b = .ok (dstMAC, layer', ipv4') := by
  have hdst : ∃ dstIP, unicastDst layer = some dstIP := by
    rw [unicastDst, IP.to4_of_length hy, IP.to4_of_length hc]
    dsimp only
    split
    · exact ⟨_, rfl⟩
    · exact ⟨_, rfl⟩
  rcases ht with rfl | rfl
  · obtain ⟨dstIP, hdst⟩ := hdst
    exact ⟨_, _, _, by rw [replyAddressing, if_pos rfl, hdst]⟩
  · exact ⟨_, _, _, by rw [replyAddressing, if_neg (by decide), if_pos rfl]⟩

/-- On the ingress interface alone, one frame is attempted. -/
theorem attempts_sendReplies_ingress {host : Host} (hser : host.serialize 0 = none)
    (replyType : ReplyType) (srcIP : IP) {ingress : Interface}
    (hhw : ingress.hardwareAddr ≠ []) (dstMAC : Bytes) (layer : DHCPv4)
    (ipv4 : IPv4Header) :
    ∃ f : Frame,
      (sendReplies host replyType srcIP ingress dstMAC layer 0 ipv4 [ingress]).1
        = [⟨.frame f, host.send 0⟩] ∧ f.nic = ingress.index ∧ f.message = layer := by
  obtain ⟨ipv4', hsrc⟩ : ∃ ipv4',
      nicSource host replyType srcIP ingress layer ipv4 ingress = .ok ipv4' := by
    rw [nicSource, if_neg (not_not.mpr rfl)]
    split
    · exact ⟨_, rfl⟩
    · exact ⟨_, rfl⟩
  have hlen : ¬ ingress.hardwareAddr.length = 0 := by rwa [List.length_eq_zero_iff]
  refine ⟨replyFrame ingress dstMAC layer ipv4', ?_, rfl, rfl⟩
  rw [sendReplies_of_ok hsrc, sendReply_ok hlen hser]
  rfl

/-- **Delivery on the ingress interface.** Where no policy selects interfaces and
the sockets work, a reply that passes the gate is attempted as one frame, out of
the interface of the circuit id. -/
theorem handleGenericReply_ingress {host : Host} (hser : host.serialize 0 = none)
    (hcreate : host.rawCreate = none) (hbpf : host.rawAttachBPF = none)
    (cfg : HandleOptions) {dec : Decision} (hdrop : dec.dropReply = false)
    (hmatch : dec.replyNICMatch = none) {layer : DHCPv4} {srcIP : IP} {ifi : Interface}
    (hin : replyIngress host dec layer = .ok (srcIP, ifi)) (hhw : ifi.hardwareAddr ≠ [])
    {replyType : ReplyType} (ht : replyType = unicastReply ∨ replyType = broadcastReply)
    (hy : layer.yourClientIP.length = 4) (hc : layer.clientIP.length = 4) :
    ∃ f : Frame, (handleGenericReply host cfg dec layer replyType).attempts
        = [⟨.frame f, host.send 0⟩]
      ∧ f.nic = ifi.index ∧ f.message = delivered replyType layer := by
  have hy' : (stripRelay layer).yourClientIP.length = 4 := hy
  obtain ⟨dstMAC, layer', ipv4, haddr⟩ := replyAddressing_ok ht srcIP hy' hc
    (replyIPv4Header host cfg) cfg.broadcastReplyL2Unicast
  obtain ⟨f, hf, hnic, hmsg⟩ := attempts_sendReplies_ingress hser replyType srcIP hhw dstMAC
    layer' ipv4
  refine ⟨f, ?_, hnic, hmsg.trans (layer_of_replyAddressing haddr)⟩
  rw [handleGenericReply_eq hdrop hin haddr hcreate hbpf, hmatch]
  exact hf
