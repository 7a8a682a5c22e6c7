import DhcpRelay.PolicyGate

/-!
# The host, the configuration, and what a relay sends

What a relay asks of the machine it runs on, while it handles one packet:
which interfaces there are and which addresses they have, which local address
the kernel would use towards a server, and whether encoding and sending
succeed. `Host` gives an answer to every such question, and a theorem about
every `Host` is a theorem about every machine. Interfaces and addresses may
change between two packets, so two packets may be handled under two hosts.

`HandleOptions` is the configuration the process is started with. The values
that `main` checks carry what it checked: a relay with no hop allowed, or with
an override address that it would not recognise in a reply, cannot be built.

What a handler does is an `Outcome`: the message as the handler left it (the
source mutates it in place), the error it returned, and every attempt to send
something, in order and with the error of the attempt.
-/

open Dhcp

/-- A `net.Interface`. -/
structure Interface where
  index : ℤ
  name : Text
  hardwareAddr : Bytes
  /-- `FlagUp` is set. -/
  up : Bool
  deriving DecidableEq, Repr

/-- A `net.Addr`, as interfaces have them. -/
inductive Addr where
  | ipAddr (ip : IP)
  | ipNet (n : IPNet)
  deriving DecidableEq, Repr

/-- **The host during the handling of one packet.** The `n`-th message of the
handler is encoded with `serialize n` and sent with `send n`, `none` for
success. -/
structure Host where
  /-- `net.InterfaceByIndex`. -/
  interfaceByIndex : ℤ → Except String Interface
  /-- The interface found is the one asked for. -/
  index_interfaceByIndex : ∀ i ifi, interfaceByIndex i = .ok ifi → ifi.index = i
  /-- `Interface.Addrs`. -/
  addrs : Interface → Except String (List Addr)
  /-- `net.InterfaceAddrs`. -/
  interfaceAddrs : Except String (List Addr)
  /-- `InterfaceCache.Interfaces`: the interfaces, and an error when they are
  a stale snapshot or could not be enumerated. -/
  interfaces : List Interface × Option String
  /-- The local address of a UDP socket connected to port 67 of a server. -/
  dial : Text → Except String IP
  /-- `GenerateRandomIPv4ID`. -/
  randomIPv4ID : UInt16
  /-- `UDP.SetNetworkLayerForChecksum`. -/
  setNetworkLayer : Option String
  /-- `Raw.Create`. -/
  rawCreate : Option String
  /-- `Raw.AttachBPF`. -/
  rawAttachBPF : Option String
  /-- `gopacket.SerializeLayers`. -/
  serialize : ℕ → Option String
  /-- `SendToServer` and `Raw.Send`. -/
  send : ℕ → Option String
  /-- `slices.SortFunc` on options. -/
  sort : OptionSort

/-- A host with the given interfaces and addresses, on which every call
succeeds but that has no route. -/
def Host.ofInterfaces (ifaces : List (Interface × List Addr)) : Host where
  interfaceByIndex i :=
    match ifaces.find? (fun p => p.1.index = i) with
    | some p => .ok p.1
    | none => .error "no such network interface"
  index_interfaceByIndex := by
    intro i ifi h
    split at h
    · next p hp =>
      cases h
      have hi := List.find?_some hp
      exact of_decide_eq_true hi
    · cases h
  addrs ifi :=
    match ifaces.find? (fun p => p.1 = ifi) with
    | some p => .ok p.2
    | none => .error "no such network interface"
  interfaceAddrs := .ok (ifaces.flatMap Prod.snd)
  interfaces := (ifaces.map Prod.fst, none)
  dial _ := .error "network is unreachable"
  randomIPv4ID := 0
  setNetworkLayer := none
  rawCreate := none
  rawAttachBPF := none
  serialize _ := none
  send _ := none
  sort := SortBy.insertion _

/-- **`HandleOptions`**, with what `main` checked when the process started and
what a link map promises: it gives networks of four bytes. -/
structure HandleOptions where
  /-- `LinkMap.Lookup` by name and hardware address, when there is a map. -/
  linkMap : Option (Text → Text → Option IP) := none
  linkMap_length : ∀ f ∈ linkMap, ∀ name mac subnet,
    f name mac = some subnet → subnet.length = 4 := by simp
  dhcpServerAddress : Text
  /-- The override for an unnumbered ingress, nil to derive it. -/
  giaddr : IP := []
  giaddr_ok : giaddr = []
    ∨ giaddr.length = 4 ∧ isGlobalUnicastIPv4 giaddr = true := by decide
  maxHops : UInt8
  maxHops_pos : 1 ≤ maxHops := by decide
  /-- The interface cache is not nil. -/
  replyInterfaceCache : Bool := true
  broadcastReplyL2Unicast : Bool := false
  replyTTL : UInt8 := 1

/-! ## What is sent -/

/-- The IPv4 header of a reply. -/
structure IPv4Header where
  version : UInt8
  id : UInt16
  dontFragment : Bool
  ttl : UInt8
  protocol : UInt8
  srcIP : IP := []
  dstIP : IP := []
  deriving DecidableEq, Repr

/-- A reply frame, on the interface it is sent on. -/
structure Frame where
  /-- The interface index handed to the raw socket. -/
  nic : ℤ
  srcMAC : Bytes
  dstMAC : Bytes
  ethernetType : UInt16
  ipv4 : IPv4Header
  srcPort : UInt16
  dstPort : UInt16
  message : DHCPv4
  deriving DecidableEq, Repr

/-- What a relay sends: a datagram to port 67 of an address, from its UDP
socket, or a frame on an interface. -/
inductive Emission where
  | datagram (dst : Text) (message : DHCPv4)
  | frame (f : Frame)
  deriving DecidableEq, Repr

/-- The DHCP message of an emission. -/
def Emission.message : Emission → DHCPv4
  | .datagram _ m => m
  | .frame f => f.message

/-- An attempt to send, and the error of the attempt. -/
structure Attempt where
  emission : Emission
  err : Option String
  deriving DecidableEq, Repr

/-- **What a handler did with a message.** -/
structure Outcome where
  /-- The error it returned. -/
  err : Option String := none
  /-- The message as it left it. -/
  layer : DHCPv4
  attempts : List Attempt := []
  deriving DecidableEq, Repr

/-- What was sent: the attempts that met no error. -/
def Outcome.sent (o : Outcome) : List Emission :=
  (o.attempts.filter (fun a => a.err.isNone)).map Attempt.emission

theorem Outcome.mem_sent {o : Outcome} {e : Emission} :
    e ∈ o.sent ↔ ⟨e, none⟩ ∈ o.attempts := by
  rw [Outcome.sent, List.mem_map]
  constructor
  · rintro ⟨⟨e, err⟩, ha, rfl⟩
    obtain ⟨hmem, herr⟩ := List.mem_filter.mp ha
    cases Option.isNone_iff_eq_none.mp herr
    exact hmem
  · intro h
    exact ⟨⟨e, none⟩, List.mem_filter.mpr ⟨h, rfl⟩, rfl⟩

/-- A handler that returned an error before doing anything. -/
def Outcome.failed (layer : DHCPv4) (err : String) : Outcome := { err := err, layer }

/-! ## Addresses of the host -/

/-- `InterfaceGlobalUnicastAddrs4`: the usable addresses of an interface, in
its order. -/
def interfaceGlobalUnicastAddrs4 (host : Host) (ifi : Interface) :
    Except String (List IPNet) :=
  (host.addrs ifi).map (fun addrs => addrs.filterMap (fun addr =>
    match addr with
    | .ipAddr _ => none
    | .ipNet v => if isGlobalUnicastIPv4 v.ip then some v else none))

theorem isGlobalUnicastIPv4_of_mem {host : Host} {ifi : Interface} {l : List IPNet}
    (h : interfaceGlobalUnicastAddrs4 host ifi = .ok l) {n : IPNet} (hn : n ∈ l) :
    isGlobalUnicastIPv4 n.ip = true := by
  unfold interfaceGlobalUnicastAddrs4 at h
  cases ha : host.addrs ifi with
  | error e => rw [ha] at h; cases h
  | ok addrs =>
    rw [ha] at h
    cases h
    obtain ⟨addr, -, haddr⟩ := List.mem_filterMap.mp hn
    cases addr with
    | ipAddr ip => cases haddr
    | ipNet v =>
      simp only [Option.ite_none_right_eq_some, Option.some.injEq] at haddr
      obtain ⟨hv, rfl⟩ := haddr
      exact hv

/-- `IsRelayLocalAddr`: a global unicast IPv4 address of this host. -/
def isRelayLocalAddr (host : Host) (ip : IP) : Bool :=
  match IP.to4 ip with
  | none => false
  | some v4 =>
    if IP.isUnspecified v4 then false
    else match host.interfaceAddrs with
      | .error _ => false
      | .ok addrs => addrs.any (fun addr =>
          match addr with
          | .ipAddr _ => false
          | .ipNet n =>
            match IP.to4 n.ip with
            | none => false
            | some a4 => IP.isGlobalUnicast n.ip && IP.equal a4 v4)

/-- `GiaddrIsLocal`: an address of this host, or the configured override. -/
def giaddrIsLocal (host : Host) (cfg : HandleOptions) (ip : IP) : Bool :=
  isRelayLocalAddr host ip || (cfg.giaddr ≠ [] && IP.equal cfg.giaddr ip)

/-- `BestUnicastSrc`: the address whose network holds yiaddr, or the first
one. -/
def bestUnicastSrc (addrs : List IPNet) (yiaddr : IP) : IP :=
  match addrs with
  | [] => []
  | first :: _ =>
    let fallback := (IP.to4 first.ip).getD []
    match IP.to4 yiaddr with
    | none => fallback
    | some yi4 =>
      match addrs.find? (fun a => (IP.to4 a.ip).isSome && a.contains yi4) with
      | none => fallback
      | some a => (IP.to4 a.ip).getD []
