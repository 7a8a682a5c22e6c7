import DhcpRelay.Handle

/-!
# What reaches the handler

Everything that happens to a received frame before `handle` (`main.go` and
`pkg/dhcp4/validate.go`): the layers are decoded, validated and cleared of
split options, and the policy judges what is left. The order matters. The
policy judges the very message that is handled, because the options that a
server could read differently are gone by then.

Decoding is the packet library's. A decoded frame is a `Packet`, which carries
what decoding guarantees of the message: an option's length byte is the length
of its data, addresses have four bytes, and nothing follows an End option.

`admitPacket_always` is what the rest of the development uses: whatever tables are
published while a packet is judged, what is handled is the received message
without its split options.
-/

open Dhcp MacPolicy Relay

/-! ## Decoded packets -/

/-- **What decoding guarantees of a message.** -/
structure DHCPv4.Decoded (m : DHCPv4) : Prop where
  length_data : ∀ o ∈ m.options, o.length.toNat = o.data.length
  /-- The option area ends at its first End. -/
  end_last : ∀ o ∈ m.options.dropLast, o.type ≠ optEnd
  length_clientIP : m.clientIP.length = 4
  length_yourClientIP : m.yourClientIP.length = 4
  length_relayAgentIP : m.relayAgentIP.length = 4
  length_clientHWAddr : m.clientHWAddr.length = m.hardwareLen.toNat

/-- The result of `VerifyChecksum`. -/
structure ChecksumResult where
  valid : Bool
  actual : UInt16
  correct : UInt16
  deriving DecidableEq, Repr

/-- The IPv4 layer of a received packet, as far as it is validated. -/
structure ReceivedIPv4 where
  moreFragments : Bool
  fragOffset : UInt16
  ihl : UInt8
  srcIP : IP
  dstIP : IP
  checksum : ChecksumResult
  deriving DecidableEq, Repr

/-- The UDP layer of a received packet, as far as it is validated. -/
structure ReceivedUDP where
  dstPort : UInt16
  /-- The error of binding the checksum to the network layer. -/
  setNetworkLayer : Option String
  checksum : ChecksumResult
  deriving DecidableEq, Repr

/-- **A frame that decoded completely**, down to the DHCPv4 layer. -/
structure Packet where
  ipv4 : ReceivedIPv4
  udp : ReceivedUDP
  dhcp : DHCPv4
  decoded : dhcp.Decoded

/-- What `DecodeLayers` makes of a frame. -/
inductive Decoding where
  | error (e : String)
  /-- The chain of layers ends before DHCPv4. -/
  | incomplete
  | complete (p : Packet)

/-! ## Validation -/

/-- `ValidateOptions`. -/
structure ValidateOptions where
  mtu : UInt16
  verifyChecksums : Bool
  deriving DecidableEq, Repr

/-- `DHCPv4MinMessageSize`. -/
def minMessageSize : UInt16 := 244

/-- `DHCPv4ServerPort`. -/
def serverPort : UInt16 := 67

/-- `LinkTypeEthernet`. -/
def linkTypeEthernet : UInt8 := 1

/-- `0x%04x`. -/
def hex4 (n : UInt16) : String :=
  "0x" ++ String.ofList ((List.range 4).reverse.map (fun i => hexDigit (n.toNat / 16 ^ i % 16)))

/-- The checksum part of `ValidateLayers`. -/
def validateChecksums (p : Packet) : Option String :=
  if !p.ipv4.checksum.valid then
    some ("invalid IPv4 checksum: got " ++ hex4 p.ipv4.checksum.actual ++ ", want "
      ++ hex4 p.ipv4.checksum.correct)
  else
    match p.udp.setNetworkLayer with
    | some e => some ("UDP checksum pseudo-header binding error: " ++ e)
    | none =>
      if !p.udp.checksum.valid then
        some ("invalid UDP checksum: got " ++ hex4 p.udp.checksum.actual ++ ", want "
          ++ hex4 p.udp.checksum.correct)
      else none

/-- **`ValidateLayers`**: the first check that fails. The layers are those of
a decoded frame, so none of them is nil. -/
def validateLayers (lib : GoLib) (opts : ValidateOptions) (p : Packet) : Option String :=
  if opts.mtu ≠ 0 ∧ opts.mtu < minMessageSize then
    some ("invalid ValidateOptions: MTU " ++ toString opts.mtu
      ++ " below minimum DHCPv4 size " ++ toString minMessageSize)
  else if p.ipv4.moreFragments ∨ p.ipv4.fragOffset > 0 then
    some "IPv4 header indicates that packet is fragmented"
  else if p.ipv4.ihl > 5 then some "IPv4 header has variable-sized Options field"
  else if (IP.to4 p.ipv4.srcIP).isNone then some "source IP is not valid IPv4"
  else if IP.isMulticast p.ipv4.srcIP || IP.isLinkLocalMulticast p.ipv4.srcIP then
    some "source IP is Multicast IPv4"
  else if (IP.to4 p.ipv4.dstIP).isNone then some "destination IP is not valid IPv4"
  else if IP.isMulticast p.ipv4.dstIP || IP.isLinkLocalMulticast p.ipv4.dstIP then
    some "destination IP is Multicast IPv4"
  else if p.udp.dstPort ≠ serverPort then
    some ("unexpected UDP Destination port: " ++ toString p.udp.dstPort)
  else if p.dhcp.hardwareType ≠ linkTypeEthernet then
    some ("unexpected HardwareType in DHCPv4 message: "
      ++ lib.linkTypeString p.dhcp.hardwareType)
  else if p.dhcp.hardwareLen ≠ 6 then
    some ("unexpected size of HardwareLen in DHCPv4 message: "
      ++ toString p.dhcp.hardwareLen)
  else if lib.dhcpLen p.dhcp < minMessageSize
      ∨ (opts.mtu > 0 ∧ lib.dhcpLen p.dhcp > opts.mtu) then
    some ("unexpected size of DHCPv4 message: " ++ toString (lib.dhcpLen p.dhcp))
  else if opts.verifyChecksums then validateChecksums p
  else none

/-! ## The gate before the handler -/

/-- The message that is judged and handled: without its split options. -/
def Packet.filtered (p : Packet) : DHCPv4 :=
  { p.dhcp with options := deleteSplitOptions p.dhcp.options }

/-- **`handlePacket`** up to the handler: what is handed to `handle`, if
anything. `policy` says whether there is one. -/
def admitPacket (lib : GoLib) (opts : ValidateOptions) (policy : Bool) (ifIndex : ℤ)
    (frame : Decoding) : Call (Option Table) (Option (DHCPv4 × Option Decision)) :=
  if ifIndex < 1 then .ret none
  else
    match frame with
    | .error _ => .ret none
    | .incomplete => .ret none
    | .complete p =>
      if (validateLayers lib opts p).isSome then .ret none
      else if policy then
        policyForPacket lib p.filtered >>= fun d =>
          .ret (if d.2 then none else some (p.filtered, d.1))
      else .ret (some (p.filtered, none))

/-- **`handlePacket`**: a packet that is admitted is handled when a handler
slot is free, and dropped otherwise. -/
def handlePacket (lib : GoLib) (opts : ValidateOptions) (policy : Bool) (host : Host)
    (cfg : HandleOptions) (slotFree : Bool) (ifIndex : ℤ) (frame : Decoding) :
    Call (Option Table) (Option Outcome) :=
  admitPacket lib opts policy ifIndex frame >>= fun r =>
    .ret (if slotFree then
        r.map (fun a => handle host cfg a.2 ifIndex a.1)
      else none)

/-- **A frame is refused before the policy is asked, or is a valid packet** from a
valid interface. -/
theorem admitPacket_cases (lib : GoLib) (opts : ValidateOptions) (ifIndex : ℤ)
    (frame : Decoding) :
    (∀ policy, admitPacket lib opts policy ifIndex frame = .ret none)
      ∨ ∃ p, frame = .complete p ∧ 1 ≤ ifIndex ∧ validateLayers lib opts p = none := by
  by_cases hi : ifIndex < 1
  · exact .inl (fun policy => if_pos hi)
  · cases frame with
    | error e => exact .inl (fun policy => if_neg hi)
    | incomplete => exact .inl (fun policy => if_neg hi)
    | complete p =>
      cases hv : validateLayers lib opts p with
      | some e =>
        refine .inl (fun policy => ?_)
        rw [admitPacket, if_neg hi]
        simp only [hv, Option.isSome_some, if_true]
      | none => exact .inr ⟨p, rfl, not_lt.mp hi, hv⟩

/-- A valid packet of a relay without a policy is handled as it is. -/
theorem admitPacket_of_no_policy {lib : GoLib} {opts : ValidateOptions} {ifIndex : ℤ}
    {p : Packet} (hi : 1 ≤ ifIndex) (hv : validateLayers lib opts p = none) :
    admitPacket lib opts false ifIndex (.complete p) = .ret (some (p.filtered, none)) := by
  rw [admitPacket, if_neg (by omega)]
  simp [hv]

/-- A valid packet of a relay with a policy is handled when the policy lets it
through. -/
theorem admitPacket_of_policy {lib : GoLib} {opts : ValidateOptions} {ifIndex : ℤ}
    {p : Packet} (hi : 1 ≤ ifIndex) (hv : validateLayers lib opts p = none) :
    admitPacket lib opts true ifIndex (.complete p)
      = policyForPacket lib p.filtered >>= fun d =>
          .ret (if d.2 then none else some (p.filtered, d.1)) := by
  rw [admitPacket, if_neg (by omega)]
  simp [hv]

/-- A request is judged on one table of the policy, if it is judged at all. -/
theorem singleSnapshot_admitPacket {lib : GoLib} {opts : ValidateOptions} {ifIndex : ℤ}
    {p : Packet} (hop : p.filtered.operation ≠ opReply) (P : Option Table → Prop) :
    (admitPacket lib opts true ifIndex (.complete p)).SingleSnapshot P := by
  rcases admitPacket_cases lib opts ifIndex (.complete p) with hnone | ⟨q, hq, hi, hv⟩
  · rw [hnone true]
    exact Call.singleSnapshot_ret P none
  · cases hq
    rw [admitPacket_of_policy hi hv, policyForPacket_request_eq lib hop]
    exact ((singleSnapshot_mapLookupID P _).bind_ret _).bind_ret _

/-- **What is handled**, whatever tables are published meanwhile: the received
message without its split options, from a valid interface. -/
theorem admitPacket_always (lib : GoLib) (opts : ValidateOptions) (policy : Bool)
    (ifIndex : ℤ) (p : Packet) :
    (admitPacket lib opts policy ifIndex (.complete p)).Always (fun r =>
      ∀ a ∈ r, a.1 = p.filtered ∧ 1 ≤ ifIndex
        ∧ validateLayers lib opts p = none) := by
  rcases admitPacket_cases lib opts ifIndex (.complete p) with hnone | ⟨q, hq, hpos, hv⟩
  · rw [hnone policy]
    exact fun a ha => absurd ha (Option.not_mem_none a)
  · cases hq
    have hall : ∀ d, ∀ a ∈ (some (p.filtered, d) : Option (DHCPv4 × Option Decision)),
        a.1 = p.filtered ∧ 1 ≤ ifIndex ∧ validateLayers lib opts p = none := by
      intro d a ha
      cases ha
      exact ⟨rfl, hpos, hv⟩
    cases policy with
    | false =>
      rw [admitPacket_of_no_policy hpos hv]
      exact hall none
    | true =>
      rw [admitPacket_of_policy hpos hv]
      refine (Call.always_true (policyForPacket lib p.filtered)).bind (fun d _ => ?_)
      show ∀ a ∈ (if d.2 = true then none else some (p.filtered, d.1)), _
      split
      · exact fun a ha => absurd ha (Option.not_mem_none a)
      · exact hall d.1
