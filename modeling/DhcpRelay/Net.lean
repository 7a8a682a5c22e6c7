import DhcpRelay.Decimal

/-!
# Addresses

The part of the `net` package the relay computes with. A `net.IP` is a byte
slice: nil, four bytes, or sixteen, where sixteen bytes that start with the
IPv4-in-IPv6 prefix are the same address as the last four of them. Every
predicate of the package is defined on both forms, and so are these. The
relay looks at an address through `IP.to4` nearly everywhere, and on the
wire an address is the four bytes `IP.to4` gives, or zero.

The predicate that matters is `isGlobalUnicastIPv4`: the addresses a relay may
use as its own. What the rest of the development uses of it is in
`isGlobalUnicastIPv4_iff_to4` – the four bytes alone decide – and in the
three corollaries that a global unicast address is specified, is no loopback
address and is not the limited broadcast address.
-/

/-- A Go byte slice, nil and empty identified. -/
abbrev Bytes := List UInt8

/-- A Go string, as its characters. -/
abbrev Text := List Char

/-- A `net.IP`: nil, four bytes or sixteen. -/
abbrev IP := Bytes

namespace IP

/-- The prefix of an IPv4 address in sixteen-byte form. -/
def v4InV6Prefix : Bytes := [0, 0, 0, 0, 0, 0, 0, 0, 0, 0, 0xff, 0xff]

/-- `net.IPv4(a, b, c, d)`, which is in sixteen-byte form. -/
def ipv4 (a b c d : UInt8) : IP := v4InV6Prefix ++ [a, b, c, d]

/-- `net.IPv4zero`. -/
def ipv4zero : IP := ipv4 0 0 0 0

/-- `net.IPv4bcast`. -/
def ipv4bcast : IP := ipv4 255 255 255 255

/-- `net.IPv6unspecified`. -/
def ipv6unspecified : IP := List.replicate 16 0

/-- `net.IPv6loopback`. -/
def ipv6loopback : IP := List.replicate 15 0 ++ [1]

/-- `IP.To4`: the four bytes of an IPv4 address in either form. -/
def to4 (ip : IP) : Option Bytes :=
  if ip.length = 4 then some ip
  else if ip.length = 16 ∧ ip.take 12 = v4InV6Prefix then some (ip.drop 12)
  else none

/-- `IP.Equal`: the two forms of one IPv4 address are equal. -/
def equal (ip x : IP) : Bool :=
  if ip.length = x.length then ip == x
  else if ip.length = 4 ∧ x.length = 16 then
    x.take 12 == v4InV6Prefix && ip == x.drop 12
  else if ip.length = 16 ∧ x.length = 4 then
    ip.take 12 == v4InV6Prefix && ip.drop 12 == x
  else false

/-- `IP.IsUnspecified`. -/
def isUnspecified (ip : IP) : Bool := equal ip ipv4zero || equal ip ipv6unspecified

/-- `IP.IsLoopback`. -/
def isLoopback (ip : IP) : Bool :=
  match to4 ip with
  | some ip4 => ip4.getD 0 0 == 127
  | none => equal ip ipv6loopback

/-- `IP.IsMulticast`. -/
def isMulticast (ip : IP) : Bool :=
  match to4 ip with
  | some ip4 => ip4.getD 0 0 &&& 0xf0 == 0xe0
  | none => ip.length == 16 && ip.getD 0 0 == 0xff

/-- `IP.IsLinkLocalMulticast`. -/
def isLinkLocalMulticast (ip : IP) : Bool :=
  match to4 ip with
  | some ip4 => ip4.getD 0 0 == 224 && ip4.getD 1 0 == 0 && ip4.getD 2 0 == 0
  | none => ip.length == 16 && ip.getD 0 0 == 0xff && ip.getD 1 0 &&& 0x0f == 0x02

/-- `IP.IsLinkLocalUnicast`. -/
def isLinkLocalUnicast (ip : IP) : Bool :=
  match to4 ip with
  | some ip4 => ip4.getD 0 0 == 169 && ip4.getD 1 0 == 254
  | none => ip.length == 16 && ip.getD 0 0 == 0xfe && ip.getD 1 0 &&& 0xc0 == 0x80

/-- `IP.IsGlobalUnicast`. -/
def isGlobalUnicast (ip : IP) : Bool :=
  (ip.length == 4 || ip.length == 16)
    && !equal ip ipv4bcast && !isUnspecified ip && !isLoopback ip
    && !isMulticast ip && !isLinkLocalUnicast ip

/-- `IP.String` of the four bytes of an IPv4 address: dotted decimal. -/
def string4 (ip4 : Bytes) : Text :=
  List.intercalate ['.']
    (ip4.map (fun b => Decimal.render (fun d => Char.ofNat (48 + d)) b.toNat))

/-- The four bytes an address has in a serialized header: `To4`, copied over
four zero bytes. -/
def wire (ip : IP) : Bytes := (to4 ip).getD [0, 0, 0, 0]

/-! ## The four bytes decide -/

theorem to4_of_length {ip : IP} (h : ip.length = 4) : to4 ip = some ip := by
  rw [to4, if_pos h]

theorem length_of_to4 {ip ip4 : IP} (h : to4 ip = some ip4) : ip4.length = 4 := by
  unfold to4 at h
  split at h
  · next hlen =>
    cases h
    exact hlen
  · split at h
    · next hlen =>
      cases h
      rw [List.length_drop, hlen.1]
    · cases h

/-- An IPv4 address is its four bytes, or these behind the prefix. -/
theorem to4_eq_some_iff {ip ip4 : IP} :
    to4 ip = some ip4
      ↔ ip4.length = 4 ∧ (ip = ip4 ∨ ip = v4InV6Prefix ++ ip4) := by
  constructor
  · intro h
    refine ⟨length_of_to4 h, ?_⟩
    unfold to4 at h
    split at h
    · cases h
      exact .inl rfl
    · split at h
      · next hlen =>
        cases h
        exact .inr (by rw [← hlen.2, List.take_append_drop])
      · cases h
  · rintro ⟨hlen, rfl | rfl⟩
    · exact to4_of_length hlen
    · have h16 : (v4InV6Prefix ++ ip4).length = 16 := by
        rw [List.length_append, hlen]
        rfl
      have htake : (v4InV6Prefix ++ ip4).take 12 = v4InV6Prefix :=
        List.take_left' rfl
      have hdrop : (v4InV6Prefix ++ ip4).drop 12 = ip4 := List.drop_left' rfl
      rw [to4, if_neg (by omega), if_pos ⟨h16, htake⟩, hdrop]

@[simp] theorem to4_to4 {ip ip4 : IP} (h : to4 ip = some ip4) : to4 ip4 = some ip4 :=
  to4_of_length (length_of_to4 h)

@[simp] theorem to4_ipv4 (a b c d : UInt8) : to4 (ipv4 a b c d) = some [a, b, c, d] :=
  to4_eq_some_iff.mpr ⟨rfl, .inr rfl⟩

/-- **Equality of IPv4 addresses is equality of the four bytes.** -/
theorem equal_iff_of_to4 {ip x ip4 x4 : IP} (h : to4 ip = some ip4)
    (hx : to4 x = some x4) : equal ip x = true ↔ ip4 = x4 := by
  obtain ⟨h4, rfl | rfl⟩ := to4_eq_some_iff.mp h
  all_goals obtain ⟨hx4, rfl | rfl⟩ := to4_eq_some_iff.mp hx
  all_goals
    simp [equal, v4InV6Prefix, h4, hx4]

/-- An IPv4 address equals no address that is not one. -/
theorem equal_eq_false_of_to4 {ip x ip4 : IP} (h : to4 ip = some ip4)
    (hx : to4 x = none) : equal ip x = false := by
  rw [Bool.eq_false_iff]
  intro heq
  have hne : x ≠ ip4 ∧ x ≠ v4InV6Prefix ++ ip4 := by
    constructor
    · rintro rfl
      rw [to4_to4 h] at hx
      cases hx
    · rintro rfl
      rw [to4_eq_some_iff.mpr ⟨length_of_to4 h, .inr rfl⟩] at hx
      cases hx
  obtain ⟨h4, hip⟩ := to4_eq_some_iff.mp h
  have h16 : (v4InV6Prefix ++ ip4).length = 16 := by
    rw [List.length_append, h4]
    rfl
  unfold equal at heq
  split at heq
  · rcases hip with rfl | rfl
    · exact hne.1 (beq_iff_eq.mp heq).symm
    · exact hne.2 (beq_iff_eq.mp heq).symm
  · split at heq
    · simp only [Bool.and_eq_true, beq_iff_eq] at heq
      refine hne.2 ?_
      rcases hip with rfl | rfl
      · rw [← heq.1, heq.2, List.take_append_drop]
      · omega
    · split at heq
      · simp only [Bool.and_eq_true, beq_iff_eq] at heq
        rcases hip with rfl | rfl
        · omega
        · exact hne.1 (heq.2.symm.trans (List.drop_left' rfl))
      · cases heq

@[simp] theorem to4_ipv6unspecified : to4 ipv6unspecified = none := by decide

/-- Which IPv4 addresses are unspecified: zero is. -/
theorem isUnspecified_iff_of_to4 {ip ip4 : IP} (h : to4 ip = some ip4) :
    isUnspecified ip = true ↔ ip4 = [0, 0, 0, 0] := by
  rw [isUnspecified, equal_eq_false_of_to4 h to4_ipv6unspecified, Bool.or_false]
  exact equal_iff_of_to4 h (to4_ipv4 0 0 0 0)

/-- On an IPv4 address, global unicast is a property of the four bytes. -/
theorem isGlobalUnicast_iff_of_to4 {ip ip4 : IP} (h : to4 ip = some ip4) :
    isGlobalUnicast ip = true
      ↔ ip4 ≠ [255, 255, 255, 255] ∧ ip4 ≠ [0, 0, 0, 0] ∧ ip4.getD 0 0 ≠ 127
        ∧ ip4.getD 0 0 &&& 0xf0 ≠ 0xe0
        ∧ ¬ (ip4.getD 0 0 = 169 ∧ ip4.getD 1 0 = 254) := by
  have hlen : ip.length = 4 ∨ ip.length = 16 := by
    obtain ⟨h4, rfl | rfl⟩ := to4_eq_some_iff.mp h
    · exact .inl h4
    · exact .inr (by rw [List.length_append, h4]; rfl)
  have hb : equal ip ipv4bcast = true ↔ ip4 = [255, 255, 255, 255] :=
    equal_iff_of_to4 h (to4_ipv4 255 255 255 255)
  have hu := isUnspecified_iff_of_to4 h
  simp only [isGlobalUnicast, isLoopback, isMulticast, isLinkLocalUnicast, h,
    Bool.and_eq_true, Bool.or_eq_true, Bool.not_eq_true', beq_iff_eq,
    ← Bool.not_eq_true, hb, hu, hlen, true_and, ne_eq]
  tauto

end IP

/-- `IsGlobalUnicastIPv4`: the single predicate for a usable giaddr. -/
def isGlobalUnicastIPv4 (ip : IP) : Bool := (IP.to4 ip).isSome && IP.isGlobalUnicast ip

/-- A global unicast IPv4 address has four bytes, and they decide. -/
theorem isGlobalUnicastIPv4_iff_to4 (ip : IP) :
    isGlobalUnicastIPv4 ip = true
      ↔ ∃ ip4, IP.to4 ip = some ip4 ∧ isGlobalUnicastIPv4 ip4 = true := by
  constructor
  · intro h
    rw [isGlobalUnicastIPv4, Bool.and_eq_true, Option.isSome_iff_exists] at h
    obtain ⟨⟨ip4, h4⟩, hg⟩ := h
    refine ⟨ip4, h4, ?_⟩
    rw [isGlobalUnicastIPv4, IP.to4_to4 h4, Option.isSome_some, Bool.true_and,
      IP.isGlobalUnicast_iff_of_to4 (IP.to4_to4 h4)]
    exact (IP.isGlobalUnicast_iff_of_to4 h4).mp hg
  · rintro ⟨ip4, h4, hg⟩
    rw [isGlobalUnicastIPv4, IP.to4_to4 h4, Option.isSome_some, Bool.true_and,
      IP.isGlobalUnicast_iff_of_to4 (IP.to4_to4 h4)] at hg
    rw [isGlobalUnicastIPv4, h4, Option.isSome_some, Bool.true_and,
      IP.isGlobalUnicast_iff_of_to4 h4]
    exact hg

/-- What a global unicast IPv4 address is not: unspecified, a loopback
address, or the limited broadcast address. -/
theorem not_special_of_isGlobalUnicastIPv4 {ip : IP}
    (h : isGlobalUnicastIPv4 ip = true) :
    IP.isUnspecified ip = false ∧ IP.isLoopback ip = false
      ∧ IP.equal ip IP.ipv4bcast = false := by
  rw [isGlobalUnicastIPv4, Bool.and_eq_true, IP.isGlobalUnicast] at h
  simp only [Bool.and_eq_true, Bool.not_eq_true'] at h
  exact ⟨h.2.1.1.1.2, h.2.1.1.2, h.2.1.1.1.1.2⟩

/-- **Which four bytes are global unicast**: none of the special ones. -/
theorem isGlobalUnicastIPv4_iff_of_length {ip4 : IP} (h : ip4.length = 4) :
    isGlobalUnicastIPv4 ip4 = true
      ↔ (IP.isUnspecified ip4 = false ∧ IP.isLoopback ip4 = false
          ∧ IP.equal ip4 IP.ipv4bcast = false)
        ∧ IP.isMulticast ip4 = false ∧ IP.isLinkLocalUnicast ip4 = false := by
  rw [isGlobalUnicastIPv4, IP.to4_of_length h, Option.isSome_some, Bool.true_and,
    IP.isGlobalUnicast]
  simp only [h, beq_self_eq_true, Bool.true_or, Bool.true_and, Bool.and_eq_true,
    Bool.not_eq_true']
  tauto

/-- A multicast or link-local address is not special in another way. -/
theorem not_special_of_multicast_or_linkLocal {ip4 : IP} (h4 : ip4.length = 4)
    (h : IP.isMulticast ip4 = true ∨ IP.isLinkLocalUnicast ip4 = true) :
    IP.isUnspecified ip4 = false ∧ IP.isLoopback ip4 = false
      ∧ IP.equal ip4 IP.ipv4bcast = false := by
  have hto := IP.to4_of_length h4
  -- the first byte decides
  have hfirst : ∀ b : UInt8, ip4.getD 0 0 = b → b &&& 0xf0 = 0xe0 ∨ b = 169 := by
    rintro _ rfl
    simp only [IP.isMulticast, IP.isLinkLocalUnicast, hto, Bool.and_eq_true, beq_iff_eq] at h
    exact h.imp id And.left
  refine ⟨?_, ?_, ?_⟩ <;> rw [Bool.eq_false_iff] <;> intro hs
  · rw [(IP.isUnspecified_iff_of_to4 hto).mp hs] at hfirst
    exact absurd (hfirst 0 rfl) (by decide)
  · rw [IP.isLoopback, hto] at hs
    exact absurd (hfirst 127 (beq_iff_eq.mp hs)) (by decide)
  · rw [(IP.equal_iff_of_to4 hto (IP.to4_ipv4 255 255 255 255)).mp hs] at hfirst
    exact absurd (hfirst 255 rfl) (by decide)

/-- On the wire a global unicast IPv4 address is not zero. -/
theorem wire_ne_zero_of_isGlobalUnicastIPv4 {ip : IP}
    (h : isGlobalUnicastIPv4 ip = true) : IP.wire ip ≠ [0, 0, 0, 0] := by
  obtain ⟨ip4, h4, -⟩ := (isGlobalUnicastIPv4_iff_to4 ip).mp h
  have hu := (not_special_of_isGlobalUnicastIPv4 h).1
  rw [IP.wire, h4, Option.getD_some]
  intro hz
  rw [(IP.isUnspecified_iff_of_to4 h4).mpr hz] at hu
  cases hu

example : isGlobalUnicastIPv4 [192, 168, 50, 1] = true := by decide

/-! ## Networks and hardware addresses -/

/-- A `net.IPNet`: an address with the mask of its network. -/
structure IPNet where
  ip : IP
  mask : Bytes
  deriving DecidableEq, Repr

/-- `networkNumberAndMask`: address and mask brought to one length, `none`
when they do not fit. -/
def IPNet.networkNumberAndMask (n : IPNet) : Option (Bytes × Bytes) :=
  let ip := (IP.to4 n.ip).getD n.ip
  if ip.length ≠ 4 ∧ ip.length ≠ 16 then none
  else if n.mask.length = 4 then
    if ip.length = 4 then some (ip, n.mask) else none
  else if n.mask.length = 16 then
    if ip.length = 4 then some (ip, n.mask.drop 12) else some (ip, n.mask)
  else none

/-- `IPNet.Contains`. -/
def IPNet.contains (n : IPNet) (ip : IP) : Bool :=
  let x := (IP.to4 ip).getD ip
  match n.networkNumberAndMask with
  | none => x.length == 0
  | some (nn, m) =>
    x.length == nn.length
      && List.zipWith (· &&& ·) nn m == List.zipWith (· &&& ·) x m

/-- A lower case hexadecimal digit. -/
def hexDigit (n : ℕ) : Char := "0123456789abcdef".toList.getD n '0'

/-- `HardwareAddr.String`: two hexadecimal digits per byte, separated by
colons. -/
def hardwareAddrString (hw : Bytes) : Text :=
  List.intercalate [':']
    (hw.map (fun b => [hexDigit (b.toNat / 16), hexDigit (b.toNat % 16)]))
