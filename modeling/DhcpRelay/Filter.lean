import DhcpRelay.Admission
import DhcpRelay.Bpf

/-!
# The kernel filter and the validator

A received frame passes two filters. The kernel runs a BPF program on it
(`pkg/bytecode`), which reads raw offsets, and `ValidateLayers` checks the
layers that the packet library has decoded. Both are given the MTU. The program
compares it with the length of the whole frame, and the validator with the
length of the DHCP message in it, which is at least 42 bytes less. So the kernel
drops frames that the validator would accept: any frame of more than `mtu` bytes,
which is every frame where the MTU is below 282, although `main` takes 244 for
the least MTU. `filter_passes_iff` says that these are all.

`FilterSpec` is what the program is for, in terms of the fields of a frame, and
`filter_computes_spec` says that this is what it computes.

The packet library is a parameter, of which `Decodes` says where in a frame it
reads what is validated.
-/

open Dhcp Bpf

/-! ## The program -/

/-- `EthernetFieldSizeEtherType`, in bits as all of these. -/
def ethernetFieldSizeEtherType : UInt32 := 16

/-- `EthernetHeaderSizeBits`: two addresses and the type. -/
def ethernetHeaderSizeBits : UInt32 := 48 + 48 + ethernetFieldSizeEtherType

/-- `EthernetFieldOffsetEtherType`. -/
def ethernetFieldOffsetEtherType : UInt32 := ethernetHeaderSizeBits - ethernetFieldSizeEtherType

/-- `IPv4FieldOffsetFlags`: after version, IHL, DSC, ECN, total length and
identification. -/
def ipv4FieldOffsetFlags : UInt32 := 4 + 4 + 6 + 2 + 16 + 16

/-- `IPv4FieldOffsetProtocol`: after flags, fragment offset and TTL. -/
def ipv4FieldOffsetProtocol : UInt32 := ipv4FieldOffsetFlags + 3 + 13 + 8

/-- `UDPFieldOffsetDestinationPort`, in bytes, without the IPv4 header. -/
def udpFieldOffsetDestinationPort : UInt32 := ethernetHeaderSizeBits / 8 + 16 / 8

/-- `IPv4FieldBitMaskIHL`. -/
def ipv4FieldBitMaskIHL : UInt32 := 0x0F

/-- `IPv4FieldIHLValueMinHeaderNoOptions`. -/
def ipv4FieldIHLValueMinHeaderNoOptions : UInt32 := 5

/-- `ETH_P_IP`. -/
def ethPIP : UInt32 := 0x0800

/-- `IPPROTO_UDP`. -/
def ipprotoUDP : UInt32 := 17

/-- **`GetBPFSockFilterForDHCPv4Messages`**. -/
def getBPFSockFilterForDHCPv4Messages (mtu : UInt32) : List SockFilter :=
  [ { code := bpfLD ||| bpfH ||| bpfABS, k := ethernetFieldOffsetEtherType / 8 },
    { code := bpfJMP ||| bpfJEQ ||| bpfK, jf := 15, k := ethPIP },
    { code := bpfLD ||| bpfB ||| bpfABS, k := ethernetHeaderSizeBits / 8 },
    { code := bpfALU ||| bpfAND ||| bpfK, k := ipv4FieldBitMaskIHL },
    { code := bpfJMP ||| bpfJGE ||| bpfK, jt := 0, jf := 12,
      k := ipv4FieldIHLValueMinHeaderNoOptions },
    { code := bpfJMP ||| bpfJGT ||| bpfK, jt := 11, k := ipv4FieldIHLValueMinHeaderNoOptions },
    { code := bpfLD ||| bpfB ||| bpfABS,
      k := (ethernetHeaderSizeBits + ipv4FieldOffsetProtocol) / 8 },
    { code := bpfJMP ||| bpfJEQ ||| bpfK, jf := 9, k := ipprotoUDP },
    { code := bpfLD ||| bpfH ||| bpfABS,
      k := (ethernetHeaderSizeBits + ipv4FieldOffsetFlags) / 8 },
    { code := bpfJMP ||| bpfJSET ||| bpfK, jt := 7, jf := 0, k := 0x3FFF },
    { code := bpfLDX ||| bpfB ||| bpfMSH, k := ethernetHeaderSizeBits / 8 },
    { code := bpfLD ||| bpfH ||| bpfIND, k := udpFieldOffsetDestinationPort },
    { code := bpfJMP ||| bpfJEQ ||| bpfK, jf := 4, k := serverPort.toUInt32 },
    { code := bpfLD ||| bpfW ||| bpfLEN },
    { code := bpfJMP ||| bpfJGE ||| bpfK, jf := 2, k := minMessageSize.toUInt32 },
    { code := bpfJMP ||| bpfJGT ||| bpfK, jt := 1, k := mtu },
    { code := bpfRET ||| bpfK, k := mtu },
    { code := bpfRET ||| bpfK, k := 0 } ]

/-- The program, instruction by instruction. -/
def filterInsns (mtu : UInt32) : List Insn :=
  [ .ldAbs 2 12, .jump .eq 0x0800 0 15, .ldAbs 1 14, .and 15, .jump .ge 5 0 12,
    .jump .gt 5 11 0, .ldAbs 1 23, .jump .eq 17 0 9, .ldAbs 2 20, .jump .set 0x3fff 7 0,
    .ldxMsh 14, .ldInd 2 16, .jump .eq 67 0 4, .ldLen, .jump .ge 244 0 2, .jump .gt mtu 1 0,
    .ret mtu, .ret 0 ]

theorem decode_filter (mtu : UInt32) :
    (getBPFSockFilterForDHCPv4Messages mtu).mapM SockFilter.decode = some (filterInsns mtu) := by
  simp +decide [getBPFSockFilterForDHCPv4Messages, filterInsns, SockFilter.decode,
    SockFilter.size, SockFilter.cond]

/-- Every jump of the program stays inside it. -/
theorem targetsInside_filter (mtu : UInt32) : TargetsInside (filterInsns mtu) := by
  simp [filterInsns, targetsInside_cons, targetsInside_nil, Insn.targets]

/-- The filter's result is the MTU or zero. -/
theorem eq_zero_or_mtu_of_filter {mtu v : UInt32} {frame : Bytes}
    (h : runFilter (getBPFSockFilterForDHCPv4Messages mtu) frame = some v) : v = 0 ∨ v = mtu := by
  rw [runFilter, decode_filter] at h
  rcases eq_zero_or_ret_of_run h with h0 | hret
  · exact .inl h0
  · have hv : v = mtu ∨ v = 0 := by simpa [filterInsns] using hret
    exact hv.symm

/-- **What the filter is for**: an unfragmented UDP datagram to port 67 over IPv4
without options, in a frame of 244 up to `mtu` bytes. -/
structure FilterSpec (mtu : UInt32) (frame : Bytes) : Prop where
  etherType : field frame 12 2 = 0x0800
  ihl : field frame 14 1 % 16 = 5
  protocol : field frame 23 1 = 17
  /-- The third of the flags is clear. -/
  moreFragments : field frame 20 2 / 2 ^ 13 % 2 = 0
  fragOffset : field frame 20 2 % 2 ^ 13 = 0
  /-- After an IPv4 header of as many words as the IHL says. -/
  dstPort : field frame (14 + 4 * (field frame 14 1 % 16) + 2) 2 = 67
  minMessageSize_le : 244 ≤ (packetLen frame).toNat
  le_mtu : (packetLen frame).toNat ≤ mtu.toNat

/-- The accumulator after masking the IHL. -/
theorem ofNat_and_nibble (frame : Bytes) :
    UInt32.ofNat (field frame 14 1) &&& 15 = UInt32.ofNat (field frame 14 1 % 16) :=
  ofNat_and_mask (j := 4) (field_lt_register frame 14 (by norm_num)) (by norm_num)

/-- **A frame with what the filter looks for is kept.** -/
theorem runFilter_of_spec {mtu : UInt32} {frame : Bytes} (h : FilterSpec mtu frame) :
    runFilter (getBPFSockFilterForDHCPv4Messages mtu) frame = some mtu := by
  have hmin : 244 ≤ frame.length := le_trans h.minMessageSize_le (packetLen_le_length frame)
  have hnibble : UInt32.ofNat (field frame 14 1) &&& 15 = 5 := by
    rw [ofNat_and_nibble, h.ihl]
    rfl
  have hflags : Cond.set.holds (UInt32.ofNat (field frame 20 2)) 0x3fff = false := by
    refine (not_holds_set_iff (j := 14) (field_lt_register frame 20 (by norm_num))
      (by norm_num)).mpr ?_
    have hmore := h.moreFragments
    have hoff := h.fragOffset
    omega
  have hport : field frame 36 2 = 67 := by
    have hread := h.dstPort
    rwa [h.ihl] at hread
  rw [runFilter, decode_filter, Option.bind_some, filterInsns]
  -- The EtherType, and the length of the IPv4 header.
  rw [run_ldAbs 12 rfl (by omega), h.etherType, run_jump_of_holds (by decide),
    run_ldAbs 14 rfl (by omega), run_and, hnibble, run_jump_of_holds (by decide),
    run_jump_of_not_holds (by decide)]
  -- The protocol, and that this is no fragment.
  rw [run_ldAbs 23 rfl (by omega), h.protocol, run_jump_of_holds (by decide),
    run_ldAbs 20 rfl (by omega), run_jump_of_not_holds hflags]
  -- The port, after an IPv4 header of twenty bytes.
  rw [run_ldxMsh 14 rfl (by omega), hnibble, run_ldInd 36 rfl (by omega), hport,
    run_jump_of_holds (by decide)]
  -- The length of the frame.
  have hge : Cond.ge.holds (packetLen frame) 244 = true := holds_ge_iff.mpr h.minMessageSize_le
  rw [run_ldLen, run_jump_of_holds hge, run_jump_of_not_holds (not_holds_gt_iff.mpr h.le_mtu)]
  rfl

/-- **A frame that is kept has what the filter looks for.** The run is followed
backwards, from one test that did not drop the frame to the next. -/
theorem spec_of_runFilter {mtu v : UInt32} {frame : Bytes} (hv : v ≠ 0)
    (h : runFilter (getBPFSockFilterForDHCPv4Messages mtu) frame = some v) :
    FilterSpec mtu frame := by
  have hreg : ∀ k {n}, n ≤ 4 → field frame k n < 2 ^ 32 := fun k _ hn =>
    field_lt_register frame k hn
  rw [runFilter, decode_filter, Option.bind_some, filterInsns] at h
  -- The EtherType, and the length of the IPv4 header.
  obtain ⟨hether, h⟩ := holds_of_run_jump hv rfl (ldAbs_of_run hv 12 rfl h)
  have h := ldAbs_of_run hv 14 rfl h
  rw [run_and, ofNat_and_nibble] at h
  obtain ⟨hge, h⟩ := holds_of_run_jump hv rfl h
  obtain ⟨hgt, h⟩ := not_holds_of_run_jump hv rfl h
  have hihl : field frame 14 1 % 16 = 5 := by
    have hnibble : field frame 14 1 % 16 < 2 ^ 32 := by omega
    have hlow := holds_ge_iff.mp hge
    have hhigh := not_holds_gt_iff.mp hgt
    rw [UInt32.toNat_ofNat_of_lt' hnibble] at hlow hhigh
    exact le_antisymm hhigh hlow
  -- The protocol, and that this is no fragment.
  obtain ⟨hproto, h⟩ := holds_of_run_jump hv rfl (ldAbs_of_run hv 23 rfl h)
  obtain ⟨hflags, h⟩ := not_holds_of_run_jump hv rfl (ldAbs_of_run hv 20 rfl h)
  have hbits := (not_holds_set_iff (j := 14) (hreg 20 (by norm_num)) (by norm_num)).mp hflags
  -- The port, after an IPv4 header of twenty bytes.
  have h := ldxMsh_of_run hv 14 rfl h
  rw [ofNat_and_nibble, hihl] at h
  obtain ⟨hport, h⟩ := holds_of_run_jump hv rfl (ldInd_of_run hv 36 rfl h)
  -- The length of the frame.
  rw [run_ldLen] at h
  obtain ⟨hmin, h⟩ := holds_of_run_jump hv rfl h
  obtain ⟨hmax, -⟩ := not_holds_of_run_jump hv rfl h
  exact
    { etherType := (holds_eq_iff (hreg 12 (by norm_num))).mp hether
      ihl := hihl
      protocol := (holds_eq_iff (hreg 23 (by norm_num))).mp hproto
      moreFragments := by omega
      fragOffset := by omega
      dstPort := by
        rw [hihl]
        exact (holds_eq_iff (hreg 36 (by norm_num))).mp hport
      minMessageSize_le := holds_ge_iff.mp hmin
      le_mtu := not_holds_gt_iff.mp hmax }

/-- **The program computes its specification**: on every frame it ends, with the
MTU if the frame has what the filter looks for and with zero if not. Its
instructions only go on to its instructions, and a frame that is kept was read
inside only. The length of a frame counts in 32 bits, as the kernel keeps it, and
is the length for every frame of less than 4 GiB. -/
theorem filter_computes_spec (mtu : UInt32) (frame : Bytes) :
    (FilterSpec mtu frame →
      runFilter (getBPFSockFilterForDHCPv4Messages mtu) frame = some mtu) ∧
    (¬ FilterSpec mtu frame →
      runFilter (getBPFSockFilterForDHCPv4Messages mtu) frame = some 0) ∧
    (∃ is, (getBPFSockFilterForDHCPv4Messages mtu).mapM SockFilter.decode = some is ∧
      TargetsInside is ∧
      (FilterSpec mtu frame → ∀ l ∈ loads frame is 0 0 0, l.1 + l.2 ≤ frame.length)) ∧
    (frame.length < 2 ^ 32 → (packetLen frame).toNat = frame.length) := by
  refine ⟨runFilter_of_spec, ?_,
    ⟨filterInsns mtu, decode_filter mtu, targetsInside_filter mtu, ?_⟩, toNat_packetLen⟩
  · intro hno
    have hfirst : 0 < (filterInsns mtu).length := Nat.succ_pos _
    obtain ⟨v, hrun⟩ :=
      exists_run_eq_some (p := frame) (targetsInside_filter mtu) hfirst 0 0
    have hfilter : runFilter (getBPFSockFilterForDHCPv4Messages mtu) frame = some v := by
      rw [runFilter, decode_filter]
      exact hrun
    by_cases hv : v = 0
    · rw [hfilter, hv]
    · exact absurd (spec_of_runFilter hv hfilter) hno
  · intro hspec
    have hmtu : mtu ≠ 0 := by
      rintro rfl
      exact absurd (hspec.minMessageSize_le.trans hspec.le_mtu) (by decide)
    have hrun := runFilter_of_spec hspec
    rw [runFilter, decode_filter] at hrun
    exact loads_inside hmtu hrun

/-! ## What the packet library reads -/

/-- **Where in a frame a decoded packet comes from**, as far as both filters look
at it: an Ethernet header of 14 bytes, an IPv4 header of `ihl` words, a UDP header
of 8 bytes and at least the fixed part of a DHCP message, in the layouts of these
protocols. -/
structure Packet.DecodedFrom (frame : Bytes) (p : Packet) : Prop where
  /-- No header is shorter than this. -/
  length_ge : 14 + 20 + 8 + 240 ≤ frame.length
  etherType : field frame 12 2 = 0x0800
  ihl : p.ipv4.ihl.toNat = field frame 14 1 % 16
  /-- An IPv4 header of less than five words is an error. -/
  ihl_ge : 5 ≤ p.ipv4.ihl.toNat
  /-- The third of the flags. -/
  moreFragments : p.ipv4.moreFragments = decide (field frame 20 2 / 2 ^ 13 % 2 = 1)
  fragOffset : p.ipv4.fragOffset.toNat = field frame 20 2 % 2 ^ 13
  protocol : field frame 23 1 = 17
  dstPort : p.udp.dstPort.toNat = field frame (14 + 4 * p.ipv4.ihl.toNat + 2) 2

/-- What is assumed of the packet library. -/
def Decodes (decode : Bytes → Decoding) : Prop :=
  ∀ frame p, decode frame = .complete p → p.DecodedFrom frame

/-- A check that is passed, in a chain of checks. -/
theorem passed_of_ite_eq_none {c : Prop} [Decidable c] {e : String} {rest : Option String}
    (h : (if c then some e else rest) = none) : ¬ c ∧ rest = none := by
  split at h
  · cases h
  · next hc => exact ⟨hc, h⟩

/-- **The checks that both filters make**, of a valid packet. -/
theorem checks_of_validateLayers {lib : GoLib} {opts : ValidateOptions} {p : Packet}
    (h : validateLayers lib opts p = none) :
    p.ipv4.moreFragments = false ∧ p.ipv4.fragOffset = 0 ∧ p.ipv4.ihl.toNat ≤ 5
      ∧ p.udp.dstPort = serverPort := by
  unfold validateLayers at h
  obtain ⟨-, h⟩ := passed_of_ite_eq_none h
  obtain ⟨hfrag, h⟩ := passed_of_ite_eq_none h
  obtain ⟨hihl, h⟩ := passed_of_ite_eq_none h
  -- The source and the destination come next, which the filter does not look at.
  obtain ⟨-, h⟩ := passed_of_ite_eq_none h
  obtain ⟨-, h⟩ := passed_of_ite_eq_none h
  obtain ⟨-, h⟩ := passed_of_ite_eq_none h
  obtain ⟨-, h⟩ := passed_of_ite_eq_none h
  obtain ⟨hport, -⟩ := passed_of_ite_eq_none h
  rw [not_or] at hfrag
  exact ⟨Bool.eq_false_iff.mpr hfrag.1, UInt16.le_zero_iff.mp (UInt16.not_lt.mp hfrag.2),
    UInt8.le_iff_toNat_le.mp (UInt8.not_lt.mp hihl), not_not.mp hport⟩

/-- **The kernel filter against the validator**: a frame that decodes to a valid
packet passes the filter, and whole, exactly if all of it and not only the message
fits into the MTU. -/
theorem filter_passes_iff (lib : GoLib) (decode : Bytes → Decoding) (hdecode : Decodes decode)
    (opts : ValidateOptions) (frame : Bytes) (p : Packet) (hp : decode frame = .complete p)
    (hv : validateLayers lib opts p = none) :
    (∃ n, runFilter (getBPFSockFilterForDHCPv4Messages opts.mtu.toUInt32) frame = some n
        ∧ n ≠ 0 ∧ frame.length ≤ n.toNat)
      ↔ frame.length ≤ opts.mtu.toNat := by
  have hd := hdecode frame p hp
  obtain ⟨hmf, hoff, hihl, hport⟩ := checks_of_validateLayers hv
  have hfive : p.ipv4.ihl.toNat = 5 := le_antisymm hihl hd.ihl_ge
  constructor
  · rintro ⟨n, hrun, hn, hle⟩
    rcases eq_zero_or_mtu_of_filter hrun with h0 | hm
    · exact absurd h0 hn
    · rw [hm, UInt16.toNat_toUInt32] at hle
      exact hle
  · intro hle
    have hge := hd.length_ge
    have hmtu : frame.length ≤ opts.mtu.toUInt32.toNat := by
      rw [UInt16.toNat_toUInt32]
      exact hle
    have hlen : (packetLen frame).toNat = frame.length :=
      toNat_packetLen (lt_of_le_of_lt hmtu (UInt32.toNat_lt _))
    have hspec : FilterSpec opts.mtu.toUInt32 frame :=
      { etherType := hd.etherType
        ihl := by rw [← hd.ihl, hfive]
        protocol := hd.protocol
        moreFragments := by
          have hmore := hd.moreFragments
          rw [hmf, eq_comm, decide_eq_false_iff_not] at hmore
          omega
        fragOffset := by
          rw [← hd.fragOffset, hoff]
          rfl
        dstPort := by
          rw [← hd.ihl, ← hd.dstPort, hport]
          rfl
        minMessageSize_le := by omega
        le_mtu := by omega }
    refine ⟨opts.mtu.toUInt32, runFilter_of_spec hspec, ?_, hmtu⟩
    intro h0
    rw [h0] at hmtu
    change _ ≤ 0 at hmtu
    omega

/-- The headers of a DISCOVER with `pad` bytes of padding. -/
def discoverHeaders (pad : ℕ) : Bytes :=
  [ -- Ethernet, from the client to everyone.
    255, 255, 255, 255, 255, 255, 2, 0, 0, 0, 0, 1, 0x08, 0x00,
    -- IPv4. The identification makes the checksum zero.
    0x45, 0, UInt8.ofNat ((272 + pad) / 256), UInt8.ofNat (272 + pad),
    UInt8.ofNat ((0x79de - pad) / 256), UInt8.ofNat (0x79de - pad), 0, 0, 64, 17, 0, 0,
    0, 0, 0, 0, 255, 255, 255, 255,
    -- UDP, without a checksum.
    0, 68, 0, 67, UInt8.ofNat ((252 + pad) / 256), UInt8.ofNat (252 + pad), 0, 0 ]

/-- A DISCOVER on the wire, with `pad` bytes of padding after the End option. -/
def discoverFrame (pad : ℕ) : Bytes :=
  discoverHeaders pad
    ++ ([1, 1, 6, 0, 0, 0, 0, 1] ++ List.replicate 20 0 ++ [2, 0, 0, 0, 0, 1]
      ++ List.replicate 202 0 ++ [0x63, 0x82, 0x53, 0x63] ++ [53, 1, 1, 255]
      ++ List.replicate pad 0)

/-- What it decodes to: nothing of the padding is left. -/
def framedDiscover : Packet where
  ipv4 := ⟨false, 0, 5, [0, 0, 0, 0], [255, 255, 255, 255], ⟨true, 0, 0⟩⟩
  udp := ⟨67, none, ⟨true, 0, 0⟩⟩
  dhcp :=
    { operation := opRequest
      hardwareType := 1
      hardwareLen := 6
      xid := 1
      clientIP := [0, 0, 0, 0]
      yourClientIP := [0, 0, 0, 0]
      nextServerIP := [0, 0, 0, 0]
      relayAgentIP := [0, 0, 0, 0]
      clientHWAddr := [2, 0, 0, 0, 0, 1]
      serverName := List.replicate 64 0
      file := List.replicate 128 0
      options := [newDHCPOption optMessageType [1]] }
  decoded :=
    { length_data := by decide
      end_last := by decide
      length_clientIP := rfl
      length_yourClientIP := rfl
      length_relayAgentIP := rfl
      length_clientHWAddr := rfl }

/-- A packet library as far as this frame goes. -/
def readsDiscover (pad : ℕ) (frame : Bytes) : Decoding :=
  if frame = discoverFrame pad then .complete framedDiscover else .incomplete

theorem length_discoverFrame (pad : ℕ) : (discoverFrame pad).length = 286 + pad := by
  simp only [discoverFrame, discoverHeaders, List.length_append, List.length_cons,
    List.length_nil, List.length_replicate]
  omega

theorem field_discoverFrame (pad k n : ℕ) (h : k + n ≤ 42) :
    field (discoverFrame pad) k n = field (discoverHeaders pad) k n :=
  field_append_left h

theorem decodedFrom_discoverFrame (pad : ℕ) : framedDiscover.DecodedFrom (discoverFrame pad) where
  length_ge := by
    rw [length_discoverFrame]
    omega
  etherType := field_discoverFrame pad 12 2 (by decide)
  ihl := by
    rw [field_discoverFrame pad 14 1 (by decide), show field _ 14 1 = 0x45 from rfl]
    rfl
  ihl_ge := by decide
  moreFragments := by
    rw [field_discoverFrame pad 20 2 (by decide), show field _ 20 2 = 0 from rfl]
    rfl
  fragOffset := by
    rw [field_discoverFrame pad 20 2 (by decide), show field _ 20 2 = 0 from rfl]
    rfl
  protocol := field_discoverFrame pad 23 1 (by decide)
  dstPort := (field_discoverFrame pad 36 2 (by decide)).symm

theorem decodes_readsDiscover (pad : ℕ) : Decodes (readsDiscover pad) := by
  intro frame p h
  unfold readsDiscover at h
  split at h
  · next hf =>
    cases h
    rw [hf]
    exact decodedFrom_discoverFrame pad
  · cases h

/-- The DISCOVER without padding passes. -/
theorem filter_passes_iff_discover :
    ∃ n, runFilter (getBPFSockFilterForDHCPv4Messages (1500 : UInt16).toUInt32)
        (discoverFrame 0) = some n ∧ n ≠ 0 ∧ (discoverFrame 0).length ≤ n.toNat :=
  (filter_passes_iff .literal (readsDiscover 0) (decodes_readsDiscover 0) ⟨1500, true⟩
    (discoverFrame 0) framedDiscover (if_pos rfl) (by decide)).mpr
    (by rw [length_discoverFrame]; decide)

/-- **In a full Ethernet frame it does not**, under the default MTU: the packet is
valid, and the kernel drops it. -/
theorem filter_drops_full_frame :
    Decodes (readsDiscover 1228)
      ∧ readsDiscover 1228 (discoverFrame 1228) = .complete framedDiscover
      ∧ validateLayers .literal ⟨1500, true⟩ framedDiscover = none
      ∧ (discoverFrame 1228).length = 1514
      ∧ runFilter (getBPFSockFilterForDHCPv4Messages (1500 : UInt16).toUInt32)
          (discoverFrame 1228) = some 0 := by
  refine ⟨decodes_readsDiscover 1228, if_pos rfl, by decide, length_discoverFrame 1228, ?_⟩
  decide +kernel
