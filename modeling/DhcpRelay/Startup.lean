import DhcpRelay.Filter

/-!
# From the command line to the first packet

What `main` does before its loop and at the head of it (`main.go`): the flags are checked,
and then narrowed to the types of the packages they are handed to, the number of a hop
count to a byte, the MTU to sixteen bits for the validator, to thirty-two for the kernel
filter and to an `int` for the buffer that frames are received in.

`HandleOptions` carries what the handlers rely on, and `CheckedFlags.settings` is where it
comes from: the checks of `checkFlags` are what builds it. `started_receives` says that
the narrowing loses nothing, and what the loop gets to see of the wire with the filter and
the buffer that it has set up: a frame is handed to `handlePacket` whole or not at all, and
it is one that the filter is for.
-/

open Dhcp CfgMatch Bpf

/-- The flags that the handling of packets depends on, with their defaults. -/
structure Flags where
  dhcpServerAddress : Text := []
  giaddr : Text := []
  replyTTL : UInt64 := 1
  mtu : UInt64 := 1500
  verifyChecksums : Bool := false
  broadcastReplyL2Unicast : Bool := false
  maxHandlers : UInt64 := 65535
  maxHops : UInt64 := 16

/-- A number among the flags is out of the range that `main` asks for. -/
def OutOfRange (lo hi x : UInt64) : Prop := x < lo ∨ x > hi

instance (lo hi x : UInt64) : Decidable (OutOfRange lo hi x) := inferInstanceAs (Decidable (_ ∨ _))

/-- The message about it. -/
def rangeError (name : String) (lo hi : UInt64) : String :=
  name ++ " must be in range of " ++ toString lo ++ "..." ++ toString hi ++ ".\n"

/-- `net.ParseIP(flagGiaddr).To4()`, nil if it is no IPv4 address. -/
def parseGiaddr (parseIP : Text → Option IP) (flag : Text) : IP :=
  ((parseIP flag).bind IP.to4).getD []

/-- **Flags that `main` has checked**, with the override for giaddr that it has parsed. -/
structure CheckedFlags extends Flags where
  override : IP
  server_ne_nil : dhcpServerAddress ≠ []
  replyTTL_range : ¬ OutOfRange 1 255 replyTTL
  mtu_range : ¬ OutOfRange 244 65535 mtu
  maxHandlers_range : ¬ OutOfRange 1 2147483647 maxHandlers
  maxHops_range : ¬ OutOfRange 1 255 maxHops
  override_ok : override = [] ∨ override.length = 4 ∧ isGlobalUnicastIPv4 override = true

theorem noOverride_ok : ([] : IP) = [] ∨ ([] : IP).length = 4 ∧ isGlobalUnicastIPv4 [] = true :=
  .inl rfl

theorem length_parseGiaddr {parseIP : Text → Option IP} {flag : Text}
    (h : isGlobalUnicastIPv4 (parseGiaddr parseIP flag) = true) :
    (parseGiaddr parseIP flag).length = 4 := by
  unfold parseGiaddr at h ⊢
  cases h4 : (parseIP flag).bind IP.to4 with
  | none =>
    rw [h4] at h
    cases h
  | some ip4 =>
    obtain ⟨ip, -, hip⟩ := Option.bind_eq_some_iff.mp h4
    exact IP.length_of_to4 hip

/-- **The checks of `main`**, each of them fatal, given `net.ParseIP`. -/
def checkFlags (lib : GoLib) (parseIP : Text → Option IP) (flags : Flags) :
    Except String CheckedFlags :=
  if hserver : flags.dhcpServerAddress = [] then
    .error "Upstream DHCPv4 server value must be specified.\n"
  else if hTTL : OutOfRange 1 255 flags.replyTTL then .error (rangeError "Reply TTL" 1 255)
  else if hMTU : OutOfRange 244 65535 flags.mtu then .error (rangeError "MTU" 244 65535)
  else if hhandlers : OutOfRange 1 2147483647 flags.maxHandlers then
    .error (rangeError "Max handlers" 1 2147483647)
  else if hhops : OutOfRange 1 255 flags.maxHops then .error (rangeError "Max hops" 1 255)
  else if flags.giaddr = [] then
    .ok ⟨flags, [], hserver, hTTL, hMTU, hhandlers, hhops, noOverride_ok⟩
  else if hg : isGlobalUnicastIPv4 (parseGiaddr parseIP flags.giaddr) = true then
    .ok ⟨flags, parseGiaddr parseIP flags.giaddr, hserver, hTTL, hMTU, hhandlers, hhops,
      .inr ⟨length_parseGiaddr hg, hg⟩⟩
  else
    .error ("giaddr must be a global unicast IPv4 address, got " ++ lib.quote flags.giaddr ++ ".\n")

/-- What is accepted is what was given. -/
theorem toFlags_of_checkFlags {lib : GoLib} {parseIP : Text → Option IP} {flags : Flags}
    {c : CheckedFlags} (h : checkFlags lib parseIP flags = .ok c) : c.toFlags = flags := by
  unfold checkFlags at h
  split_ifs at h
  · cases h
    rfl
  · cases h
    rfl

/-! ## The settings of the loop -/

/-- A link map's lookup, which gives networks of four bytes. -/
abbrev Links := { f : Text → Text → Option IP //
  ∀ name mac subnet, f name mac = some subnet → subnet.length = 4 }

/-- What `main` has set up when it enters the loop. -/
structure Settings where
  cfg : HandleOptions
  opts : ValidateOptions
  /-- The filter on the receiving socket. -/
  filter : List SockFilter
  /-- The length of the buffer that a frame is received in. -/
  bufLen : ℕ
  /-- The capacity of `handlersSem`. -/
  handlers : ℕ

theorem toNat_of_range {lo hi x : UInt64} (h : ¬ OutOfRange lo hi x) :
    lo.toNat ≤ x.toNat ∧ x.toNat ≤ hi.toNat := by
  obtain ⟨hlo, hhi⟩ := not_or.mp h
  exact ⟨UInt64.le_iff_toNat_le.mp (UInt64.not_lt.mp hlo),
    UInt64.le_iff_toNat_le.mp (UInt64.not_lt.mp hhi)⟩

/-- A number of one byte is what it was. -/
theorem toNat_toUInt8_of_range {lo x : UInt64} (h : ¬ OutOfRange lo 255 x) :
    x.toUInt8.toNat = x.toNat := by
  rw [UInt64.toNat_toUInt8]
  exact Nat.mod_eq_of_lt (Nat.lt_succ_of_le (toNat_of_range h).2)

/-- **What `main` sets up** from flags that it has checked, and the link map it has loaded if
there is one. -/
def CheckedFlags.settings (c : CheckedFlags) (links : Option Links) : Settings where
  cfg :=
    { linkMap := links.map Subtype.val
      linkMap_length := by
        intro f hf
        obtain ⟨g, -, rfl⟩ := Option.map_eq_some_iff.mp hf
        exact g.property
      dhcpServerAddress := c.dhcpServerAddress
      giaddr := c.override
      giaddr_ok := c.override_ok
      maxHops := c.maxHops.toUInt8
      maxHops_pos := by
        rw [UInt8.le_iff_toNat_le, toNat_toUInt8_of_range c.maxHops_range]
        exact (toNat_of_range c.maxHops_range).1
      broadcastReplyL2Unicast := c.broadcastReplyL2Unicast
      replyTTL := c.replyTTL.toUInt8 }
  opts := ⟨c.mtu.toUInt16, c.verifyChecksums⟩
  filter := getBPFSockFilterForDHCPv4Messages c.mtu.toUInt32
  bufLen := c.mtu.toNat
  handlers := c.maxHandlers.toNat

/-- **What `Receive` returns for a frame on the wire**, if the kernel keeps it: as much of it
as the filter says, and as fits into the buffer. -/
def Settings.receive (s : Settings) (frame : Bytes) : Option Bytes :=
  (runFilter s.filter frame).bind (fun n =>
    if n = 0 then none else some ((frame.take n.toNat).take s.bufLen))

/-- **The settings mean what the flags say.** -/
structure Settings.Of (s : Settings) (flags : Flags) : Prop where
  dhcpServerAddress : s.cfg.dhcpServerAddress = flags.dhcpServerAddress
  maxHops : s.cfg.maxHops.toNat = flags.maxHops.toNat
  replyTTL : s.cfg.replyTTL.toNat = flags.replyTTL.toNat
  mtu : s.opts.mtu.toNat = flags.mtu.toNat
  bufLen : s.bufLen = flags.mtu.toNat
  handlers : s.handlers = flags.maxHandlers.toNat

theorem settings_of (c : CheckedFlags) (links : Option Links) :
    (c.settings links).Of c.toFlags where
  dhcpServerAddress := rfl
  maxHops := toNat_toUInt8_of_range c.maxHops_range
  replyTTL := toNat_toUInt8_of_range c.replyTTL_range
  mtu := by
    show c.mtu.toUInt16.toNat = c.mtu.toNat
    rw [UInt64.toNat_toUInt16]
    exact Nat.mod_eq_of_lt (Nat.lt_succ_of_le (toNat_of_range c.mtu_range).2)
  bufLen := rfl
  handlers := rfl

theorem toNat_toUInt32_mtu (c : CheckedFlags) : c.mtu.toUInt32.toNat = c.mtu.toNat := by
  have hmax : c.mtu.toNat ≤ 65535 := (toNat_of_range c.mtu_range).2
  rw [UInt64.toNat_toUInt32]
  exact Nat.mod_eq_of_lt (Nat.lt_of_le_of_lt hmax (by decide))

/-- **The loop gets to see all or nothing of a frame**: the filter keeps no more than the
buffer has room for. -/
theorem receive_eq_some_iff (c : CheckedFlags) (links : Option Links) {frame data : Bytes}
    (hlen : frame.length < 2 ^ 32) :
    (c.settings links).receive frame = some data
      ↔ FilterSpec c.mtu.toUInt32 frame ∧ data = frame := by
  have hmtu := toNat_toUInt32_mtu c
  have hwhole : FilterSpec c.mtu.toUInt32 frame →
      (frame.take c.mtu.toUInt32.toNat).take c.mtu.toNat = frame := by
    intro hspec
    have hle := hspec.le_mtu
    rw [toNat_packetLen hlen] at hle
    rw [List.take_of_length_le hle, List.take_of_length_le (hmtu ▸ hle)]
  have hdef : (c.settings links).receive frame
      = (runFilter (getBPFSockFilterForDHCPv4Messages c.mtu.toUInt32) frame).bind (fun n =>
          if n = 0 then none else some ((frame.take n.toNat).take c.mtu.toNat)) := rfl
  rw [hdef]
  constructor
  · intro hr
    obtain ⟨n, hrun, hn⟩ := Option.bind_eq_some_iff.mp hr
    by_cases hzero : n = 0
    · rw [if_pos hzero] at hn
      cases hn
    · have hspec := spec_of_runFilter hzero hrun
      cases Option.some.inj ((runFilter_of_spec hspec).symm.trans hrun)
      rw [if_neg hzero, hwhole hspec] at hn
      exact ⟨hspec, (Option.some.inj hn).symm⟩
  · rintro ⟨hspec, rfl⟩
    have hne : c.mtu.toUInt32 ≠ 0 := by
      intro hzero
      have hmin : 244 ≤ c.mtu.toNat := (toNat_of_range c.mtu_range).1
      rw [← hmtu, hzero] at hmin
      exact absurd hmin (by decide)
    rw [runFilter_of_spec hspec, Option.bind_some, if_neg hne, hwhole hspec]
