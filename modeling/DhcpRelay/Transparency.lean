import DhcpRelay.Denial
import DhcpRelay.Stamp

/-!
# What a relay leaves alone

A relay owns hops, giaddr and Option 82 of a message, and nothing else of it.
The four ways a message leaves the relay all change the one message in place,
and here is what each of them leaves: `FirstHop` for a client's own request,
`Passed` for a relayed request or reply, `Delivered` for a reply to a client.
The options that go out are the received ones that a receiver cannot read in
two ways: those whose type occurs once.

`handle_transparent` puts it together for every packet that is handled.
`judged_is_sent` is what it is good for. The policy judged the client
identifier of the filtered message, and the server receives that identifier
and no other, however it combines the occurrences of Option 61.
-/

open Dhcp MacPolicy Relay

/-! ## The options that pass -/

/-- **The options a relay passes on**: those before the first End that are no
Pad and whose type occurs exactly once there, in their order. -/
def passable (options : List DHCPOption) : List DHCPOption :=
  let before := options.takeWhile (fun o => o.type ≠ optEnd)
  before.filter (fun o =>
    o.type ≠ optPad ∧ before.countP (fun x => x.type = o.type) = 1)

/-- The options of a message that carry a value: End carries none. -/
def valued (m : DHCPv4) : List DHCPOption := m.options.filter (fun o => o.type ≠ optEnd)

/-- Nothing follows the End of a decoded message. -/
theorem DHCPv4.Decoded.options_eq {m : DHCPv4} (h : m.Decoded) :
    ∃ rest, m.options = m.options.takeWhile (fun o => o.type ≠ optEnd) ++ rest
      ∧ ∀ o ∈ rest, o.type = optEnd := by
  refine ⟨m.options.dropWhile (fun o => o.type ≠ optEnd),
    List.takeWhile_append_dropWhile.symm, ?_⟩
  cases hd : m.options.dropWhile (fun o => o.type ≠ optEnd) with
  | nil => exact fun o ho => absurd ho List.not_mem_nil
  | cons e rest =>
    have he : e.type = optEnd := by
      have := List.head?_dropWhile_not (fun o : DHCPOption => decide (o.type ≠ optEnd))
        m.options
      rw [hd] at this
      simpa using this
    cases rest with
    | nil =>
      intro o ho
      rw [List.mem_singleton.mp ho, he]
    | cons x rest =>
      -- with something behind it, the End would not be last
      refine absurd he (h.end_last e ?_)
      rw [← List.takeWhile_append_dropWhile (p := fun o => decide (o.type ≠ optEnd))
        (l := m.options), hd, List.dropLast_append_of_ne_nil (List.cons_ne_nil _ _)]
      exact List.mem_append_right _ (by simp [List.dropLast])

/-- The options of a decoded message before its End are those that carry a
value. -/
theorem DHCPv4.Decoded.valued_eq {m : DHCPv4} (h : m.Decoded) :
    valued m = m.options.takeWhile (fun o => o.type ≠ optEnd) := by
  obtain ⟨rest, hsplit, hrest⟩ := h.options_eq
  have hbefore : ∀ o ∈ m.options.takeWhile (fun o => o.type ≠ optEnd),
      decide (o.type ≠ optEnd) = true := fun o ho =>
    List.mem_takeWhile_imp (p := fun o : DHCPOption => decide (o.type ≠ optEnd)) ho
  have hend : rest.filter (fun o => o.type ≠ optEnd) = [] :=
    List.filter_eq_nil_iff.mpr (fun o ho => by simp [hrest o ho])
  rw [valued]
  conv_lhs => rw [hsplit]
  rw [List.filter_append, hend, List.append_nil]
  exact List.filter_eq_self.mpr hbefore

/-- The options of a type are among those that carry a value. -/
theorem filter_valued {t : UInt8} (ht : t ≠ optEnd) (m : DHCPv4) :
    (valued m).filter (fun x => x.type = t) = m.options.filter (fun x => x.type = t) := by
  rw [valued, List.filter_filter]
  refine List.filter_congr (fun x _ => ?_)
  by_cases hx : x.type = t
  · simp [hx, ht]
  · simp [hx]

/-- **What the split option filter passes on.** -/
theorem Packet.valued_filtered (p : Packet) :
    valued p.filtered = passable p.dhcp.options := by
  have hfilt : p.filtered.options
      = (valued p.dhcp).filter (fun o => Solitary p.dhcp.options o)
        ++ (p.dhcp.options.find? (fun o => o.type = optEnd)).toList := by
    rw [p.decoded.valued_eq]
    exact deleteSplitOptions_eq p.dhcp.options
  have hend : ((p.dhcp.options.find? (fun o => o.type = optEnd)).toList).filter
      (fun o => o.type ≠ optEnd) = [] := by
    refine List.filter_eq_nil_iff.mpr (fun o ho => ?_)
    have := List.find?_some (Option.mem_toList.mp ho)
    simpa using this
  rw [passable, ← p.decoded.valued_eq, valued, hfilt, List.filter_append, hend,
    List.append_nil, List.filter_filter]
  refine List.filter_congr (fun o ho => ?_)
  have hne : o.type ≠ optEnd := of_decide_eq_true (List.mem_filter.mp ho).2
  -- an End adds no occurrence of another type
  have hcount : p.dhcp.options.countP (fun x => x.type = o.type)
      = (valued p.dhcp).countP (fun x => x.type = o.type) := by
    rw [List.countP_eq_length_filter, List.countP_eq_length_filter, filter_valued hne]
  simp [Solitary, hcount, hne]

theorem Packet.nodup_types_filtered (p : Packet) :
    (p.filtered.options.map DHCPOption.type).Nodup :=
  nodup_types_deleteSplitOptions p.dhcp.options

/-! ## The four ways out -/

/-- **A copy of a client's own request**: one hop more, a giaddr, the relay's
Option 82 in place of all others, and the options in the order of their
types. -/
structure FirstHop (m : DHCPv4) (opt82 : DHCPOption) (c : DHCPv4) : Prop where
  rest : c = { m with
    relayHops := m.relayHops + 1, relayAgentIP := c.relayAgentIP, options := c.options }
  sorted : c.options.Pairwise (fun a b => a.type.toNat ≤ b.type.toNat)
  option82 : c.options.filter (fun o => o.type = relayAgentInformation) = [opt82]
  options : ((valued c).filter (fun o => o.type ≠ relayAgentInformation)).Perm
    ((passable m.options).filter (fun o => o.type ≠ relayAgentInformation))
  nodup : (c.options.map DHCPOption.type).Nodup

/-- **A message that is passed on** has the given number of hops. -/
structure Passed (m : DHCPv4) (hops : UInt8) (c : DHCPv4) : Prop where
  rest : c = { m with relayHops := hops, options := c.options }
  options : valued c = passable m.options

/-- **A reply that is delivered** has no giaddr and no Option 82. -/
structure Delivered (m : DHCPv4) (c : DHCPv4) : Prop where
  rest : c = { m with relayAgentIP := [], options := c.options }
  giaddr : IP.wire c.relayAgentIP = [0, 0, 0, 0]
  options : valued c
    = (passable m.options).filter (fun o => o.type ≠ relayAgentInformation)

/-- A stamp changes hops, giaddr and options. -/
theorem stamp_rest (S : OptionSort) (m : DHCPv4) (opts : List DHCPOption) (opt82 : DHCPOption)
    (ip : IP) :
    { stamp S { m with options := opts } opt82 with relayAgentIP := ip }
      = { m with
          relayHops := m.relayHops + 1
          relayAgentIP := ip
          options := (stamp S { m with options := opts } opt82).options } := rfl

/-- A stamped copy is a first-hop copy of the received message. -/
theorem firstHop_stamp (p : Packet) (S : OptionSort) (ifIndex : ℤ) (linkSubnet : IP)
    (tag : Bytes) (ip : IP) :
    FirstHop p.dhcp (installedOption82 ifIndex linkSubnet tag)
      { stamp S p.filtered (installedOption82 ifIndex linkSubnet tag) with
        relayAgentIP := ip } where
  rest := stamp_rest S p.dhcp (deleteSplitOptions p.dhcp.options) _ ip
  sorted := types_setOption_sorted S p.filtered (installedOption82 ifIndex linkSubnet tag)
  option82 := filter_type_setOption S p.filtered (installedOption82 ifIndex linkSubnet tag)
  nodup := nodup_types_setOption S _ p.nodup_types_filtered
  options := by
    have hp := (filter_ne_setOption_perm S p.filtered
      (installedOption82 ifIndex linkSubnet tag)).filter (fun o => decide (o.type ≠ optEnd))
    rw [← p.valued_filtered, valued, valued, List.filter_comm]
    rw [List.filter_comm (p := fun o : DHCPOption => decide (o.type ≠ relayAgentInformation))]
    exact hp

/-- A message that keeps the filtered options passes the received ones on. -/
theorem passed_filtered (p : Packet) (hops : UInt8) :
    Passed p.dhcp hops { p.filtered with relayHops := hops } where
  rest := rfl
  options := p.valued_filtered

/-- Stripping a reply changes giaddr and options. -/
theorem stripRelay_rest (m : DHCPv4) (opts : List DHCPOption) :
    stripRelay { m with options := opts }
      = { m with
          relayAgentIP := []
          options := (stripRelay { m with options := opts }).options } := rfl

/-- A stripped reply is a delivered one. -/
theorem delivered_stripRelay (p : Packet) : Delivered p.dhcp (stripRelay p.filtered) where
  rest := stripRelay_rest p.dhcp (deleteSplitOptions p.dhcp.options)
  giaddr := rfl
  options := by
    rw [← p.valued_filtered, valued, valued]
    exact List.filter_comm _ _ _

/-- **A relay is transparent to what it does not own.** Whatever is sent for
a packet that is handled is, for a client's own request, a first-hop copy with
the relay's Option 82; for a relayed request, the message with one hop more;
for a reply to another relay, the message with one hop less; and for a reply
to a client, the message without giaddr and Option 82. The copies of one
request differ from each other in giaddr only. -/
theorem handle_transparent (lib : GoLib) (opts : ValidateOptions) (policy : Bool)
    (host : Host) (cfg : HandleOptions) (ifIndex : ℤ) (p : Packet)
    (s : Option Table) (held : List (Option Table)) (layer : DHCPv4)
    (dec : Option Decision)
    (hrun : (admitPacket lib opts policy ifIndex (.complete p)).Runs s held
      (some (layer, dec))) :
    (∀ e ∈ (handle host cfg dec ifIndex layer).sent,
      (p.dhcp.operation = opRequest ∧ p.dhcp.relayHops = 0 ∧ ∃ dst c opt82,
          e = .datagram dst c ∧ relayStamp host cfg (dec.getD {}) ifIndex = some opt82
            ∧ FirstHop p.dhcp opt82 c)
        ∨ (p.dhcp.operation = opRequest ∧ 0 < p.dhcp.relayHops ∧ ∃ dst c,
          e = .datagram dst c ∧ Passed p.dhcp (p.dhcp.relayHops + 1) c)
        ∨ (p.dhcp.operation = opReply ∧ ∃ dst c,
          e = .datagram dst c ∧ Passed p.dhcp (p.dhcp.relayHops - 1) c)
        ∨ (p.dhcp.operation = opReply ∧ ∃ f, e = .frame f ∧ Delivered p.dhcp f.message))
    ∧ ∀ e ∈ (handle host cfg dec ifIndex layer).sent,
      ∀ e' ∈ (handle host cfg dec ifIndex layer).sent, p.dhcp.operation = opRequest →
        { e.message with relayAgentIP := [] } = { e'.message with relayAgentIP := [] } := by
  obtain ⟨rfl, -, -⟩ := hrun.always (admitPacket_always lib opts policy ifIndex p) _ rfl
  constructor
  · intro e he
    cases emits_of_mem_sent he with
    | @stamped g ip hop hz hg hip =>
      refine .inl ⟨hop, hz, _, _, _, rfl, ?_, firstHop_stamp p host.sort ifIndex
        g.linkSubnet (dec.getD {}).policyTag ip⟩
      rw [relayStamp, hg]
    | passed hop hpos _ => exact .inr (.inl ⟨hop, hpos, _, _, rfl, passed_filtered p _⟩)
    | returned hop => exact .inr (.inr (.inl ⟨hop, _, _, rfl, passed_filtered p _⟩))
    | @delivered f hop _ _ _ _ hm =>
      exact .inr (.inr (.inr ⟨hop, f, rfl, by rw [hm]; exact delivered_stripRelay p⟩))
  · intro e he e' he' hop
    have hno : p.filtered.operation ≠ opReply := DHCPv4.not_reply_of_request hop
    cases emits_of_mem_sent he with
    | returned hrep => exact absurd hrep hno
    | delivered hrep => exact absurd hrep hno
    | stamped _ hz hg _ =>
      cases emits_of_mem_sent he' with
      | returned hrep => exact absurd hrep hno
      | delivered hrep => exact absurd hrep hno
      | stamped _ _ hg' _ =>
        cases hg.symm.trans hg'
        rfl
      | passed _ hpos => exact absurd hz (UInt8.pos_iff_ne_zero.mp hpos)
    | passed _ hpos _ =>
      cases emits_of_mem_sent he' with
      | returned hrep => exact absurd hrep hno
      | delivered hrep => exact absurd hrep hno
      | stamped _ hz => exact absurd hz (UInt8.pos_iff_ne_zero.mp hpos)
      | passed _ _ _ => rfl

/-- A received DISCOVER with the client identifier in Option 61. -/
def discoverPacket (id : Bytes) (h : id.length < 256) : Packet where
  ipv4 := ⟨false, 0, 5, [0, 0, 0, 0], [255, 255, 255, 255], ⟨true, 0, 0⟩⟩
  udp := ⟨67, none, ⟨true, 0, 0⟩⟩
  dhcp :=
    { discoverOf id with
      hardwareType := 1
      hardwareLen := 6
      clientIP := [0, 0, 0, 0]
      yourClientIP := [0, 0, 0, 0]
      relayAgentIP := [0, 0, 0, 0] }
  decoded :=
    { length_data := by
        intro o ho
        rcases List.mem_cons.mp ho with rfl | ho
        · rfl
        · rw [List.mem_singleton.mp ho]
          exact UInt8.toNat_ofNat_of_lt' h
      end_last := by
        intro o ho
        rw [List.mem_singleton.mp ho]
        decide
      length_clientIP := rfl
      length_yourClientIP := rfl
      length_relayAgentIP := rfl
      length_clientHWAddr := rfl }

/-- A frame with the OFFER of a server that has got a copy tagged with `0xe1`. -/
def answerPacket : Packet where
  ipv4 := ⟨false, 0, 5, [10, 0, 0, 2], [192, 168, 50, 1], ⟨true, 0, 0⟩⟩
  udp := ⟨67, none, ⟨true, 0, 0⟩⟩
  dhcp :=
    { offerOf [0xe1] with
      hardwareType := 1
      hardwareLen := 6
      relayHops := 1
      clientIP := [0, 0, 0, 0]
      yourClientIP := [192, 168, 50, 77]
      relayAgentIP := [192, 168, 50, 1] }
  decoded :=
    { length_data := by decide
      end_last := by decide
      length_clientIP := rfl
      length_yourClientIP := rfl
      length_relayAgentIP := rfl
      length_clientHWAddr := rfl }

/-- A DISCOVER goes out with one hop and the relay's Option 82. -/
theorem handle_transparent_discover :
    ∃ e ∈ (handle numberedHost plainOptions none 2
        (discoverPacket [0xaa] (by decide)).filtered).sent,
      ∃ dst c opt82, e = .datagram dst c
        ∧ relayStamp numberedHost plainOptions {} 2 = some opt82
        ∧ FirstHop (discoverPacket [0xaa] (by decide)).dhcp opt82 c := by
  let p := discoverPacket [0xaa] (by decide)
  have hrun : (admitPacket .literal ⟨1500, false⟩ false 2 (.complete p)).Runs none [none]
      (some (p.filtered, none)) := by
    rw [admitPacket_of_no_policy (by decide) (by decide)]
    exact .ret _ _
  have hall := (handle_transparent .literal ⟨1500, false⟩ false numberedHost plainOptions 2
    p none [none] p.filtered none hrun).1
  have hsent : (handle numberedHost plainOptions none 2 p.filtered).sent ≠ [] := by decide
  obtain ⟨e, he⟩ := List.exists_mem_of_ne_nil _ hsent
  refine ⟨e, he, ?_⟩
  rcases hall e he with ⟨-, -, h⟩ | ⟨-, hpos, -⟩ | ⟨hop, -⟩ | ⟨hop, -⟩
  · exact h
  · exact absurd hpos (by decide)
  · exact absurd hop (by decide)
  · exact absurd hop (by decide)

/-! ## What the policy judged -/

/-- The three ways a server can read an option of a type that occurs several
times: the first, the last, and all of them together. -/
def readings (m : DHCPv4) (t : UInt8) : List Bytes :=
  let occurrences := (m.options.filter (fun o => o.type = t)).map DHCPOption.data
  [occurrences.head?.getD [], occurrences.getLast?.getD [], occurrences.flatten]

/-- An option that occurs at most once can be read in one way only. -/
theorem readings_eq_of_nodup {m : DHCPv4} (h : (m.options.map DHCPOption.type).Nodup)
    (t : UInt8) : ∀ x ∈ readings m t, x = (getOption m t).data := by
  rw [readings, filter_key_eq_toList_find? h t, getOption]
  cases m.options.find? (fun o => o.type = t) with
  | none => simp
  | some o => simp

/-- The client identifier of a received packet is the data of its Option
61. -/
theorem Packet.clientID_filtered (p : Packet) :
    clientID p.filtered = (getOption p.filtered optClientID).data := by
  have hlen := p.length_data_getOption optClientID
  rw [clientID]
  split
  · rfl
  · next h =>
    rw [isOption, decide_eq_true_eq, UInt8.lt_iff_toNat_lt, hlen] at h
    exact (List.length_eq_zero_iff.mp (Nat.eq_zero_of_not_pos h)).symm

/-- A forwarded request has the option types and, Option 82 apart, the options
of the message that was handled. -/
theorem options_of_emits_request {host : Host} {cfg : HandleOptions} {dec : Decision}
    {ifIndex : ℤ} {layer : DHCPv4} {e : Emission} (hop : layer.operation = opRequest)
    (hnd : (layer.options.map DHCPOption.type).Nodup)
    (h : Emits host cfg dec ifIndex layer e) :
    (e.message.options.map DHCPOption.type).Nodup
      ∧ e.message.clientHWAddr = layer.clientHWAddr
      ∧ ∀ t, t ≠ relayAgentInformation →
        e.message.options.filter (fun o => o.type = t)
          = layer.options.filter (fun o => o.type = t) := by
  cases h with
  | @stamped g ip _ _ _ _ =>
    exact ⟨nodup_types_setOption host.sort _ hnd, rfl, fun t ht =>
      filter_type_setOption_of_ne host.sort
        (installedOption82 ifIndex g.linkSubnet dec.policyTag) ht hnd⟩
  | passed => exact ⟨hnd, rfl, fun _ _ => rfl⟩
  | returned hrep => exact absurd hrep (DHCPv4.not_reply_of_request hop)
  | delivered hrep => exact absurd hrep (DHCPv4.not_reply_of_request hop)

/-- A request that the gate lets through was let through by a table that was
published during the call, and its decision is that table's. -/
theorem admitted_request {lib : GoLib} {opts : ValidateOptions} {ifIndex : ℤ}
    {p : Packet} {s : Option Table} {held : List (Option Table)} {layer : DHCPv4}
    {dec : Option Decision}
    (hrun : (admitPacket lib opts true ifIndex (.complete p)).Runs s held (some (layer, dec)))
    (hop : p.filtered.operation ≠ opReply) :
    ∃ t : Table, some t ∈ held
      ∧ (requestOutcome (t.lookupID [clientID p.filtered, p.dhcp.clientHWAddr]).1
          (t.lookupID [clientID p.filtered, p.dhcp.clientHWAddr]).2) = (dec, false) := by
  obtain ⟨-, hi, hv⟩ := hrun.always (admitPacket_always lib opts true ifIndex p) _ rfl
  rw [admitPacket_of_policy hi hv] at hrun
  obtain ⟨d, hd, heq⟩ := hrun.of_bind_ret
  have hdec : d = (dec, false) := by
    obtain ⟨d, drop⟩ := d
    cases drop <;> cases heq
    rfl
  rw [policyForPacket_request_eq lib hop] at hd
  obtain ⟨r, hr, hout⟩ := hd.of_bind_ret
  obtain ⟨t, ht, rfl⟩ := singleSnapshot_mapLookupID (fun _ => True) _ _ _ _ hr
    (fun _ _ => trivial)
  rw [hdec] at hout
  cases t with
  | none => cases hout
  | some t =>
    rw [eval_mapLookupID] at hout
    exact ⟨t, ht, hout.symm⟩

/-- **What the policy judged is what the server sees.** Every request that is
sent after the policy gate has at most one option of each type. All ways of
reading its Option 61 give one identifier, and a table published during the
call let the client through under this identifier and its hardware address.
Its Option 53 is the one whose message type was judged. -/
theorem judged_is_sent (lib : GoLib) (opts : ValidateOptions) (host : Host)
    (cfg : HandleOptions) (ifIndex : ℤ) (p : Packet) (s : Option Table)
    (held : List (Option Table)) (layer : DHCPv4) (dec : Option Decision)
    (hrun : (admitPacket lib opts true ifIndex (.complete p)).Runs s held (some (layer, dec)))
    (hop : p.dhcp.operation = opRequest) (e : Emission)
    (he : e ∈ (handle host cfg dec ifIndex layer).sent) :
    (e.message.options.map DHCPOption.type).Nodup
      ∧ (∃ t : Table, some t ∈ held ∧ ∀ id ∈ readings e.message optClientID,
        id = clientID layer
          ∧ (t.lookup [id, e.message.clientHWAddr]).kind ≠ .blackhole
          ∧ dec = some (requestConfig (t.lookupID [id, e.message.clientHWAddr]).1
              (t.lookupID [id, e.message.clientHWAddr]).2))
      ∧ e.message.options.filter (fun o => o.type = optMessageType)
        = layer.options.filter (fun o => o.type = optMessageType)
      ∧ getMessageType e.message = getMessageType layer
      ∧ (getMessageType layer).isSome = true := by
  obtain ⟨rfl, -, -⟩ := hrun.always (admitPacket_always lib opts true ifIndex p) _ rfl
  obtain ⟨htype, hem⟩ := emits_of_mem_attempts (Outcome.mem_sent.mp he)
  have hop' : p.filtered.operation = opRequest := hop
  obtain ⟨hnd, hhw, hopts⟩ := options_of_emits_request hop' p.nodup_types_filtered hem
  have hget : ∀ t, t ≠ relayAgentInformation →
      getOption e.message t = getOption p.filtered t := fun t ht => by
    rw [getOption_eq_head, getOption_eq_head, hopts t ht]
  refine ⟨hnd, ?_, hopts _ (by decide), ?_, htype⟩
  · obtain ⟨t, ht, hout⟩ := admitted_request hrun (DHCPv4.not_reply_of_request hop')
    refine ⟨t, ht, fun id hid => ?_⟩
    have hid' : id = clientID p.filtered := by
      rw [readings_eq_of_nodup hnd optClientID id hid, hget _ (by decide),
        p.clientID_filtered]
    rw [hid', hhw, Table.lookup]
    rw [requestOutcome] at hout
    split at hout
    · cases hout
    · next hk => exact ⟨rfl, hk, (congrArg Prod.fst hout).symm⟩
  · rw [getMessageType, getMessageType, hget _ (by decide)]

/-- A DISCOVER that the policy lets through under its Option 61. -/
theorem judged_is_sent_discover :
    ∃ e ∈ (handle numberedHost plainOptions (some { policyTag := [0xaa] }) 2
        (discoverPacket [0xaa] (by decide)).filtered).sent,
      (e.message.options.map DHCPOption.type).Nodup
        ∧ ∀ id ∈ readings e.message optClientID, id = [0xaa] := by
  let p := discoverPacket [0xaa] (by decide)
  have heval : (admitPacket .literal ⟨1500, false⟩ true 2 (.complete p)).eval (some catchAllTable)
      = some (p.filtered, some { policyTag := [0xaa] }) := by
    have hid : clientID p.filtered = [0xaa] := by decide
    rw [admitPacket_of_policy (by decide) (by decide), Call.eval_bind,
      eval_policyForPacket_request .literal catchAllTable (by decide), hid]
    rfl
  have hrun := Call.runs_eval (admitPacket .literal ⟨1500, false⟩ true 2 (.complete p))
    (some catchAllTable)
  rw [heval] at hrun
  have hsent : (handle numberedHost plainOptions (some { policyTag := [0xaa] }) 2
      p.filtered).sent ≠ [] := by decide
  obtain ⟨e, he⟩ := List.exists_mem_of_ne_nil _ hsent
  obtain ⟨hnd, ⟨t, -, hid⟩, -⟩ := judged_is_sent .literal ⟨1500, false⟩ numberedHost
    plainOptions 2 p (some catchAllTable) [some catchAllTable] p.filtered
    (some { policyTag := [0xaa] }) hrun rfl e he
  exact ⟨e, he, hnd, fun id h => (hid id h).1⟩
