import DhcpRelay.RoundTrip
import DhcpRelay.Handle
import DhcpRelay.Transition

/-!
# Hop counts in a network of relays

Relays forward to servers that may be relays again, and nothing keeps the
configured addresses from forming a loop. What ends every loop is the hop
count. A forwarded request has one hop more, and no relay sends one with more
hops than its limit; a forwarded reply has one hop less, and no relay forwards
one without a hop left.

The network is a set of copies in flight (`network`). Clients and servers put
messages into it; a relay takes any copy that is there, at any time and as
often as it likes, and adds what it forwards; copies are lost. So whatever the
network delays, duplicates, reorders or delivers in a circle is a run of it.
Each copy remembers the chain of forwardings that led to it, and
`hops_bounded` is about every copy in every reachable state.
-/

open Dhcp

/-! ## One forwarding -/

theorem toNat_add_one_of_lt {a b : UInt8} (h : a < b) : (a + 1).toNat = a.toNat + 1 := by
  rw [UInt8.lt_iff_toNat_lt] at h
  have hb := b.toNat_lt
  rw [UInt8.toNat_add]
  exact Nat.mod_eq_of_lt (by show a.toNat + 1 < 2 ^ 8; omega)

theorem toNat_sub_one_of_le {a : UInt8} (h : 1 ≤ a) : (a - 1).toNat + 1 = a.toNat := by
  have h' := UInt8.le_iff_toNat_le.mp h
  rw [UInt8.toNat_sub_of_le a 1 h]
  exact Nat.sub_add_cancel h'

/-- **A forwarded request** has one hop more, which does not wrap, and at most
as many as its sender allows. -/
theorem request_of_emits {host : Host} {cfg : HandleOptions} {dec : Decision}
    {ifIndex : ℤ} {layer m : DHCPv4} {dst : Text} (hop : layer.operation = opRequest)
    (h : Emits host cfg dec ifIndex layer (.datagram dst m)) :
    m.operation = opRequest ∧ m.relayHops.toNat = layer.relayHops.toNat + 1
      ∧ m.relayHops ≤ cfg.maxHops := by
  have hstep : layer.relayHops < cfg.maxHops →
      (layer.relayHops + 1).toNat = layer.relayHops.toNat + 1
        ∧ layer.relayHops + 1 ≤ cfg.maxHops := by
    intro hlt
    have hadd := toNat_add_one_of_lt hlt
    refine ⟨hadd, ?_⟩
    rw [UInt8.le_iff_toNat_le, hadd]
    exact UInt8.lt_iff_toNat_lt.mp hlt
  cases h with
  | stamped _ hz _ _ =>
    have hlt : layer.relayHops < cfg.maxHops := by
      have := cfg.maxHops_pos
      rw [hz, UInt8.lt_iff_toNat_lt]
      exact UInt8.le_iff_toNat_le.mp this
    exact ⟨hop, hstep hlt⟩
  | passed _ _ hlt => exact ⟨hop, hstep hlt⟩
  | returned hrep => exact absurd hrep (DHCPv4.not_reply_of_request hop)

/-- **A forwarded reply** has one hop less, which does not wrap. -/
theorem reply_of_emits {host : Host} {cfg : HandleOptions} {dec : Decision}
    {ifIndex : ℤ} {layer m : DHCPv4} {dst : Text} (hop : layer.operation = opReply)
    (h : Emits host cfg dec ifIndex layer (.datagram dst m)) :
    m.operation = opReply ∧ m.relayHops.toNat + 1 = layer.relayHops.toNat := by
  cases h with
  | stamped hreq => exact absurd hop (DHCPv4.not_reply_of_request hreq)
  | passed hreq => exact absurd hop (DHCPv4.not_reply_of_request hreq)
  | returned _ h1 _ => exact ⟨hop, toNat_sub_one_of_le h1⟩

/-! ## The network -/

/-- A message in flight, with the forwarded copies it descends from: each with
the configuration of the relay that sent it, the message itself last. -/
structure Copy where
  /-- The message as a client or a server sent it. -/
  origin : DHCPv4
  lineage : List (HandleOptions × DHCPv4)

/-- The messages of a chain of forwardings, the original one first. -/
def Copy.chain (c : Copy) : List DHCPv4 := c.origin :: c.lineage.map Prod.snd

/-- The message itself. -/
def Copy.message (c : Copy) : DHCPv4 := c.chain.getLast (List.cons_ne_nil _ _)

/-- A relay forwarded `m`, while it handled something that has the operation
and the hop count of the copy. All else may have changed on the way to the
handler. -/
def Forwards (cfg : HandleOptions) (c : Copy) (m : DHCPv4) : Prop :=
  ∃ host dec ifIndex layer dst,
    layer.operation = c.message.operation ∧ layer.relayHops = c.message.relayHops
      ∧ Emission.datagram dst m ∈ (handle host cfg dec ifIndex layer).sent

/-- One thing that happens in a network of relays. -/
inductive NetworkStep (relays : List HandleOptions) : List Copy → List Copy → Prop where
  /-- A client or a server sends a message. -/
  | originate (m : DHCPv4) (s : List Copy) :
      NetworkStep relays s (⟨m, []⟩ :: s)
  /-- A relay forwards a copy, which stays to be delivered again. -/
  | forward {s : List Copy} {c : Copy} {cfg : HandleOptions} {m : DHCPv4} :
      cfg ∈ relays → c ∈ s → Forwards cfg c m →
      NetworkStep relays s (⟨c.origin, c.lineage ++ [(cfg, m)]⟩ :: s)
  /-- Copies are lost, or come in another order. -/
  | lose {s s' : List Copy} : s' ⊆ s → NetworkStep relays s s'

/-- **A network of relays**, with nothing in flight at first. -/
def network (relays : List HandleOptions) : System (List Copy) where
  init s := s = []
  step := NetworkStep relays

/-! ## What holds of every copy -/

theorem Copy.chain_append (c : Copy) (cfg : HandleOptions) (m : DHCPv4) :
    Copy.chain ⟨c.origin, c.lineage ++ [(cfg, m)]⟩ = c.chain ++ [m] := by
  simp [Copy.chain]

theorem Copy.message_append (c : Copy) (cfg : HandleOptions) (m : DHCPv4) :
    Copy.message ⟨c.origin, c.lineage ++ [(cfg, m)]⟩ = m := by
  simp [Copy.message, Copy.chain_append]

/-- A relation between each message of a chain and the next goes on holding
when it holds from the message to the forwarded one. -/
theorem Copy.isChain_append {R : DHCPv4 → DHCPv4 → Prop} {c : Copy}
    (h : c.chain.IsChain R) (cfg : HandleOptions) {m : DHCPv4} (hm : R c.message m) :
    (Copy.chain ⟨c.origin, c.lineage ++ [(cfg, m)]⟩).IsChain R := by
  rw [Copy.chain_append, List.isChain_append]
  refine ⟨h, List.isChain_singleton m, fun x hx y hy => ?_⟩
  have hlast : c.chain.getLast? = some c.message :=
    List.getLast?_eq_some_getLast (List.cons_ne_nil _ _)
  cases hlast.symm.trans hx
  cases hy
  exact hm

/-- What a chain of forwarded requests keeps. -/
structure RequestChain (relays : List HandleOptions) (c : Copy) : Prop where
  /-- Each copy has one hop more than the one it came from. -/
  grows : c.chain.IsChain (fun a b => b.relayHops.toNat = a.relayHops.toNat + 1)
  operation : ∀ x ∈ c.lineage, x.2.operation = opRequest
  /-- Each copy has between one hop and the limit of its sender. -/
  bounded : ∀ x ∈ c.lineage,
    x.1 ∈ relays ∧ 1 ≤ x.2.relayHops ∧ x.2.relayHops ≤ x.1.maxHops
  hops : c.message.relayHops.toNat = c.origin.relayHops.toNat + c.lineage.length

/-- What a chain of forwarded replies keeps. -/
structure ReplyChain (c : Copy) : Prop where
  /-- Each copy has one hop less than the one it came from. -/
  drains : c.chain.IsChain (fun a b => b.relayHops.toNat + 1 = a.relayHops.toNat)
  operation : ∀ x ∈ c.lineage, x.2.operation = opReply
  hops : c.message.relayHops.toNat + c.lineage.length = c.origin.relayHops.toNat

theorem Copy.operation_message {c : Copy} {op : UInt8} (ho : c.origin.operation = op)
    (h : ∀ x ∈ c.lineage, x.2.operation = op) : c.message.operation = op := by
  have hmem := List.getLast_mem (l := c.chain) (List.cons_ne_nil _ _)
  rcases List.mem_cons.mp hmem with heq | hmem
  · rw [Copy.message, heq, ho]
  · obtain ⟨x, hx, hxm⟩ := List.mem_map.mp hmem
    rw [Copy.message, ← hxm]
    exact h x hx

theorem RequestChain.originate (relays : List HandleOptions) (m : DHCPv4) :
    RequestChain relays ⟨m, []⟩ where
  grows := List.isChain_singleton m
  operation := fun _ hx => absurd hx List.not_mem_nil
  bounded := fun _ hx => absurd hx List.not_mem_nil
  hops := rfl

theorem ReplyChain.originate (m : DHCPv4) : ReplyChain ⟨m, []⟩ where
  drains := List.isChain_singleton m
  operation := fun _ hx => absurd hx List.not_mem_nil
  hops := rfl

/-- **A forwarding extends a chain of requests.** -/
theorem RequestChain.forward {relays : List HandleOptions} {c : Copy}
    (h : RequestChain relays c) (ho : c.origin.operation = opRequest)
    {cfg : HandleOptions} (hcfg : cfg ∈ relays) {m : DHCPv4} (hm : Forwards cfg c m) :
    RequestChain relays ⟨c.origin, c.lineage ++ [(cfg, m)]⟩ := by
  obtain ⟨host, dec, ifIndex, layer, dst, hop, hhops, hsent⟩ := hm
  rw [Copy.operation_message ho h.operation] at hop
  obtain ⟨hmop, hadd, hmax⟩ := request_of_emits hop (emits_of_mem_sent hsent)
  rw [hhops] at hadd
  have hlast : ∀ {P : HandleOptions × DHCPv4 → Prop}, (∀ x ∈ c.lineage, P x) →
      P (cfg, m) → ∀ x ∈ c.lineage ++ [(cfg, m)], P x := by
    intro P hl hx x hmem
    rcases List.mem_append.mp hmem with hmem | hmem
    · exact hl x hmem
    · rw [List.mem_singleton.mp hmem]
      exact hx
  refine ⟨Copy.isChain_append h.grows cfg hadd, hlast h.operation hmop,
    hlast h.bounded ⟨hcfg, ?_, hmax⟩, ?_⟩
  · rw [UInt8.le_iff_toNat_le, hadd]
    exact Nat.le_add_left 1 _
  · rw [Copy.message_append, hadd, h.hops, List.length_append]
    rfl

/-- **A forwarding extends a chain of replies.** -/
theorem ReplyChain.forward {c : Copy} (h : ReplyChain c)
    (ho : c.origin.operation = opReply) {cfg : HandleOptions} {m : DHCPv4}
    (hm : Forwards cfg c m) : ReplyChain ⟨c.origin, c.lineage ++ [(cfg, m)]⟩ := by
  obtain ⟨host, dec, ifIndex, layer, dst, hop, hhops, hsent⟩ := hm
  rw [Copy.operation_message ho h.operation] at hop
  obtain ⟨hmop, hsub⟩ := reply_of_emits hop (emits_of_mem_sent hsent)
  rw [hhops] at hsub
  refine ⟨Copy.isChain_append h.drains cfg hsub, ?_, ?_⟩
  · intro x hmem
    rcases List.mem_append.mp hmem with hmem | hmem
    · exact h.operation x hmem
    · rw [List.mem_singleton.mp hmem]
      exact hmop
  · have hh := h.hops
    rw [Copy.message_append, List.length_append, List.length_singleton]
    show m.relayHops.toNat + (c.lineage.length + 1) = c.origin.relayHops.toNat
    omega

/-- Every copy in flight is one of a growing chain of requests or of a
draining chain of replies, if it is a request or a reply. -/
theorem network_chains {relays : List HandleOptions} {s : List Copy}
    (h : (network relays).Reachable s) :
    ∀ c ∈ s, (c.origin.operation = opRequest → RequestChain relays c)
      ∧ (c.origin.operation = opReply → ReplyChain c) := by
  refine h.invariant (I := fun s => ∀ c ∈ s, (c.origin.operation = opRequest →
    RequestChain relays c) ∧ (c.origin.operation = opReply → ReplyChain c)) ?_ ?_
  · rintro s rfl c hc
    cases hc
  · intro s s' _ ih hstep c hc
    cases hstep with
    | originate m s =>
      rcases List.mem_cons.mp hc with rfl | hc
      · exact ⟨fun _ => .originate relays m, fun _ => .originate m⟩
      · exact ih c hc
    | @forward s b cfg m hcfg hb hm =>
      rcases List.mem_cons.mp hc with rfl | hc
      · exact ⟨fun ho => ((ih b hb).1 ho).forward ho hcfg hm,
          fun ho => ((ih b hb).2 ho).forward ho hm⟩
      · exact ih c hc
    | lose hsub => exact ih c (hsub hc)

/-- A chain of requests is no longer than the limit of its last sender. -/
theorem RequestChain.length_le {relays : List HandleOptions} {c : Copy}
    (h : RequestChain relays c) :
    c.lineage = [] ∨ ∃ cfg ∈ relays, c.lineage.length ≤ cfg.maxHops.toNat := by
  rcases List.eq_nil_or_concat c.lineage with hnil | ⟨l, x, hl⟩
  · exact .inl hnil
  · refine .inr ⟨x.1, ?_⟩
    have hx := h.bounded x (by simp [hl])
    have hmsg : c.message = x.2 := by simp [Copy.message, Copy.chain, hl]
    have hhops := h.hops
    rw [hmsg] at hhops
    have hmax := UInt8.le_iff_toNat_le.mp hx.2.2
    exact ⟨hx.1, by omega⟩

/-- **No loop runs for ever, and no hop count wraps.** In every run of a
network of relays: along every chain of forwarded requests the hop count grows
by exactly one per copy, every copy has between one hop and the limit of its
sender, and there are at most as many copies as some relay's limit; along
every chain of forwarded replies the hop count drops by exactly one per copy,
and there are at most as many copies as the original reply had hops. -/
theorem hops_bounded (relays : List HandleOptions) (s : List Copy)
    (h : (network relays).Reachable s) (c : Copy) (hc : c ∈ s) :
    (c.origin.operation = opRequest →
      c.chain.IsChain (fun a b => a.relayHops < b.relayHops
          ∧ b.relayHops.toNat = a.relayHops.toNat + 1)
        ∧ (∀ x ∈ c.lineage, 1 ≤ x.2.relayHops ∧ x.2.relayHops ≤ x.1.maxHops)
        ∧ (c.lineage = [] ∨ ∃ cfg ∈ relays, c.lineage.length ≤ cfg.maxHops.toNat))
    ∧ (c.origin.operation = opReply →
      c.chain.IsChain (fun a b => b.relayHops < a.relayHops
          ∧ b.relayHops.toNat + 1 = a.relayHops.toNat)
        ∧ c.lineage.length ≤ c.origin.relayHops.toNat) := by
  obtain ⟨hreq, hrep⟩ := network_chains h c hc
  refine ⟨fun ho => ?_, fun ho => ?_⟩
  · have hchain := hreq ho
    refine ⟨hchain.grows.imp (fun a b hab => ⟨?_, hab⟩),
      fun x hx => (hchain.bounded x hx).2, hchain.length_le⟩
    rw [UInt8.lt_iff_toNat_lt]
    omega
  · have hchain := hrep ho
    refine ⟨hchain.drains.imp (fun a b hab => ⟨?_, hab⟩), ?_⟩
    · rw [UInt8.lt_iff_toNat_lt]
      omega
    · have := hchain.hops
      omega

open Relay in
/-- A DISCOVER that one relay forwards. -/
theorem hops_bounded_discover :
    ∃ c : Copy, c.lineage.length = 1 ∧ (network [plainOptions]).Reachable [c]
      ∧ c.chain.IsChain (fun a b => a.relayHops < b.relayHops
          ∧ b.relayHops.toNat = a.relayHops.toNat + 1) := by
  let c : Copy := ⟨discoverOf [0xaa], [(plainOptions, relayedOf [0xaa])]⟩
  have hfwd : Forwards plainOptions ⟨discoverOf [0xaa], []⟩ (relayedOf [0xaa]) :=
    ⟨numberedHost, some { policyTag := [0xaa] }, 2, discoverOf [0xaa],
      "10.0.0.1".toList, rfl, rfl, by decide⟩
  have hsent : (network [plainOptions]).Reachable [⟨discoverOf [0xaa], []⟩] :=
    .step (.init rfl) (.originate _ _)
  have hboth : (network [plainOptions]).Reachable [c, ⟨discoverOf [0xaa], []⟩] :=
    .step hsent (.forward (List.mem_singleton_self _) (List.mem_singleton_self _) hfwd)
  have hc : (network [plainOptions]).Reachable [c] := .step hboth (.lose (by simp))
  exact ⟨c, rfl, hc,
    ((hops_bounded [plainOptions] [c] hc c (List.mem_singleton_self _)).1 rfl).1⟩
