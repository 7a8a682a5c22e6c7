import DhcpRelay.FirstHop
import DhcpRelay.LinkFile
import DhcpRelay.PolicyInForce

/-!
# The link map while it is reloaded

The link map of a relay is a file that is hot reloaded, like the policy
(`pkg/linkmap`, `New` and `Map`). `handle` asks a map that does not change. Here the map
is live: `Map.lookup` loads the table that is published when it is asked, and `handleLive`
is the same handler with this map to ask, as a `Call` on the register that holds the
table. The two registers, that of the policy and that of the link map, come together in
`handlePacketLive`.

`ResolveGiaddr` is the only place where the map is asked, and it asks once, so the
handler takes one snapshot of the map (`singleSnapshot_handleLive`).
`request_handled_by_snapshots` is the result for the whole path: a request that is judged,
handled and sent while both files are reloaded is treated exactly as by a relay with two
fixed tables, both of them published at the time, and the policy no later than the link
map. `link_selection_by_version` traces the table back to the text of the file.
-/

open Dhcp MacPolicy FileWatch Relay

namespace LinkMap

/-- `Map.Lookup`: one load of the published table, which is nil before the first
one. -/
def Map.lookup (lib : GoLib) (name mac : Text) : Call (Option Table) (Option IP) :=
  .read (fun t =>
    match t with
    | none => none
    | some t => t.lookup lib name mac)

/-- **`New`**: the watcher of a link map file. There is nothing to validate. -/
def watchConfig (lib : GoLib) (net : CIDRParser) (path : String) :
    FileWatch.Config Char Table where
  parse := { run := fun text => (parse lib net text).map (fun p => (some p.1, p.2)) }
  describe := some (fun t => toString t.entries.length ++ " entries")
  path := path
  name := "link map"

theorem run_watchConfig {lib : GoLib} {net : CIDRParser} (path : String) {text : Text} {t : Table}
    {warnings : List String} (h : parse lib net text = .ok (t, warnings)) :
    (watchConfig lib net path).parse.run text = .ok (some t, warnings) := by
  simp only [watchConfig, h, Except.map]

end LinkMap

/-! ## The handler with a live link map -/

/-- **`Handle`**, with a link map that is reloaded in place of the one of `cfg`. -/
def handleLive (lib : GoLib) (host : Host) (cfg : HandleOptions) (dec : Option Decision)
    (ifIndex : ℤ) (layer : DHCPv4) : Call (Option LinkMap.Table) Outcome :=
  handleBy (some (LinkMap.Map.lookup lib)) host cfg dec ifIndex layer

/-- **`handlePacket`** with both files live: the policy judges, and what it lets
through is handled when a handler slot is free. -/
def handlePacketLive (lib : GoLib) (opts : ValidateOptions) (host : Host) (cfg : HandleOptions)
    (slotFree : Bool) (ifIndex : ℤ) (frame : Decoding) :
    Call (Option MacPolicy.Table × Option LinkMap.Table) (Option Outcome) :=
  (admitPacket lib opts true ifIndex frame).zoom Prod.fst >>= fun r =>
    match r with
    | none => .ret none
    | some a =>
      if slotFree then
        (handleLive lib host cfg a.2 ifIndex a.1).zoom Prod.snd >>= fun o => .ret (some o)
      else .ret none

/-! ## One snapshot of the link map -/

section OneSnapshot

variable {lib : GoLib} {host : Host} {cfg : HandleOptions} {ifIndex : ℤ}

/-- With one table throughout, the giaddr is resolved as with this table. -/
theorem eval_resolveGiaddrBy (dec : Decision) (t : LinkMap.Table) :
    (resolveGiaddrBy (some (LinkMap.Map.lookup lib)) host cfg dec ifIndex).eval (some t)
      = resolveGiaddr host (cfg.withLinkMap lib (some t)) dec ifIndex := by
  unfold resolveGiaddr resolveGiaddrBy
  cases host.interfaceByIndex ifIndex with
  | error e => rfl
  | ok ifi =>
    dsimp only
    cases interfaceGlobalUnicastAddrs4 host ifi with
    | error e => rfl
    | ok addrs =>
      cases addrs with
      | cons addr addrs => rfl
      | nil => rfl

theorem eval_handleGenericRequestBy (dec : Decision) (layer : DHCPv4) (t : LinkMap.Table) :
    (handleGenericRequestBy (some (LinkMap.Map.lookup lib)) host cfg dec ifIndex layer).eval
        (some t)
      = handleGenericRequest host (cfg.withLinkMap lib (some t)) dec ifIndex layer := by
  by_cases hhops : cfg.maxHops ≤ layer.relayHops
  · have hhops' : (cfg.withLinkMap lib (some t)).maxHops ≤ layer.relayHops := hhops
    rw [handleGenericRequest, handleGenericRequestBy, handleGenericRequestBy, if_pos hhops,
      if_pos hhops']
    rfl
  · have hlt : layer.relayHops < (cfg.withLinkMap lib (some t)).maxHops := UInt8.not_le.mp hhops
    rw [handleGenericRequestBy, if_neg hhops, Call.eval_bind, eval_resolveGiaddrBy,
      handleGenericRequest_of_lt hlt]
    rfl

/-- With one table throughout, the live handler is the handler with this table. -/
theorem eval_handleLive (dec : Option Decision) (layer : DHCPv4) (t : LinkMap.Table) :
    (handleLive lib host cfg dec ifIndex layer).eval (some t)
      = handle host (cfg.withLinkMap lib (some t)) dec ifIndex layer := by
  unfold handleLive handle handleBy
  cases getMessageType layer with
  | none => rfl
  | some ty =>
    dsimp only
    split
    · unfold handleRequestBy
      split
      · rfl
      · exact eval_handleGenericRequestBy _ layer t
    · split
      · rfl
      · rfl

/-- The giaddr is resolved with one load at most. -/
theorem singleSnapshot_resolveGiaddrBy (P : Option LinkMap.Table → Prop) (dec : Decision) :
    (resolveGiaddrBy (some (LinkMap.Map.lookup lib)) host cfg dec ifIndex).SingleSnapshot P := by
  unfold resolveGiaddrBy
  cases host.interfaceByIndex ifIndex with
  | error e => exact Call.singleSnapshot_ret P _
  | ok ifi =>
    dsimp only
    cases interfaceGlobalUnicastAddrs4 host ifi with
    | error e => exact Call.singleSnapshot_ret P _
    | ok addrs =>
      cases addrs with
      | cons addr addrs => exact Call.singleSnapshot_ret P _
      | nil => exact (Call.singleSnapshot_read P _).bind_ret _

/-- **The handler takes one snapshot of the link map.** -/
theorem singleSnapshot_handleLive (P : Option LinkMap.Table → Prop) (dec : Option Decision)
    (layer : DHCPv4) : (handleLive lib host cfg dec ifIndex layer).SingleSnapshot P := by
  unfold handleLive handleBy
  cases getMessageType layer with
  | none => exact Call.singleSnapshot_ret P _
  | some ty =>
    dsimp only
    split
    · unfold handleRequestBy
      split
      · exact Call.singleSnapshot_ret P _
      · unfold handleGenericRequestBy
        split
        · exact Call.singleSnapshot_ret P _
        · exact (singleSnapshot_resolveGiaddrBy P _).bind_ret _
    · split
      · exact Call.singleSnapshot_ret P _
      · exact Call.singleSnapshot_ret P _

end OneSnapshot

/-- **A request is handled on one table of each file.** Whatever is published while a
request is judged and handled, the outcome is that of a relay with one policy and one
link map, both of them published at the time, the policy no later than the link
map. -/
theorem request_handled_by_snapshots (lib : GoLib) (opts : ValidateOptions) (host : Host)
    (cfg : HandleOptions) (slotFree : Bool) (ifIndex : ℤ) {p : Packet}
    (hop : p.filtered.operation ≠ opReply)
    {s : Option MacPolicy.Table × Option LinkMap.Table}
    {held : List (Option MacPolicy.Table × Option LinkMap.Table)} {o : Option Outcome}
    (hsome : ∀ x ∈ held, x.1.isSome = true ∧ x.2.isSome = true)
    (h : (handlePacketLive lib opts host cfg slotFree ifIndex (.complete p)).Runs s held o) :
    ∃ before t after, held = before ++ t :: after
      ∧ ∃ x ∈ before ++ [t], ∃ y ∈ t :: after,
        o = (handlePacket lib opts true host (cfg.withLinkMap lib y.2) slotFree ifIndex
          (.complete p)).eval x.1 := by
  obtain ⟨r, before, t, after, rfl, hgate, hrest⟩ := h.of_bind
  refine ⟨before, t, after, rfl, ?_⟩
  obtain ⟨q, hq, rfl⟩ := singleSnapshot_admitPacket hop (fun _ => True) _ _ _ hgate.of_zoom
    (fun _ _ => trivial)
  obtain ⟨x, hx, rfl⟩ := List.mem_map.mp hq
  refine ⟨x, hx, ?_⟩
  simp only [handlePacket, Call.eval_bind, Call.eval_ret]
  generalize (admitPacket lib opts true ifIndex (.complete p)).eval x.1 = r at hrest
  cases r with
  | none => exact ⟨t, List.mem_cons_self, by simpa using hrest.eq_of_ret⟩
  | some a =>
    cases slotFree with
    | false => exact ⟨t, List.mem_cons_self, hrest.eq_of_ret⟩
    | true =>
      obtain ⟨o', hhandle, rfl⟩ := hrest.of_bind_ret
      obtain ⟨q, hq, rfl⟩ := singleSnapshot_handleLive (fun _ => True) a.2 a.1 _ _ _
        hhandle.of_zoom (fun _ _ => trivial)
      obtain ⟨y, hy, rfl⟩ := List.mem_map.mp hq
      refine ⟨y, hy, ?_⟩
      obtain ⟨links, hlinks⟩ := Option.isSome_iff_exists.mp
        (hsome y (List.mem_append_right before hy)).2
      rw [hlinks, eval_handleLive]
      rfl

/-- The link map `name=br0 192.168.8.0/24`. -/
def movedLinks : LinkMap.Table :=
  ⟨[⟨[192, 168, 8, 0], { nameGlobs := ["br0".toList] }, rfl⟩]⟩

/-- A DISCOVER from an unnumbered interface that the policy has let through when both files
are reloaded: the new policy would deny the client, and the new link map has another subnet
for the interface. -/
theorem request_handled_by_snapshots_discover :
    ∃ o, (handlePacketLive .literal ⟨1500, false⟩ unnumberedHost bridgeOptions true 3
        (.complete (discoverPacket [0xaa] (by decide)))).Runs
          (some openTable, some bridgeLinks)
          [(some openTable, some bridgeLinks), (some MacPolicy.Table.empty, some movedLinks)] o
      ∧ o.map (fun o => o.sent.map (fun e => linkSelections e.message)) = some [[[192, 168, 8, 0]]]
      ∧ ∃ before t after,
        [(some openTable, some bridgeLinks), (some MacPolicy.Table.empty, some movedLinks)]
          = before ++ t :: after
        ∧ ∃ x ∈ before ++ [t], ∃ y ∈ t :: after,
          o = (handlePacket .literal ⟨1500, false⟩ true unnumberedHost
            (bridgeOptions.withLinkMap .literal y.2) true 3
            (.complete (discoverPacket [0xaa] (by decide)))).eval x.1 := by
  have hadmitted := Call.runs_eval_head ((admitPacket .literal ⟨1500, false⟩ true 3
    (.complete (discoverPacket [0xaa] (by decide)))).zoom Prod.fst)
    (some openTable, some bridgeLinks) [(some MacPolicy.Table.empty, some movedLinks)]
  have hrun : (handlePacketLive .literal ⟨1500, false⟩ unnumberedHost bridgeOptions true 3
      (.complete (discoverPacket [0xaa] (by decide)))).Runs (some openTable, some bridgeLinks)
        _ _ :=
    Call.Runs.bind [_] hadmitted (Call.runs_eval _ _)
  exact ⟨_, hrun, by decide,
    request_handled_by_snapshots _ _ _ _ _ _ (by decide) (by simp) hrun⟩

/-! ## Which line of the file decides -/

namespace LinkMap

/-- **The version of the link map file that is in force**: a whole content of the file,
whose table is published. -/
structure Version (lib : GoLib) (net : CIDRParser) (sh : Shared Char Table) (text : Text) :
    Prop where
  written : ∃ info, (info, text) ∈ sh.disk.history
  published : ∃ t warnings, parse lib net text = .ok (t, warnings) ∧ sh.snapshot = some t

/-- A published table that was read from the file is that of a version. -/
theorem version_of_whole {lib : GoLib} {net : CIDRParser} {file : String}
    {sh : Shared Char Table} {info : FileInfo} {t : Table}
    (h : Whole (watchConfig lib net file) sh.disk info t) (hp : sh.snapshot = some t) :
    ∃ text, Version lib net sh text ∧ FileMeans lib net (scanLines text).1 t.entries := by
  obtain ⟨text, htext, warnings, hrun⟩ := h
  have hparse : parse lib net text = .ok (t, warnings) := by
    cases hp : parse lib net text with
    | error e => simp [watchConfig, hp, Except.map] at hrun
    | ok p =>
      simp only [watchConfig, hp, Except.map, Except.ok.injEq, Prod.mk.injEq,
        Option.some.injEq] at hrun
      rw [← hrun.1, ← hrun.2]
  exact ⟨text, ⟨⟨info, htext⟩, t, warnings, hparse, hp⟩, (parse_ok_iff.mp ⟨warnings, hparse⟩).2⟩

end LinkMap

/-- An unnumbered ingress is announced by the subnet that the link map has for it. -/
theorem lookup_of_resolveGiaddr {lib : GoLib} {host : Host} {cfg : HandleOptions}
    {dec : Decision} {ifIndex : ℤ} {ifi : Interface} {t : LinkMap.Table} {g : Giaddrs}
    (hifi : host.interfaceByIndex ifIndex = .ok ifi)
    (haddrs : interfaceGlobalUnicastAddrs4 host ifi = .ok [])
    (hg : resolveGiaddr host (cfg.withLinkMap lib (some t)) dec ifIndex = .ok g) :
    t.lookup lib ifi.name (hardwareAddrString ifi.hardwareAddr) = some g.linkSubnet := by
  rw [resolveGiaddr_of_lookup hifi haddrs rfl] at hg
  exact (unnumberedGiaddr_ok_iff.mp hg).2.1

/-- **One line of the link map decides which subnet is announced.** While the link map
file is rewritten and reloaded in any way, a client's own request from an unnumbered
interface is answered for by one whole content of the file, in force at a moment of the
call: if no line of it accepts the interface, nothing is sent; otherwise every copy
carries the Link Selection of the first line that accepts it, under a usable giaddr. -/
theorem link_selection_by_version (lib : GoLib) (net : LinkMap.CIDRParser) (file : String)
    (host : Host) (cfg : HandleOptions) (dec : Option Decision) {ifIndex : ℤ} {layer : DHCPv4}
    (hop : layer.operation = opRequest) (hz : layer.relayHops = 0) {ifi : Interface}
    (hifi : host.interfaceByIndex ifIndex = .ok ifi)
    (haddrs : interfaceGlobalUnicastAddrs4 host ifi = .ok [])
    {s : Threads.State (Shared Char LinkMap.Table) (Pc Char LinkMap.Table)}
    {rest : List (Threads.State (Shared Char LinkMap.Table) (Pc Char LinkMap.Table))}
    {o : Outcome}
    (h : Reads (LinkMap.watchConfig lib net file) (handleLive lib host cfg dec ifIndex layer)
      s rest o) :
    ∃ st ∈ s :: rest, ∃ text, LinkMap.Version lib net st.shared text
      ∧ ((∀ l ∈ (scanLines text).1,
            ¬ LinkMap.LineAccepts lib ifi.name (hardwareAddrString ifi.hardwareAddr) l)
          ∧ o.attempts = []
        ∨ ∃ subnet,
          First (LinkMap.LineAccepts lib ifi.name (hardwareAddrString ifi.hardwareAddr))
              (LinkMap.LineSubnet net subnet) (scanLines text).1
            ∧ ∀ a ∈ o.attempts, ∃ ip, isGlobalUnicastIPv4 ip = true
              ∧ a.emission = .datagram (effectiveServerAddress cfg (dec.getD {}))
                { stamp host.sort layer
                    (installedOption82 ifIndex subnet (dec.getD {}).policyTag) with
                  relayAgentIP := ip }) := by
  obtain ⟨x, hx, rfl⟩ := singleSnapshot_handleLive (fun _ => True) dec layer _ _ _ h.runs
    (fun _ _ => trivial)
  obtain ⟨st, hst, t, info, rfl, hp, hwhole, -⟩ := h.held hx
  obtain ⟨text, hversion, hmeans⟩ := LinkMap.version_of_whole hwhole hp
  refine ⟨st, hst, text, hversion, ?_⟩
  -- whatever is attempted is a stamped copy
  have hstamped : ∀ a ∈ (handle host (cfg.withLinkMap lib (some t)) dec ifIndex layer).attempts,
      ∃ g ip, resolveGiaddr host (cfg.withLinkMap lib (some t)) (dec.getD {}) ifIndex = .ok g
        ∧ ip ∈ g.copies ∧ a.emission = .datagram (effectiveServerAddress cfg (dec.getD {}))
          { stamp host.sort layer
              (installedOption82 ifIndex g.linkSubnet (dec.getD {}).policyTag) with
            relayAgentIP := ip } := by
    intro a ha
    have hemits := (emits_of_mem_attempts ha).2
    generalize a.emission = e at hemits
    cases hemits with
    | @stamped g ip _ _ hg hip => exact ⟨g, ip, hg, hip, rfl⟩
    | passed _ hpos => exact absurd hz (UInt8.pos_iff_ne_zero.mp hpos)
    | returned hrep => exact absurd hrep (DHCPv4.not_reply_of_request hop)
    | delivered hrep => exact absurd hrep (DHCPv4.not_reply_of_request hop)
  rw [eval_handleLive]
  cases hl : t.lookup lib ifi.name (hardwareAddrString ifi.hardwareAddr) with
  | none =>
    refine .inl ⟨(LinkMap.lookup_eq_none_iff hmeans).mp hl, ?_⟩
    refine List.eq_nil_iff_forall_not_mem.mpr fun a ha => ?_
    obtain ⟨g, ip, hg, -⟩ := hstamped a ha
    have hsome := lookup_of_resolveGiaddr hifi haddrs hg
    rw [hl] at hsome
    cases hsome
  | some subnet =>
    refine .inr ⟨subnet, (LinkMap.lookup_eq_some_iff hmeans).mp hl, fun a ha => ?_⟩
    obtain ⟨g, ip, hg, hip, he⟩ := hstamped a ha
    have hsome := lookup_of_resolveGiaddr hifi haddrs hg
    rw [hl, Option.some.injEq] at hsome
    rw [hsome]
    exact ⟨ip, (copies_of_resolveGiaddr hg).2 ip hip, he⟩

/-- A DISCOVER from an unnumbered interface, while the link map file
`name=br0 192.168.7.0/24` is replaced by `name=br0 192.168.8.0/24`: the map is asked after
the reload. -/
theorem link_selection_by_version_bridge :
    ∃ s rest o, Reads (LinkMap.watchConfig .literal .ipv4 "/links")
        (handleLive .literal unnumberedHost bridgeOptions none 3 (discoverOf [0xaa])) s rest o
      ∧ s.shared.snapshot = some bridgeLinks
      ∧ o.sent.map (fun e => linkSelections e.message) = [[[192, 168, 8, 0]]]
      ∧ ∃ st ∈ s :: rest, ∃ text, LinkMap.Version .literal .ipv4 st.shared text
        ∧ ∃ subnet, First (LinkMap.LineAccepts .literal "br0".toList "02:00:00:00:00:03".toList)
            (LinkMap.LineSubnet .ipv4 subnet) (scanLines text).1
          ∧ ∀ a ∈ o.attempts, ∃ ip, isGlobalUnicastIPv4 ip = true
            ∧ a.emission = .datagram "10.0.0.1".toList
              { stamp unnumberedHost.sort (discoverOf [0xaa]) (installedOption82 3 subnet []) with
                relayAgentIP := ip } := by
  have hbridge : LinkMap.parse .literal .ipv4 "name=br0 192.168.7.0/24\n".toList
      = .ok (bridgeLinks, []) := rfl
  have hmoved : LinkMap.parse .literal .ipv4 "name=br0 192.168.8.0/24\n".toList
      = .ok (movedLinks, []) := rfl
  obtain ⟨s, s', h⟩ := exists_reloading ⟨_, LinkMap.run_watchConfig "/links" hbridge⟩
    ⟨_, LinkMap.run_watchConfig "/links" hmoved⟩
  obtain ⟨rest, -, -, hlast, hreads⟩ := h.exists_reads
  have hrun := Call.runs_eval_getLast (handleLive .literal unnumberedHost bridgeOptions none 3
    (discoverOf [0xaa])) (some bridgeLinks) (rest.map (fun st => st.shared.snapshot))
  rw [hlast] at hrun
  have hread := hreads hrun
  have hsent : ((handleLive .literal unnumberedHost bridgeOptions none 3
      (discoverOf [0xaa])).eval (some movedLinks)).sent.map (fun e => linkSelections e.message)
        = [[[192, 168, 8, 0]]] := by decide
  obtain ⟨st, hmem, text, hversion, ⟨-, hnil⟩ | hfirst⟩ := link_selection_by_version .literal
    .ipv4 "/links" unnumberedHost bridgeOptions none rfl rfl (show unnumberedHost.interfaceByIndex 3
      = .ok ⟨3, "br0".toList, [2, 0, 0, 0, 0, 3], true⟩ from rfl) rfl hread
  · rw [Outcome.sent, hnil] at hsent
    cases hsent
  · exact ⟨s, rest, _, hread, h.snap, hsent, st, hmem, text, hversion, hfirst⟩
