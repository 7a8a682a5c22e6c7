import DhcpRelay.Exchange
import DhcpRelay.IfCache

/-!
# How old the interfaces of a reply are

A policy may select the interfaces that a reply goes out of, and they are looked up in the
interface cache. The cache is shared by all handlers and knows the host as it was at the
last enumeration, so that a reply may go out of an interface that is not there any more.

`fresh_targets` puts the handler on top of the cache: a reply is handled with what a call of
the cache has returned, in any interleaving of any number of calls, and every frame goes out
of the ingress interface, or of one that was up when the interfaces were enumerated, less
than `ttl` ago or for this very call. Only where the enumeration fails it is older, and then
it is of the latest one there was.
-/

open Dhcp Relay IfCache

/-- What a call of `Interfaces` has returned, as the handlers get it. -/
def IfCache.Result.answer (r : Result) : List Interface × Option String :=
  ((r.ifaces.map Slice.elems).getD [], r.err)

/-- **An interface was listed lately**: by the enumeration of the call itself, or in a
snapshot that had not expired when the call looked. -/
def IfCache.Result.Lists (ttl : ℤ) (sh : Shared) (r : Result) (nic : Interface) : Prop :=
  ∃ source : Slice, nic ∈ source.elems
    ∧ (⟨r.call, .ok source⟩ ∈ sh.enums
      ∨ ∃ s t c, r.checked = some (s, t) ∧ s.ifaces = source ∧ ⟨c, .ok source⟩ ∈ sh.enums
        ∧ t - s.fetched < ttl)

/-- **The interfaces of a result are of an enumeration**, a late one or, after an error, the
latest that was kept. -/
theorem IfCache.Result.Sound.listed {ttl : ℤ} {sh : Shared} {r : Result} (h : r.Sound ttl sh)
    {nic : Interface} (hnic : nic ∈ r.answer.1) :
    (r.err = none → r.Lists ttl sh nic)
      ∧ ∀ e, r.err = some e → ∃ s, r.history.head? = some s ∧ nic ∈ s.ifaces.elems := by
  constructor
  · intro herr
    obtain ⟨copy, source, hcopy, helems, horigin⟩ := h.ok herr
    rw [Result.answer, hcopy] at hnic
    refine ⟨source, helems ▸ hnic, ?_⟩
    rcases horigin with hown | ⟨s, t, c, hs, hsrc, hmem, -, hage⟩
    · exact .inl hown
    · exact .inr ⟨s, t, c, hs, hsrc, hmem, hage⟩
  · intro e herr
    rcases h.failed e herr with ⟨-, hnil⟩ | ⟨s, copy, hs, hcopy, helems⟩
    · rw [Result.answer, hnil] at hnic
      exact absurd hnic List.not_mem_nil
    · rw [Result.answer, hcopy] at hnic
      exact ⟨s, hs, helems ▸ hnic⟩

/-- **What is sent as a frame goes out of the ingress interface or of one that is selected**
among those that the cache has given. -/
theorem frame_out_of {host : Host} {cfg : HandleOptions} {dec : Option Decision} {ifIndex : ℤ}
    {layer : DHCPv4} {f : Frame} (he : .frame f ∈ (handle host cfg dec ifIndex layer).sent) :
    ∃ srcIP ifi, replyIngress host (dec.getD {}) layer = .ok (srcIP, ifi)
      ∧ (f.nic = ifi.index ∨ ∃ nic accepts, f.nic = nic.index
        ∧ (dec.getD {}).replyNICMatch = some accepts ∧ nic ∈ host.interfaces.1 ∧ nic.up = true
        ∧ accepts nic.name (hardwareAddrString nic.hardwareAddr) = true) := by
  have ha := Outcome.mem_sent.mp he
  obtain ⟨htype, hemits⟩ := emits_of_mem_attempts ha
  cases hemits with
  | delivered hop h1 hmax hdrop hlocal =>
    obtain ⟨rt, -, -, hrt⟩ := handle_of_local ifIndex hop htype h1 hmax hdrop hlocal
    rw [hrt] at ha
    obtain ⟨srcIP, ifi, -, -, nic, -, f', hin, -, hnic, -, hf, hidx, -⟩ := frame_of_mem_attempts ha
    cases hf
    refine ⟨srcIP, ifi, hin, ?_⟩
    rcases replyTargets_cases host cfg (dec.getD {}).replyNICMatch ifi with
      ⟨hall, -⟩ | ⟨accepts, hsel, -, -, hall⟩
    · rw [hall] at hnic
      rw [List.mem_singleton.mp hnic] at hidx
      exact .inl hidx
    · rw [hall] at hnic
      obtain ⟨hmem, hup, -, hacc⟩ := mem_selectReplyInterfaces.mp hnic
      exact .inr ⟨nic, accepts, hidx, hsel, hmem, hup, hacc⟩

/-- **No reply goes out of an interface that the host has lost long ago.** In every
interleaving of the calls of the cache, with caching enabled: let a message be handled with
what one of the calls has returned. Every frame that is sent goes out of the interface of the
circuit id, or of one that the policy selects and that was up when it was listed: less than
`ttl` before the call looked, or by the call itself; and if the call has met an error, in the
latest snapshot there was. -/
theorem fresh_targets (ttl : ℤ) (httl : 0 < ttl) {st : Threads.State Shared Pc}
    (h : (caching ttl).system.Reachable st) {r : Result} (hr : r ∈ st.shared.results)
    {host : Host} (hhost : host.interfaces = r.answer) (cfg : HandleOptions)
    (dec : Option Decision) (ifIndex : ℤ) (layer : DHCPv4) :
    ∀ f, .frame f ∈ (handle host cfg dec ifIndex layer).sent →
      ∃ srcIP ifi, replyIngress host (dec.getD {}) layer = .ok (srcIP, ifi)
        ∧ (f.nic = ifi.index ∨ ∃ nic accepts, f.nic = nic.index
          ∧ (dec.getD {}).replyNICMatch = some accepts ∧ nic.up = true
          ∧ accepts nic.name (hardwareAddrString nic.hardwareAddr) = true
          ∧ (r.err = none → r.Lists ttl st.shared nic)
          ∧ ∀ e, r.err = some e → ∃ s, r.history.head? = some s ∧ nic ∈ s.ifaces.elems) := by
  intro f hf
  obtain ⟨srcIP, ifi, hin, hnic⟩ := frame_out_of hf
  refine ⟨srcIP, ifi, hin, hnic.imp_right ?_⟩
  rintro ⟨nic, accepts, hidx, hsel, hmem, hup, hacc⟩
  rw [hhost] at hmem
  obtain ⟨hok, hfailed⟩ := ((sound_of_reachable httl h).1.results r hr).listed hmem
  exact ⟨nic, accepts, hidx, hsel, hup, hacc, hok, hfailed⟩

/-- A host with two interfaces, of which the cache has seen the first one. -/
def halfSeenHost : Host := { twoNICHost with interfaces := ([eth0], none) }

/-- An ACK for a client behind the second interface. -/
def secondNICAck : DHCPv4 :=
  { ackOf [192, 168, 50, 77] [0, 0, 0, 0] with
    options := [newDHCPOption optMessageType [5], installedOption82 3 [] []] }

/-- The ACK goes out of the first interface, which is selected and which the cache has just
listed. -/
theorem fresh_targets_ack :
    ∃ st r f, (caching 1).system.Reachable st ∧ r ∈ st.shared.results
      ∧ .frame f ∈ (handle halfSeenHost plainOptions
          (some { replyNICMatch := some fun _ _ => true }) 3 secondNICAck).sent
      ∧ (∃ srcIP ifi, replyIngress halfSeenHost { replyNICMatch := some fun _ _ => true }
          secondNICAck = .ok (srcIP, ifi) ∧ ifi.index = 3)
      ∧ ∃ nic, f.nic = nic.index ∧ nic.index = 2 ∧ r.Lists 1 st.shared nic := by
  have hinit : (caching 1).system.Reachable ⟨{ now := 0 }, fun _ => .idle⟩ :=
    .init ⟨⟨0, rfl⟩, rfl⟩
  have hreach := Threads.reachable_of_run hinit run_stores
  let r : Result := ⟨0, some ⟨1, [eth0]⟩, none, none, [⟨0, 0, [eth0]⟩]⟩
  have hr : r ∈ stored0.results := List.mem_cons_self
  have hhost : halfSeenHost.interfaces = r.answer := rfl
  have hingress : replyIngress halfSeenHost { replyNICMatch := some fun _ _ => true } secondNICAck
      = .ok ([192, 168, 50, 1], ⟨3, "eth1".toList, [2, 0, 0, 0, 0, 3], true⟩) := rfl
  obtain ⟨f, hf, hnic⟩ : ∃ f, .frame f ∈ (handle halfSeenHost plainOptions
      (some { replyNICMatch := some fun _ _ => true }) 3 secondNICAck).sent ∧ f.nic = 2 :=
    ⟨_, List.Mem.head _, rfl⟩
  obtain ⟨srcIP, ifi, hin, hout⟩ :=
    fresh_targets 1 (by decide) hreach hr hhost plainOptions _ _ _ f hf
  cases hingress.symm.trans hin
  rcases hout with hown | ⟨nic, -, hidx, -, -, -, hok, -⟩
  · exact absurd (hnic.symm.trans hown) (by decide)
  · exact ⟨_, r, f, hreach, hr, hf, ⟨_, _, hin, rfl⟩, nic, hidx, hidx.symm.trans hnic, hok rfl⟩
