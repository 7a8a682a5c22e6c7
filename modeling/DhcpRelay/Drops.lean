import DhcpRelay.Exchange

/-!
# Why a packet is dropped

A packet that the relay receives and that nothing is sent for is dropped without a trace on
the wire, in one of many places: `handlePacket`, `ValidateLayers`, the policy gate, `Handle`
and its four handlers, and the loop over the interfaces of a reply. `Silent` lists the
reasons of the handlers, and `nothing_sent_iff` says that together with those of the gate
they are all there is: on a host whose sockets work, nothing is sent for a packet exactly
when one of them applies.

One direction needs what is sent to be inspected (`Emits`, `frame_of_mem_attempts`), the
other one that each handler sends something once its checks have passed.
-/

open Dhcp MacPolicy Relay

/-- The interface that the circuit id of a reply names, when it can carry a frame. -/
structure Circuit (host : Host) (layer : DHCPv4) (ifi : Interface) : Prop where
  ne_zero : extractAgentCircuitIDSubOptionData (subOptions layer) ≠ 0
  named : host.interfaceByIndex (extractAgentCircuitIDSubOptionData (subOptions layer)) = .ok ifi
  up : ifi.up = true
  hardwareAddr : ifi.hardwareAddr ≠ []

/-- An interface has an address that a unicast copy can come from. -/
def HasSource (host : Host) (nic : Interface) : Prop :=
  ∃ n ns, interfaceGlobalUnicastAddrs4 host nic = .ok (n :: ns)

/-- **Why a handler sends nothing for a message.** -/
inductive Silent (host : Host) (cfg : HandleOptions) (dec : Decision) (ifIndex : ℤ)
    (layer : DHCPv4) : Prop where
  | messageType : getMessageType layer = none → Silent host cfg dec ifIndex layer
  | operation : layer.operation ≠ opRequest → layer.operation ≠ opReply →
      Silent host cfg dec ifIndex layer
  | hopLimit : layer.operation = opRequest → cfg.maxHops ≤ layer.relayHops →
      Silent host cfg dec ifIndex layer
  /-- The interface has no address, and the link map or the host have none for it. -/
  | giaddr {e : String} : layer.operation = opRequest → layer.relayHops = 0 →
      resolveGiaddr host cfg dec ifIndex = .error e → Silent host cfg dec ifIndex layer
  | replyHops : layer.operation = opReply →
      layer.relayHops < 1 ∨ cfg.maxHops < layer.relayHops → Silent host cfg dec ifIndex layer
  | dropReply : layer.operation = opReply → dec.dropReply = true →
      Silent host cfg dec ifIndex layer
  /-- The reply is for another relay, and its giaddr is none to send to. -/
  | foreign : layer.operation = opReply → giaddrIsLocal host cfg layer.relayAgentIP = false →
      (∀ giaddr, IP.to4 layer.relayAgentIP = some giaddr →
        IP.isUnspecified giaddr = true ∨ IP.isLoopback giaddr = true
          ∨ IP.equal giaddr IP.ipv4bcast = true) → Silent host cfg dec ifIndex layer
  | circuit : layer.operation = opReply → giaddrIsLocal host cfg layer.relayAgentIP = true →
      (∀ ifi, ¬ Circuit host layer ifi) → Silent host cfg dec ifIndex layer
  /-- The policy selects interfaces for a unicast reply, and none of them has an address. -/
  | source {ifi : Interface} : layer.operation = opReply →
      giaddrIsLocal host cfg layer.relayAgentIP = true → Circuit host layer ifi →
      isUnicast layer = true →
      (∀ nic ∈ replyTargets host cfg dec.replyNICMatch ifi,
        nic.index ≠ ifi.index ∧ ¬ HasSource host nic) → Silent host cfg dec ifIndex layer

/-! ## The loop over the interfaces -/

section Loop

variable {host : Host} {replyType : ReplyType} {srcIP : IP} {ingress : Interface}
  {dstMAC : Bytes} {layer : DHCPv4}

/-- When an interface has no header for the reply. -/
theorem nicSource_error_iff {ipv4 : IPv4Header} {nic : Interface} :
    (∃ e, nicSource host replyType srcIP ingress layer ipv4 nic = .error e)
      ↔ replyType = unicastReply ∧ nic.index ≠ ingress.index ∧ ¬ HasSource host nic := by
  unfold nicSource HasSource
  by_cases hu : replyType = unicastReply
  · by_cases hidx : nic.index = ingress.index
    · simp [hu, hidx]
    · rw [if_pos hu, if_pos hidx]
      cases ha : interfaceGlobalUnicastAddrs4 host nic with
      | error e => simp [hu, hidx]
      | ok addrs =>
        cases addrs with
        | nil => simp [hu, hidx]
        | cons n ns => simp
  · simp [hu]

/-- **The loop sends something** exactly when one of the interfaces has a header for it. -/
theorem exists_mem_sendReplies (hser : ∀ n, host.serialize n = none)
    (hsend : ∀ n, host.send n = none) {nics : List Interface}
    (hhw : ∀ nic ∈ nics, nic.hardwareAddr ≠ []) (n : ℕ) (ipv4 : IPv4Header) :
    (∃ e, (⟨e, none⟩ : Attempt)
        ∈ (sendReplies host replyType srcIP ingress dstMAC layer n ipv4 nics).1)
      ↔ ∃ nic ∈ nics, ∃ header,
        nicSource host replyType srcIP ingress layer ipv4 nic = .ok header := by
  induction nics generalizing n with
  | nil => simp [sendReplies_nil]
  | cons nic nics ih =>
    have hrest := ih (fun x hx => hhw x (List.mem_cons_of_mem _ hx)) (n + 1)
    have hone : (∃ e, (⟨e, none⟩ : Attempt)
          ∈ (sendReplies host replyType srcIP ingress dstMAC layer n ipv4 [nic]).1)
        ↔ ∃ header, nicSource host replyType srcIP ingress layer ipv4 nic = .ok header := by
      have hlen : ¬ nic.hardwareAddr.length = 0 := by
        rw [List.length_eq_zero_iff]
        exact hhw nic List.mem_cons_self
      cases hsrc : nicSource host replyType srcIP ingress layer ipv4 nic with
      | error e => simp [sendReplies_of_error hsrc, sendReplies_nil]
      | ok header =>
        simp [sendReplies_of_ok hsrc, sendReplies_nil, sendReply_ok hlen (hser n), hsend]
    rw [sendReplies_cons, List.exists_mem_cons_iff, ← hone, ← hrest]
    simp only [List.mem_append, exists_or]

end Loop

/-! ## The handlers -/

section Handlers

variable {R : Node} {dec : Decision} {layer : DHCPv4}

/-- **The ingress interface of a reply to a client of this relay** is that of the circuit
id, whoever decodes Option 82. -/
theorem replyIngress_iff_circuit (hw : R.Works)
    (hlocal : giaddrIsLocal R.host R.cfg layer.relayAgentIP = true)
    (hsub : dec.replySubOpts = [] ∨ dec.replySubOpts = subOptions layer) {ifi : Interface} :
    (∃ srcIP, replyIngress R.host dec layer = .ok (srcIP, ifi)) ↔ Circuit R.host layer ifi := by
  obtain ⟨srcIP, -, hsource⟩ :=
    replySource_of_isGlobalUnicastIPv4 (isGlobalUnicastIPv4_of_giaddrIsLocal hlocal)
  have hdecoded : replySubOptions dec layer
      = if subOptions layer = [] then .error "no Relay Agent Information"
        else .ok (subOptions layer) := by
    rcases hsub with hnil | hsub
    · exact replySubOptions_of_nil hnil layer
    · by_cases hnil : subOptions layer = []
      · exact replySubOptions_of_nil (hsub.trans hnil) layer
      · rw [replySubOptions, hsub, if_neg hnil, if_neg hnil]
  have hcircuit : Circuit R.host layer ifi ↔ circuitInterface R.host (subOptions layer) = .ok ifi :=
    ⟨fun h => circuitInterface_ok_iff.mpr ⟨h.ne_zero, h.named, h.up, h.hardwareAddr⟩, fun h => by
      obtain ⟨h0, hn, hup, hhw⟩ := circuitInterface_ok_iff.mp h
      exact ⟨h0, hn, hup, hhw⟩⟩
  rw [hcircuit]
  simp only [replyIngress_ok_iff, hsource, hdecoded, hw.setNetworkLayer, and_true]
  by_cases hnil : subOptions layer = []
  · -- without sub-options there is no circuit id
    have hno : circuitInterface R.host [] ≠ .ok ifi := fun h =>
      (circuitInterface_ok_iff.mp h).1 rfl
    simp [hnil, hno]
  · simp [hnil]

/-- **A reply to a client of this relay** within the hop limits: what is sent for it, if
anything, and when. -/
theorem exists_sent_of_local (hw : R.Works) {dec : Option Decision} (ifIndex : ℤ)
    (hsub : (dec.getD {}).replySubOpts = [] ∨ (dec.getD {}).replySubOpts = subOptions layer)
    (hy : layer.yourClientIP.length = 4) (hc : layer.clientIP.length = 4)
    (hop : layer.operation = opReply) (htype : (getMessageType layer).isSome = true)
    (h1 : 1 ≤ layer.relayHops) (hmax : layer.relayHops ≤ R.cfg.maxHops)
    (hdrop : (dec.getD {}).dropReply = false)
    (hlocal : giaddrIsLocal R.host R.cfg layer.relayAgentIP = true) :
    (handle R.host R.cfg dec ifIndex layer).sent ≠ []
      ↔ ∃ ifi, Circuit R.host layer ifi
        ∧ ∃ nic ∈ replyTargets R.host R.cfg (dec.getD {}).replyNICMatch ifi,
          isUnicast layer = true → nic.index = ifi.index ∨ HasSource R.host nic := by
  obtain ⟨rt, hrt, huni, heq⟩ := handle_of_local ifIndex hop htype h1 hmax hdrop hlocal
  rw [heq]
  constructor
  · intro hne
    obtain ⟨e, he⟩ := List.exists_mem_of_ne_nil _ hne
    obtain ⟨srcIP, ifi, -, ipv4, nic, header, -, hin, -, hnic, hsrc, -⟩ :=
      frame_of_mem_attempts (Outcome.mem_sent.mp he)
    refine ⟨ifi, (replyIngress_iff_circuit hw hlocal hsub).mp ⟨srcIP, hin⟩, nic, hnic, ?_⟩
    intro hu
    by_contra hno
    rw [not_or] at hno
    obtain ⟨e, herr⟩ := nicSource_error_iff.mpr ⟨huni.mpr hu, hno⟩
    rw [hsrc] at herr
    cases herr
  · rintro ⟨ifi, hcirc, nic, hnic, hok⟩
    obtain ⟨srcIP, hin⟩ := (replyIngress_iff_circuit hw hlocal hsub).mpr hcirc
    obtain ⟨dstMAC, layer', ipv4, haddr⟩ := replyAddressing_ok hrt srcIP
      (show (stripRelay layer).yourClientIP.length = 4 from hy) hc
      (replyIPv4Header R.host R.cfg) R.cfg.broadcastReplyL2Unicast
    obtain ⟨header, hsrc⟩ : ∃ header,
        nicSource R.host rt srcIP ifi layer' ipv4 nic = .ok header := by
      cases hs : nicSource R.host rt srcIP ifi layer' ipv4 nic with
      | ok header => exact ⟨header, rfl⟩
      | error e =>
        obtain ⟨hu, hno⟩ := nicSource_error_iff.mp ⟨e, hs⟩
        exact absurd (hok (huni.mp hu)) (not_or.mpr hno)
    obtain ⟨e, he⟩ := (exists_mem_sendReplies hw.serialize hw.send
      (fun t ht => (usable_of_mem_replyTargets hin ht).2.1) 0 ipv4).mpr ⟨nic, hnic, header, hsrc⟩
    refine List.ne_nil_of_mem (Outcome.mem_sent.mpr (?_ : (⟨e, none⟩ : Attempt) ∈ _))
    rw [handleGenericReply_eq hdrop hin haddr hw.rawCreate hw.rawAttachBPF]
    exact he

end Handlers

/-- There is always an interface for a reply to go out of. -/
theorem replyTargets_ne_nil (host : Host) (cfg : HandleOptions)
    (sel : Option (Text → Text → Bool)) (ingress : Interface) :
    replyTargets host cfg sel ingress ≠ [] := by
  rcases replyTargets_cases host cfg sel ingress with ⟨h, -⟩ | ⟨_, -, -, hne, h⟩
  · rw [h]
    exact List.cons_ne_nil _ _
  · rw [h]
    exact hne

/-- A request that something is sent for has passed the checks for requests. -/
theorem Emits.of_request {host : Host} {cfg : HandleOptions} {dec : Decision} {ifIndex : ℤ}
    {layer : DHCPv4} {e : Emission} (hop : layer.operation = opRequest)
    (h : Emits host cfg dec ifIndex layer e) :
    layer.relayHops < cfg.maxHops
      ∧ (layer.relayHops = 0 → ∃ g, resolveGiaddr host cfg dec ifIndex = .ok g) := by
  cases h with
  | stamped _ hzero hg =>
    rw [hzero]
    exact ⟨UInt8.lt_of_lt_of_le (by decide) cfg.maxHops_pos, fun _ => ⟨_, hg⟩⟩
  | passed _ hpos hlt =>
    exact ⟨hlt, fun hzero => absurd (hzero ▸ hpos) (UInt8.lt_irrefl 0)⟩
  | returned hrep => exact absurd hrep (DHCPv4.not_reply_of_request hop)
  | delivered hrep => exact absurd hrep (DHCPv4.not_reply_of_request hop)

/-- A reply that something is sent for has passed the checks for replies. -/
theorem Emits.of_reply {host : Host} {cfg : HandleOptions} {dec : Decision} {ifIndex : ℤ}
    {layer : DHCPv4} {e : Emission} (hop : layer.operation = opReply)
    (h : Emits host cfg dec ifIndex layer e) :
    1 ≤ layer.relayHops ∧ layer.relayHops ≤ cfg.maxHops ∧ dec.dropReply = false
      ∧ (giaddrIsLocal host cfg layer.relayAgentIP = false →
        ∃ giaddr, IP.to4 layer.relayAgentIP = some giaddr ∧ IP.isUnspecified giaddr = false
          ∧ IP.isLoopback giaddr = false ∧ IP.equal giaddr IP.ipv4bcast = false) := by
  cases h with
  | stamped hreq => exact absurd hop (DHCPv4.not_reply_of_request hreq)
  | passed hreq => exact absurd hop (DHCPv4.not_reply_of_request hreq)
  | returned _ h1 hmax hdrop _ h4 hu hl hb =>
    exact ⟨h1, hmax, hdrop, fun _ => ⟨_, h4, hu, hl, hb⟩⟩
  | delivered _ h1 hmax hdrop hlocal _ =>
    exact ⟨h1, hmax, hdrop, fun hno => absurd (hlocal.symm.trans hno) Bool.true_eq_false.mp⟩

section Reasons

variable {R : Node} {dec : Option Decision} {ifIndex : ℤ} {layer : DHCPv4}

/-- A request of a valid type below the hop limit is sent, when its giaddr resolves. -/
theorem silent_request (hw : R.Works) (hop : layer.operation = opRequest)
    (htype : (getMessageType layer).isSome = true)
    (h : (handle R.host R.cfg dec ifIndex layer).sent = []) :
    Silent R.host R.cfg (dec.getD {}) ifIndex layer := by
  by_cases hmax : R.cfg.maxHops ≤ layer.relayHops
  · exact .hopLimit hop hmax
  · by_cases hzero : layer.relayHops = 0
    · cases hg : resolveGiaddr R.host R.cfg (dec.getD {}) ifIndex with
      | error e => exact .giaddr hop hzero hg
      | ok g =>
        rw [sent_stamped hw.serialize hw.send hop htype hzero hg, List.map_eq_nil_iff] at h
        exact absurd h (copies_of_resolveGiaddr hg).1
    · have hpos : 0 < layer.relayHops := UInt8.pos_iff_ne_zero.mpr hzero
      rw [sent_passed (hw.serialize 0) (hw.send 0) dec ifIndex hop htype hpos
        (UInt8.not_le.mp hmax)] at h
      cases h

/-- A reply of a valid type is sent, when it is for a client of this relay and has an
interface to go out of, or for another relay that has a proper address. -/
theorem silent_reply (hw : R.Works)
    (hsub : (dec.getD {}).replySubOpts = [] ∨ (dec.getD {}).replySubOpts = subOptions layer)
    (hy : layer.yourClientIP.length = 4) (hc : layer.clientIP.length = 4)
    (hop : layer.operation = opReply) (htype : (getMessageType layer).isSome = true)
    (h : (handle R.host R.cfg dec ifIndex layer).sent = []) :
    Silent R.host R.cfg (dec.getD {}) ifIndex layer := by
  by_cases hhops : layer.relayHops < 1 ∨ R.cfg.maxHops < layer.relayHops
  · exact .replyHops hop hhops
  · obtain ⟨h1, hmax⟩ := not_or.mp hhops
    rw [UInt8.not_lt] at h1 hmax
    cases hdrop : (dec.getD {}).dropReply with
    | true => exact .dropReply hop hdrop
    | false =>
      cases hlocal : giaddrIsLocal R.host R.cfg layer.relayAgentIP with
      | false =>
        refine .foreign hop hlocal fun giaddr h4 => ?_
        by_contra hno
        simp only [not_or, Bool.not_eq_true] at hno
        have hsent : forwardRelayedReply R.host layer = relayToServer R.host (IP.string4 giaddr)
            { layer with relayHops := layer.relayHops - 1 } := by
          simp [forwardRelayedReply, h4, hno, UInt8.not_lt.mpr h1]
        rw [handle_reply_eq ifIndex hop htype h1 hmax hdrop, hlocal, Bool.not_false, if_pos rfl,
          hsent, relayToServer, hw.serialize, hw.send] at h
        cases h
      | true =>
        have hiff := exists_sent_of_local hw ifIndex hsub hy hc hop htype h1 hmax hdrop hlocal
        by_cases hcirc : ∃ ifi, Circuit R.host layer ifi
        · obtain ⟨ifi, hcirc⟩ := hcirc
          have hall : ∀ nic ∈ replyTargets R.host R.cfg (dec.getD {}).replyNICMatch ifi,
              isUnicast layer = true ∧ nic.index ≠ ifi.index ∧ ¬ HasSource R.host nic := by
            intro nic hnic
            by_contra hno
            refine hiff.mpr ⟨ifi, hcirc, nic, hnic, fun hu => ?_⟩ h
            by_contra hneither
            exact hno ⟨hu, not_or.mp hneither⟩
          obtain ⟨nic, hnic⟩ := List.exists_mem_of_ne_nil _
            (replyTargets_ne_nil R.host R.cfg (dec.getD {}).replyNICMatch ifi)
          exact .source hop hlocal hcirc (hall nic hnic).1 fun x hx => (hall x hx).2
        · exact .circuit hop hlocal (not_exists.mp hcirc)

/-- **What a handler sends nothing for**, on a host whose sockets work. -/
theorem handle_silent_iff (hw : R.Works)
    (hsub : (dec.getD {}).replySubOpts = [] ∨ (dec.getD {}).replySubOpts = subOptions layer)
    (hy : layer.yourClientIP.length = 4) (hc : layer.clientIP.length = 4) :
    (handle R.host R.cfg dec ifIndex layer).sent = []
      ↔ Silent R.host R.cfg (dec.getD {}) ifIndex layer := by
  constructor
  · intro h
    cases htype : getMessageType layer with
    | none => exact .messageType htype
    | some mt =>
      have hsome : (getMessageType layer).isSome = true := by
        rw [htype]
        rfl
      by_cases hreq : layer.operation = opRequest
      · exact silent_request hw hreq hsome h
      · by_cases hrep : layer.operation = opReply
        · exact silent_reply hw hsub hy hc hrep hsome h
        · exact .operation hreq hrep
  · intro h
    rw [List.eq_nil_iff_forall_not_mem]
    intro e he
    obtain ⟨htype, hemits⟩ := emits_of_mem_attempts (Outcome.mem_sent.mp he)
    -- what is sent has passed all checks of its handler
    cases h with
    | messageType hnone =>
      rw [hnone] at htype
      cases htype
    | operation hreq hrep =>
      cases hemits with
      | stamped h => exact hreq h
      | passed h => exact hreq h
      | returned h => exact hrep h
      | delivered h => exact hrep h
    | hopLimit hop hmax => exact UInt8.not_le.mpr (hemits.of_request hop).1 hmax
    | giaddr hop hzero hg =>
      obtain ⟨g, hok⟩ := (hemits.of_request hop).2 hzero
      rw [hg] at hok
      cases hok
    | replyHops hop hhops =>
      obtain ⟨h1, hmax, -⟩ := hemits.of_reply hop
      exact hhops.elim (UInt8.not_lt.mpr h1) (UInt8.not_lt.mpr hmax)
    | dropReply hop hdrop =>
      obtain ⟨-, -, hkeep, -⟩ := hemits.of_reply hop
      rw [hdrop] at hkeep
      cases hkeep
    | foreign hop hlocal hbad =>
      obtain ⟨-, -, -, hproper⟩ := hemits.of_reply hop
      obtain ⟨giaddr, h4, hu, hl, hb⟩ := hproper hlocal
      have hbad := hbad giaddr h4
      simp [hu, hl, hb] at hbad
    | circuit hop hlocal hno =>
      obtain ⟨h1, hmax, hdrop, -⟩ := hemits.of_reply hop
      obtain ⟨ifi, hcirc, -⟩ := (exists_sent_of_local hw ifIndex hsub hy hc hop htype h1 hmax hdrop
        hlocal).mp (List.ne_nil_of_mem he)
      exact hno ifi hcirc
    | @source ifi hop hlocal hcirc hu hno =>
      obtain ⟨h1, hmax, hdrop, -⟩ := hemits.of_reply hop
      obtain ⟨ifi', hcirc', nic, hnic, hok⟩ := (exists_sent_of_local hw ifIndex hsub hy hc hop htype
        h1 hmax hdrop hlocal).mp (List.ne_nil_of_mem he)
      cases hcirc.named.symm.trans hcirc'.named
      exact absurd (hok hu) (not_or.mpr (hno nic hnic))

end Reasons

/-! ## The whole way of a packet -/

/-- The policy denies a packet: a request by the client's identifiers, a reply also by its
tag. -/
def Denies (t : Table) (layer : DHCPv4) : Prop :=
  (if layer.operation = opReply then replyAction t layer else baseAction t layer).kind = .blackhole

/-- What a policy decides for a packet that it lets through. -/
def policyDecision (lib : GoLib) (t : Table) (layer : DHCPv4) : Decision :=
  if layer.operation = opReply then
    { replyConfig lib (replyAction t layer) with replySubOpts := subOptions layer }
  else
    requestConfig (t.lookupID [clientID layer, layer.clientHWAddr]).1
      (t.lookupID [clientID layer, layer.clientHWAddr]).2

theorem eval_policyForPacket_of_denies {lib : GoLib} {t : Table} {layer : DHCPv4}
    (h : Denies t layer) : (policyForPacket lib layer).eval (some t) = (none, true) := by
  unfold Denies at h
  by_cases hop : layer.operation = opReply
  · rw [if_pos hop] at h
    exact eval_policyForPacket_of_blackhole hop h
  · rw [if_neg hop] at h
    rw [eval_policyForPacket_request lib t hop, requestOutcome]
    exact if_pos h

theorem eval_policyForPacket_of_not_denies {lib : GoLib} {t : Table} {layer : DHCPv4}
    (h : ¬ Denies t layer) :
    (policyForPacket lib layer).eval (some t) = (some (policyDecision lib t layer), false) := by
  unfold Denies at h
  unfold policyDecision
  by_cases hop : layer.operation = opReply
  · rw [if_pos hop] at h ⊢
    exact eval_policyForPacket_of_action hop h
  · rw [if_neg hop] at h ⊢
    rw [eval_policyForPacket_request lib t hop, requestOutcome]
    exact if_neg h

theorem replySubOpts_policyDecision (lib : GoLib) (t : Table) (layer : DHCPv4) :
    (policyDecision lib t layer).replySubOpts = []
      ∨ (policyDecision lib t layer).replySubOpts = subOptions layer := by
  unfold policyDecision
  by_cases hop : layer.operation = opReply
  · rw [if_pos hop]
    exact .inr rfl
  · rw [if_neg hop]
    exact .inl rfl

/-- **All the reasons there are.** On a host whose sockets work, with a handler slot free:
nothing is sent for a packet exactly when it has no valid interface, is not a valid DHCP
packet for the relay, is denied by the policy if there is one, or is one that the handlers
send nothing for. -/
theorem nothing_sent_iff (lib : GoLib) {R : Node} (hw : R.Works) (i : ℤ) (p : Packet) :
    (R.sent lib i p = []
        ↔ i < 1 ∨ ¬ R.Accepts lib p ∨ Silent R.host R.cfg {} i p.filtered)
      ∧ ∀ t, R.sentUnder lib t i p = []
        ↔ i < 1 ∨ ¬ R.Accepts lib p ∨ Denies t p.filtered
          ∨ Silent R.host R.cfg (policyDecision lib t p.filtered) i p.filtered := by
  rcases admitPacket_cases lib R.opts i (.complete p) with hnone | ⟨q, hq, hi, hp⟩
  · have hbad : i < 1 ∨ ¬ R.Accepts lib p := by
      by_contra hok
      obtain ⟨hi, hp⟩ := not_or.mp hok
      have hadm := admitPacket_of_no_policy (not_lt.mp hi) (not_not.mp hp)
      rw [hnone] at hadm
      cases hadm
    rw [← or_assoc]
    refine ⟨⟨fun _ => .inl hbad, fun _ => ?_⟩, fun t => ?_⟩
    · rw [Node.sent, handlePacket, hnone]
      rfl
    · rw [← or_assoc]
      refine ⟨fun _ => .inl hbad, fun _ => ?_⟩
      rw [Node.sentUnder, handlePacket, hnone]
      rfl
  · cases hq
    have hp : R.Accepts lib p := hp
    have hy : p.filtered.yourClientIP.length = 4 := p.decoded.length_yourClientIP
    have hc : p.filtered.clientIP.length = 4 := p.decoded.length_clientIP
    simp only [not_lt.mpr hi, hp, not_true_eq_false, false_or]
    refine ⟨?_, fun t => ?_⟩
    · rw [Node.sent_of_accepts hp hi]
      exact handle_silent_iff hw (.inl rfl) hy hc
    · by_cases hden : Denies t p.filtered
      · rw [Node.sentUnder_of_dropped (eval_policyForPacket_of_denies hden)]
        exact ⟨fun _ => .inl hden, fun _ => rfl⟩
      · rw [Node.sentUnder_of_passed hp hi (eval_policyForPacket_of_not_denies hden)]
        simp only [hden, false_or]
        exact handle_silent_iff hw (replySubOpts_policyDecision lib t p.filtered) hy hc

/-- A DISCOVER that an empty policy denies, and that nothing else speaks against. -/
theorem nothing_sent_iff_denied :
    firstNode.Works ∧ Denies Table.empty (discoverPacket [0xaa] (by decide)).filtered
      ∧ firstNode.sentUnder .literal Table.empty 2 (discoverPacket [0xaa] (by decide)) = []
      ∧ ¬ Silent firstNode.host firstNode.cfg {} 2 (discoverPacket [0xaa] (by decide)).filtered := by
  have hworks : firstNode.Works := ⟨fun _ => rfl, fun _ => rfl, rfl, rfl, rfl⟩
  have hden : Denies Table.empty (discoverPacket [0xaa] (by decide)).filtered := rfl
  have h := nothing_sent_iff .literal hworks 2 (discoverPacket [0xaa] (by decide))
  refine ⟨hworks, hden, (h.2 Table.empty).mpr (.inr (.inr (.inl hden))), fun hsilent => ?_⟩
  have hsent : firstNode.sent .literal 2 (discoverPacket [0xaa] (by decide)) ≠ [] := by decide
  exact hsent (h.1.mpr (.inr (.inr hsilent)))
