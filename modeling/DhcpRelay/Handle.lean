import DhcpRelay.Reply

/-!
# Handling a message

`handle` dispatches a message to one of the four handlers
(`pkg/dhcp4/dhcp4.go`): by its operation, and then by its hop count for a
request and by the owner of its giaddr for a reply. It is `handleBy` on a link map
that does not change (`Request`).

`Emits` lists what a handled message can turn into, one constructor per
handler, and `emits_of_mem_attempts` says that nothing else is ever sent. The
theorems about hops, stamps and transparency are case analyses on it, and do
not look into the handlers.
-/

open Dhcp MacPolicy

/-! ## The dispatch -/

/-- `Handle`, the case of a reply. It carries the hop count of the request it
answers, and a reply of no hop or of too many is dropped. -/
def handleReply (host : Host) (cfg : HandleOptions) (dec : Decision)
    (layer : DHCPv4) : Outcome :=
  if layer.relayHops < 1 ∨ layer.relayHops > cfg.maxHops then { layer }
  else if dec.dropReply then { layer }
  else if !giaddrIsLocal host cfg layer.relayAgentIP then forwardRelayedReply host layer
  else if isUnicast layer then handleGenericReply host cfg dec layer unicastReply
  else if isBroadcast layer then handleGenericReply host cfg dec layer broadcastReply
  else { layer }

section LinkMap

variable {m : Type → Type} [Monad m] (linkMap : Option (Text → Text → m (Option IP)))

/-- `Handle`, the case of a request: one that has a hop behind it has been
stamped. -/
def handleRequestBy (host : Host) (cfg : HandleOptions) (dec : Decision) (ifIndex : ℤ)
    (layer : DHCPv4) : m Outcome :=
  if layer.relayHops > 0 then pure (forwardRelayedRequest host cfg dec layer)
  else handleGenericRequestBy linkMap host cfg dec ifIndex layer

/-- **`Handle`**, over the way that the link map is asked. A packet that no policy matched
has the zero decision. -/
def handleBy (host : Host) (cfg : HandleOptions) (dec : Option Decision) (ifIndex : ℤ)
    (layer : DHCPv4) : m Outcome :=
  match getMessageType layer with
  | none => pure { layer }
  | some _ =>
    if layer.operation = opRequest then handleRequestBy linkMap host cfg (dec.getD {}) ifIndex layer
    else if layer.operation = opReply then pure (handleReply host cfg (dec.getD {}) layer)
    else pure { layer }

end LinkMap

/-- `Handle`, with a link map that stays. -/
def handle (host : Host) (cfg : HandleOptions) (dec : Option Decision) (ifIndex : ℤ)
    (layer : DHCPv4) : Outcome :=
  Id.run (handleBy (m := Id) cfg.linkMap host cfg dec ifIndex layer)

/-- The case of a request. -/
def handleRequest (host : Host) (cfg : HandleOptions) (dec : Decision) (ifIndex : ℤ)
    (layer : DHCPv4) : Outcome :=
  Id.run (handleRequestBy (m := Id) cfg.linkMap host cfg dec ifIndex layer)

section Dispatch

variable {host : Host} {cfg : HandleOptions} {dec : Option Decision} {ifIndex : ℤ}
  {layer : DHCPv4}

/-- A request of a valid type is handled as a request. -/
theorem handle_of_request (htype : (getMessageType layer).isSome = true)
    (hop : layer.operation = opRequest) :
    handle host cfg dec ifIndex layer = handleRequest host cfg (dec.getD {}) ifIndex layer := by
  obtain ⟨t, ht⟩ := Option.isSome_iff_exists.mp htype
  rw [handle, handleBy, ht]
  dsimp only
  rw [if_pos hop]
  rfl

/-- And a reply as a reply. -/
theorem handle_of_reply (htype : (getMessageType layer).isSome = true)
    (hop : layer.operation = opReply) :
    handle host cfg dec ifIndex layer = handleReply host cfg (dec.getD {}) layer := by
  obtain ⟨t, ht⟩ := Option.isSome_iff_exists.mp htype
  have hreq : layer.operation ≠ opRequest := by
    rw [hop]
    decide
  rw [handle, handleBy, ht]
  dsimp only
  rw [if_neg hreq, if_pos hop]
  rfl

theorem handleRequest_of_relayed {dec : Decision} (h : 0 < layer.relayHops) :
    handleRequest host cfg dec ifIndex layer = forwardRelayedRequest host cfg dec layer := by
  rw [handleRequest, handleRequestBy, if_pos h]
  rfl

theorem handleRequest_of_zero {dec : Decision} (h : layer.relayHops = 0) :
    handleRequest host cfg dec ifIndex layer = handleGenericRequest host cfg dec ifIndex layer := by
  rw [handleRequest, handleRequestBy, if_neg (by rw [h]; decide)]
  rfl

/-- **What is neither a request nor a reply of a valid type is dropped.** -/
theorem handle_cases (host : Host) (cfg : HandleOptions) (dec : Option Decision) (ifIndex : ℤ)
    (layer : DHCPv4) :
    handle host cfg dec ifIndex layer = { layer }
      ∨ (getMessageType layer).isSome = true
        ∧ (layer.operation = opRequest ∨ layer.operation = opReply) := by
  cases ht : getMessageType layer with
  | none =>
    refine .inl ?_
    rw [handle, handleBy, ht]
    rfl
  | some t =>
    by_cases hreq : layer.operation = opRequest
    · exact .inr ⟨rfl, .inl hreq⟩
    · by_cases hrep : layer.operation = opReply
      · exact .inr ⟨rfl, .inr hrep⟩
      · refine .inl ?_
        rw [handle, handleBy, ht]
        dsimp only
        rw [if_neg hreq, if_neg hrep]
        rfl

end Dispatch

/-- A valid reply within the hop limits, where no policy drops it. -/
theorem handle_reply_eq {host : Host} {cfg : HandleOptions} {dec : Option Decision}
    (ifIndex : ℤ) {layer : DHCPv4} (hop : layer.operation = opReply)
    (htype : (getMessageType layer).isSome = true) (h1 : 1 ≤ layer.relayHops)
    (hmax : layer.relayHops ≤ cfg.maxHops) (hdrop : (dec.getD {}).dropReply = false) :
    handle host cfg dec ifIndex layer
      = if !giaddrIsLocal host cfg layer.relayAgentIP then forwardRelayedReply host layer
        else if isUnicast layer then handleGenericReply host cfg (dec.getD {}) layer unicastReply
        else if isBroadcast layer then
          handleGenericReply host cfg (dec.getD {}) layer broadcastReply
        else { layer } := by
  have hhops : ¬ (layer.relayHops < 1 ∨ layer.relayHops > cfg.maxHops) :=
    not_or.mpr ⟨UInt8.not_lt.mpr h1, UInt8.not_lt.mpr hmax⟩
  rw [handle_of_reply htype hop, handleReply, if_neg hhops, hdrop, if_neg Bool.false_ne_true]

/-- **What a handled message can turn into.** -/
inductive Emits (host : Host) (cfg : HandleOptions) (dec : Decision) (ifIndex : ℤ)
    (layer : DHCPv4) : Emission → Prop where
  /-- A client's own request is stamped and sent to the server. -/
  | stamped {g : Giaddrs} {ip : IP} :
      layer.operation = opRequest → layer.relayHops = 0 →
      resolveGiaddr host cfg dec ifIndex = .ok g → ip ∈ g.copies →
      Emits host cfg dec ifIndex layer
        (.datagram (effectiveServerAddress cfg dec)
          { stamp host.sort layer
              (installedOption82 ifIndex g.linkSubnet dec.policyTag) with
            relayAgentIP := ip })
  /-- A relayed request is passed on to the server. -/
  | passed :
      layer.operation = opRequest → 0 < layer.relayHops →
      layer.relayHops < cfg.maxHops →
      Emits host cfg dec ifIndex layer
        (.datagram (effectiveServerAddress cfg dec)
          { layer with relayHops := layer.relayHops + 1 })
  /-- A reply for another relay is passed back to it. -/
  | returned {giaddr : IP} :
      layer.operation = opReply → 1 ≤ layer.relayHops → layer.relayHops ≤ cfg.maxHops →
      dec.dropReply = false → giaddrIsLocal host cfg layer.relayAgentIP = false →
      IP.to4 layer.relayAgentIP = some giaddr → IP.isUnspecified giaddr = false →
      IP.isLoopback giaddr = false → IP.equal giaddr IP.ipv4bcast = false →
      Emits host cfg dec ifIndex layer
        (.datagram (IP.string4 giaddr) { layer with relayHops := layer.relayHops - 1 })
  /-- A reply for a client of this relay is delivered. -/
  | delivered {f : Frame} :
      layer.operation = opReply → 1 ≤ layer.relayHops → layer.relayHops ≤ cfg.maxHops →
      dec.dropReply = false → giaddrIsLocal host cfg layer.relayAgentIP = true →
      f.message = stripRelay layer →
      Emits host cfg dec ifIndex layer (.frame f)

/-- **A reply is passed on or delivered**, by the owner of its giaddr. -/
theorem Emits.reply_cases {host : Host} {cfg : HandleOptions} {dec : Decision} {ifIndex : ℤ}
    {layer : DHCPv4} {e : Emission} (hop : layer.operation = opReply)
    (h : Emits host cfg dec ifIndex layer e) :
    (giaddrIsLocal host cfg layer.relayAgentIP = false ∧ ∃ dst m, e = .datagram dst m)
      ∨ giaddrIsLocal host cfg layer.relayAgentIP = true ∧ ∃ f, e = .frame f := by
  cases h with
  | stamped hreq => exact absurd hop (DHCPv4.not_reply_of_request hreq)
  | passed hreq => exact absurd hop (DHCPv4.not_reply_of_request hreq)
  | returned _ _ _ _ hforeign => exact .inl ⟨hforeign, _, _, rfl⟩
  | delivered _ _ _ _ hlocal => exact .inr ⟨hlocal, _, rfl⟩

theorem attempts_failed (layer : DHCPv4) (e : String) :
    (Outcome.failed layer e).attempts = [] := rfl

/-- Delivering a reply as its flags say leaves the flags alone. -/
theorem delivered_unicastReply {layer : DHCPv4} (h : isUnicast layer = true) :
    delivered unicastReply layer = stripRelay layer := by
  rw [delivered, if_pos rfl]
  exact setUnicast_of_isUnicast h

theorem delivered_broadcastReply {layer : DHCPv4} (h : isBroadcast layer = true) :
    delivered broadcastReply layer = stripRelay layer := by
  rw [delivered, if_neg (by decide)]
  exact setBroadcast_of_isBroadcast h

/-- What a request can turn into. -/
theorem emits_of_handleRequest {host : Host} {cfg : HandleOptions} {dec : Decision}
    {ifIndex : ℤ} {layer : DHCPv4} (hop : layer.operation = opRequest) {a : Attempt}
    (h : a ∈ (handleRequest host cfg dec ifIndex layer).attempts) :
    Emits host cfg dec ifIndex layer a.emission := by
  by_cases hpos : 0 < layer.relayHops
  · rw [handleRequest_of_relayed hpos] at h
    rcases forwardRelayedRequest_cases host cfg dec layer with ⟨e, he⟩ | ⟨hlt, he⟩
    · rw [he, attempts_failed] at h
      cases h
    · rw [he] at h
      rw [mem_attempts_relayToServer h]
      exact .passed hop hpos hlt
  · have hhops : layer.relayHops = 0 := UInt8.le_zero_iff.mp (UInt8.not_lt.mp hpos)
    rw [handleRequest_of_zero hhops] at h
    rcases handleGenericRequest_cases host cfg dec ifIndex layer with
      ⟨e, he⟩ | ⟨g, -, hg, he⟩
    · rw [he, attempts_failed] at h
      cases h
    · rw [he] at h
      obtain ⟨ip, hip, hm⟩ := mem_attempts_sendCopies h
      rw [hm]
      exact .stamped hop hhops hg hip

/-- What a reply can turn into. -/
theorem emits_of_handleReply {host : Host} {cfg : HandleOptions} {dec : Decision}
    (ifIndex : ℤ) {layer : DHCPv4} (hop : layer.operation = opReply) {a : Attempt}
    (h : a ∈ (handleReply host cfg dec layer).attempts) :
    Emits host cfg dec ifIndex layer a.emission := by
  unfold handleReply at h
  split at h
  · cases h
  · next hhops =>
    rw [not_or] at hhops
    have h1 : 1 ≤ layer.relayHops := UInt8.not_lt.mp hhops.1
    have hmax : layer.relayHops ≤ cfg.maxHops := UInt8.not_lt.mp hhops.2
    split at h
    · cases h
    · next hdrop =>
      have hd : dec.dropReply = false := Bool.eq_false_iff.mpr hdrop
      have hdeliver : ∀ rt, delivered rt layer = stripRelay layer →
          giaddrIsLocal host cfg layer.relayAgentIP = true →
          a ∈ (handleGenericReply host cfg dec layer rt).attempts →
          Emits host cfg dec ifIndex layer a.emission := by
        intro rt hrt hl h
        obtain ⟨-, f, he, hm⟩ := mem_attempts_handleGenericReply h
        rw [he]
        exact .delivered hop h1 hmax hd hl (hm.trans hrt)
      split at h
      · next hlocal =>
        have hl : giaddrIsLocal host cfg layer.relayAgentIP = false := by
          simpa using hlocal
        rcases forwardRelayedReply_cases host layer with
          ⟨e, he⟩ | ⟨giaddr, h4, hu, hlo, hb, -, he⟩
        · rw [he, attempts_failed] at h
          cases h
        · rw [he] at h
          rw [mem_attempts_relayToServer h]
          exact .returned hop h1 hmax hd hl h4 hu hlo hb
      · next hlocal =>
        have hl : giaddrIsLocal host cfg layer.relayAgentIP = true := by
          simpa using hlocal
        split at h
        · next huni => exact hdeliver _ (delivered_unicastReply huni) hl h
        · split at h
          · next hbc => exact hdeliver _ (delivered_broadcastReply hbc) hl h
          · cases h

/-- **Nothing else is ever sent**, and nothing at all for a message without a
valid type. -/
theorem emits_of_mem_attempts {host : Host} {cfg : HandleOptions}
    {dec : Option Decision} {ifIndex : ℤ} {layer : DHCPv4} {a : Attempt}
    (h : a ∈ (handle host cfg dec ifIndex layer).attempts) :
    (getMessageType layer).isSome = true
      ∧ Emits host cfg (dec.getD {}) ifIndex layer a.emission := by
  rcases handle_cases host cfg dec ifIndex layer with hdrop | ⟨htype, hop⟩
  · rw [hdrop] at h
    cases h
  · refine ⟨htype, ?_⟩
    rcases hop with hop | hop
    · rw [handle_of_request htype hop] at h
      exact emits_of_handleRequest hop h
    · rw [handle_of_reply htype hop] at h
      exact emits_of_handleReply ifIndex hop h

theorem emits_of_mem_sent {host : Host} {cfg : HandleOptions} {dec : Option Decision}
    {ifIndex : ℤ} {layer : DHCPv4} {e : Emission}
    (h : e ∈ (handle host cfg dec ifIndex layer).sent) :
    Emits host cfg (dec.getD {}) ifIndex layer e :=
  (emits_of_mem_attempts (Outcome.mem_sent.mp h)).2
