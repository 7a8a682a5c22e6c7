import DhcpRelay.MacPolicy
import DhcpRelay.Register

/-!
# The policy gate

What the policy says about one packet (`pkg/relay`): drop it, or handle it
under a `Decision`. A request is judged by the client identifier of Option 61
and the hardware address, in this order, and is tagged with the key that
matched. A reply is judged by the same two first, so that a client which is
denied stays denied whatever the reply carries, and then by the tag in its
Option 82.

The policy is hot reloaded: each lookup loads the table published at that
moment. `policyForPacket` is therefore a `Call` on the register that holds the
published table, and a lookup is one load. Where nothing is published during
the call it is a function of one table, which is what
`eval_policyForPacket_request` and `eval_policyForPacket_reply` describe.
-/

open Dhcp MacPolicy

/-- `Decision`: what the policy decided for one packet. The zero value is the
behaviour of a relay without a policy. -/
structure Decision where
  /-- The upstream server for this packet, the configured one when empty. -/
  serverAddress : Text := []
  /-- The policy key to put in Option 82. -/
  policyTag : Bytes := []
  /-- The interfaces a reply goes out of, the ingress interface when nil. -/
  replyNICMatch : Option (Text → Text → Bool) := none
  /-- The sub-options of Option 82, when they are decoded already. -/
  replySubOpts : List DHCPOption := []
  dropReply : Bool := false

namespace MacPolicy

/-- `Map.LookupID`: one load of the published table, which is nil before the
first one. -/
def Map.lookupID (ids : List Bytes) : Call (Option Table) (Action × Option Bytes) :=
  .read (fun t =>
    match t with
    | none => ({}, none)
    | some t => t.lookupID ids)

/-- `Map.Lookup`. -/
def Map.lookup (ids : List Bytes) : Call (Option Table) Action := do
  let r ← Map.lookupID ids
  return r.1

end MacPolicy

namespace Relay

/-- The client identifier a packet states in Option 61, empty when it states
none. -/
def clientID (layer : DHCPv4) : Bytes :=
  let opt := getOption layer optClientID
  if isOption opt then opt.data else []

/-- `lookupReplyActionFromSubOpts`: the hardware address and Option 61 decide
first, so that a forged tag cannot get past a denial. -/
def lookupReplyActionFromSubOpts (layer : DHCPv4) (clientID : Bytes)
    (subOpts : List DHCPOption) : Call (Option Table) Action := do
  let base ← Map.lookup [clientID, layer.clientHWAddr]
  if base.kind = .blackhole then return base
  else
    let tag := extractPolicyTagSubOptionData subOpts
    if tag.length > 0 then do
      let r ← Map.lookupID [tag]
      -- a tag that matches no entry is stale, or of another relay
      if r.2.isSome then return r.1 else return base
    else return base

/-- The sub-options of a packet's Option 82, nil when it has none that
decodes. -/
def subOptions (layer : DHCPv4) : List DHCPOption :=
  let opt82 := getRelayAgentInformationOption layer
  if isOption opt82 then decodeRelayAgentInformationOption opt82 else []

/-- `LookupReplyAction`: the action for a reply, with the sub-options it was
read from. -/
def lookupReplyAction (layer : DHCPv4) (clientID : Bytes) :
    Call (Option Table) (Action × List DHCPOption) := do
  let subOpts := subOptions layer
  let action ← lookupReplyActionFromSubOpts layer clientID subOpts
  return (action, subOpts)

/-- `RequestConfig`: the upstream of a server action, and the tag. -/
def requestConfig (action : Action) (key : Option Bytes) : Decision :=
  { policyTag := key.getD []
    serverAddress := if action.kind = .server then action.server else [] }

/-- `ReplyConfig`: the reverse path action. -/
def replyConfig (lib : GoLib) (action : Action) : Decision :=
  match action.reply.kind with
  | .blackhole => { dropReply := true }
  | .selected => { replyNICMatch := some (action.reply.toSelector.accepts lib) }
  | .ingress => {}

/-- **`PolicyForPacket`**: the decision for a packet, and whether to drop
it. -/
def policyForPacket (lib : GoLib) (layer : DHCPv4) :
    Call (Option Table) (Option Decision × Bool) :=
  let clientID := clientID layer
  if layer.operation = opReply then do
    let r ← lookupReplyAction layer clientID
    if r.1.kind = .blackhole then return (none, true)
    else return (some { replyConfig lib r.1 with replySubOpts := r.2 }, false)
  else do
    let r ← Map.lookupID [clientID, layer.clientHWAddr]
    if r.1.kind = .blackhole then return (none, true)
    else return (some (requestConfig r.1 r.2), false)

/-! ## The gate on one table -/

/-- The client identifier is read from the Option 61s alone. -/
theorem clientID_congr {m r : DHCPv4}
    (h : r.options.filter (fun o => o.type = optClientID)
      = m.options.filter (fun o => o.type = optClientID)) :
    clientID r = clientID m := by
  rw [clientID, clientID, getOption_eq_head, getOption_eq_head, h]

theorem clientID_eq_nil {r : DHCPv4}
    (h : r.options.filter (fun o => o.type = optClientID) = []) : clientID r = [] := by
  rw [clientID, getOption_eq_head, h]
  rfl

/-- The policy tag a packet carries in Option 82, empty when it carries
none. -/
def policyTag (layer : DHCPv4) : Bytes := extractPolicyTagSubOptionData (subOptions layer)

/-- The action the two identifiers of a packet have in a table. -/
def baseAction (t : Table) (layer : DHCPv4) : Action :=
  t.lookup [clientID layer, layer.clientHWAddr]

/-- **The action for a reply**, when the base lookup reads one table and the
lookup of the tag another: the base action when it denies, else the entry of
the tag, else the base action. -/
def mixedAction (t₁ t₂ : Table) (layer : DHCPv4) : Action :=
  if (baseAction t₁ layer).kind = .blackhole then baseAction t₁ layer
  else (t₂.entries.lookup (policyTag layer)).getD (baseAction t₁ layer)

/-- The action for a reply on one table. -/
def replyAction (t : Table) (layer : DHCPv4) : Action := mixedAction t t layer

/-- What the gate returns for a reply under an action. -/
def replyOutcome (lib : GoLib) (layer : DHCPv4) (action : Action) :
    Option Decision × Bool :=
  if action.kind = .blackhole then (none, true)
  else (some { replyConfig lib action with replySubOpts := subOptions layer }, false)

@[simp] theorem eval_mapLookupID (t : Table) (ids : List Bytes) :
    (Map.lookupID ids).eval (some t) = t.lookupID ids := rfl

theorem singleSnapshot_mapLookupID (P : Option Table → Prop) (ids : List Bytes) :
    (Map.lookupID ids).SingleSnapshot P :=
  Call.singleSnapshot_read P _

/-- The rest of the judgement of a reply, after the base lookup. -/
def replyRest (layer : DHCPv4) (base : Action) : Call (Option Table) Action :=
  if base.kind = .blackhole then pure base
  else if (policyTag layer).length > 0 then
    Map.lookupID [policyTag layer] >>= fun r =>
      if r.2.isSome then pure r.1 else pure base
  else pure base

/-- **A reply is judged by a lookup and a rest.** -/
theorem policyForPacket_reply_eq (lib : GoLib) {layer : DHCPv4}
    (h : layer.operation = opReply) :
    policyForPacket lib layer
      = Map.lookup [clientID layer, layer.clientHWAddr] >>= fun base =>
          replyRest layer base >>= fun a => .ret (replyOutcome lib layer a) := by
  rw [policyForPacket, if_pos h, lookupReplyAction, lookupReplyActionFromSubOpts,
    Call.bind_bind, Call.bind_bind]
  refine congrArg (Map.lookup _ >>= ·) (funext (fun base => ?_))
  refine congrArg (replyRest layer base >>= ·) (funext (fun a => ?_))
  show (if a.kind = .blackhole then _ else _) = Call.ret _
  rw [replyOutcome]
  split <;> rfl

/-- The rest of the judgement on one table. -/
theorem eval_replyRest (t : Table) (layer : DHCPv4) (base : Action) :
    (replyRest layer base).eval (some t)
      = if base.kind = .blackhole then base
        else (t.entries.lookup (policyTag layer)).getD base := by
  rw [replyRest]
  split
  · rfl
  · by_cases ht : (policyTag layer).length > 0
    · rw [if_pos ht, Call.eval_bind, eval_mapLookupID, Table.lookupID_cons]
      cases t.entries.lookup (policyTag layer) <;> rfl
    · have hnone : t.entries.lookup (policyTag layer) = none :=
        t.lookup_entries_of_not_keySize (fun hk => ht hk.1)
      rw [if_neg ht, hnone, Call.eval_pure, Option.getD_none]

/-- The gate on one table, for a reply. -/
theorem eval_policyForPacket_reply (lib : GoLib) (t : Table) {layer : DHCPv4}
    (h : layer.operation = opReply) :
    (policyForPacket lib layer).eval (some t)
      = replyOutcome lib layer (replyAction t layer) := by
  rw [policyForPacket_reply_eq lib h, Call.eval_bind, Call.eval_bind,
    Call.eval_ret, eval_replyRest]
  rfl

/-- What the gate returns for a request under an action and the key that
matched. -/
def requestOutcome (action : Action) (key : Option Bytes) : Option Decision × Bool :=
  if action.kind = .blackhole then (none, true)
  else (some (requestConfig action key), false)

/-- **A request is judged by one lookup.** -/
theorem policyForPacket_request_eq (lib : GoLib) {layer : DHCPv4}
    (h : layer.operation ≠ opReply) :
    policyForPacket lib layer
      = Map.lookupID [clientID layer, layer.clientHWAddr] >>= fun r =>
          .ret (requestOutcome r.1 r.2) := by
  rw [policyForPacket, if_neg h]
  refine congrArg (Map.lookupID _ >>= ·) (funext (fun r => ?_))
  rw [requestOutcome]
  split <;> rfl

/-- The gate on one table, for a request. -/
theorem eval_policyForPacket_request (lib : GoLib) (t : Table) {layer : DHCPv4}
    (h : layer.operation ≠ opReply) :
    (policyForPacket lib layer).eval (some t)
      = requestOutcome (t.lookupID [clientID layer, layer.clientHWAddr]).1
          (t.lookupID [clientID layer, layer.clientHWAddr]).2 := by
  rw [policyForPacket_request_eq lib h, Call.eval_bind, eval_mapLookupID,
    Call.eval_ret]

end Relay
