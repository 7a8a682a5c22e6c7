import DhcpRelay.PolicyGate

/-!
# Which decisions take one snapshot of the policy

A reload publishes a new table while packets are being judged, and a decision
should come from the old table or from the new one, not from both. A request
is judged by one lookup, so it does. A reply is judged by up to two, each of
which loads the published table on its own: the base lookup by Option 61 and
hardware address, and the lookup of the policy tag. A reload between the two
lets the old table answer the first and the new one the second.

Whether that can be seen from outside depends on the packet, and
`policyForPacket_singleSnapshot_iff` says on which packets it can. A tag that
can be no key never has an entry, and a tag that is itself the first
identifier of the base lookup that can be a key makes the two lookups ask for
the same entry. For every other tag there are two tables that mix.
-/

open Dhcp MacPolicy

namespace Relay

variable (lib : GoLib)

/-- Judging a reply after the base lookup loads the table at most once. -/
theorem singleSnapshot_replyRest (P : Option Table → Prop) (layer : DHCPv4)
    (base : Action) : (replyRest layer base).SingleSnapshot P := by
  rw [replyRest]
  split
  · exact Call.singleSnapshot_ret P base
  · split
    · have hret : ∀ r : Action × Option Bytes,
          (if r.2.isSome then pure r.1 else pure base : Call (Option Table) Action)
            = .ret (if r.2.isSome then r.1 else base) := by
        intro r
        split <;> rfl
      simp only [hret]
      exact (singleSnapshot_mapLookupID P _).bind_ret _
    · exact Call.singleSnapshot_ret P base

/-- **What a reply can be judged to be**: the outcome of the base lookup on
one table and of the tag's lookup on another, both published during the
call. -/
theorem exists_tables_of_runs {layer : DHCPv4} (h : layer.operation = opReply)
    {s : Option Table} {held : List (Option Table)} {a : Option Decision × Bool}
    (hrun : (policyForPacket lib layer).Runs s held a)
    (hsome : ∀ t ∈ held, t.isSome = true) :
    ∃ t₁ t₂ : Table, some t₁ ∈ held ∧ some t₂ ∈ held
      ∧ a = replyOutcome lib layer (mixedAction t₁ t₂ layer) := by
  rw [policyForPacket_reply_eq lib h] at hrun
  obtain ⟨s₁, h₁, s₂, h₂, ha⟩ := Call.exists_snapshots_of_load
    (fun _ _ => (singleSnapshot_replyRest _ layer _).bind_ret _) hrun hsome
  obtain ⟨t₁, rfl⟩ := Option.isSome_iff_exists.mp (hsome s₁ h₁)
  obtain ⟨t₂, rfl⟩ := Option.isSome_iff_exists.mp (hsome s₂ h₂)
  refine ⟨t₁, t₂, h₁, h₂, ha.trans ?_⟩
  rw [Call.eval_bind, Call.eval_ret, eval_replyRest]
  rfl

/-- Any two tables can be mixed: the second one is the last that is published
between the two lookups. -/
theorem runs_mixedAction {layer : DHCPv4} (h : layer.operation = opReply)
    (t₁ t₂ : Table) (after : List (Option Table))
    (hlast : (some t₁ :: after).getLast (List.cons_ne_nil _ _) = some t₂) :
    (policyForPacket lib layer).Runs (some t₁) (some t₁ :: after)
      (replyOutcome lib layer (mixedAction t₁ t₂ layer)) := by
  rw [policyForPacket_reply_eq lib h]
  have hrun := Call.runs_store_between
    (fun s => replyRest layer
        ((Map.lookup [clientID layer, layer.clientHWAddr]).eval s)
      >>= fun a => .ret (replyOutcome lib layer a)) (some t₁) after
  rw [Call.eval_bind, Call.eval_ret, hlast, eval_replyRest] at hrun
  exact hrun

/-! ## When two lookups ask for one entry -/

/-- The identifiers of the base lookup that can be keys: the first of them
decides whenever it has an entry. -/
def firstKey (layer : DHCPv4) : Option Bytes :=
  [clientID layer, layer.clientHWAddr].find? (fun id => KeySize id)

/-- An entry of the first identifier that can be a key is the base action. -/
theorem baseAction_of_firstKey {t : Table} {layer : DHCPv4} {id : Bytes}
    {a : Action} (hid : firstKey layer = some id)
    (ha : t.entries.lookup id = some a) : baseAction t layer = a := by
  rw [baseAction, Table.lookup, Table.lookupID_cons]
  rw [firstKey, List.find?_cons] at hid
  by_cases hc : KeySize (clientID layer)
  · simp only [hc, decide_true, Option.some.injEq] at hid
    rw [hid, ha]
  · simp only [hc, decide_false, List.find?_cons] at hid
    rw [t.lookup_entries_of_not_keySize hc, Table.lookupID_cons]
    by_cases hw : KeySize layer.clientHWAddr
    · simp only [hw, decide_true, Option.some.injEq] at hid
      rw [hid, ha]
    · simp [hw] at hid

/-- Where no identifier can be a key, the base action is the fallback. -/
theorem baseAction_of_firstKey_none {t : Table} {layer : DHCPv4}
    (h : firstKey layer = none) : baseAction t layer = t.fallback := by
  rw [firstKey, List.find?_eq_none] at h
  have hnone : ∀ id ∈ [clientID layer, layer.clientHWAddr],
      t.entries.lookup id = none :=
    fun id hid => t.lookup_entries_of_not_keySize (by simpa using h id hid)
  rw [baseAction, Table.lookup, Table.lookupID_cons, hnone _ (by simp),
    Table.lookupID_cons, hnone _ (by simp), Table.lookupID]

/-- **A tag that is the first key of the base lookup mixes nothing**: where
the tag has an entry in the second table, that table alone gives the same
action, and otherwise the first one does. -/
theorem mixedAction_of_firstKey {layer : DHCPv4} (t₁ t₂ : Table)
    (h : firstKey layer = some (policyTag layer)) :
    (mixedAction t₁ t₂ layer = replyAction t₁ layer)
      ∨ (mixedAction t₁ t₂ layer = replyAction t₂ layer) := by
  by_cases hb : (baseAction t₁ layer).kind = .blackhole
  · refine .inl ?_
    rw [replyAction, mixedAction, mixedAction, if_pos hb, if_pos hb]
  · cases h₂ : t₂.entries.lookup (policyTag layer) with
    | some a =>
      refine .inr ?_
      rw [replyAction, mixedAction, mixedAction, if_neg hb, h₂,
        baseAction_of_firstKey h h₂]
      split <;> rfl
    | none =>
      refine .inl ?_
      rw [replyAction, mixedAction, mixedAction, if_neg hb, if_neg hb, h₂]
      cases h₁ : t₁.entries.lookup (policyTag layer) with
      | some a => rw [baseAction_of_firstKey h h₁]; rfl
      | none => rfl

/-- A tag that can be no key mixes nothing either: no table has it. -/
theorem mixedAction_of_not_keySize {layer : DHCPv4} (t₁ t₂ : Table)
    (h : ¬ KeySize (policyTag layer)) :
    mixedAction t₁ t₂ layer = replyAction t₁ layer := by
  rw [replyAction, mixedAction, mixedAction, t₁.lookup_entries_of_not_keySize h,
    t₂.lookup_entries_of_not_keySize h]

/-! ## Two tables that mix -/

/-- A table that lets everyone through. -/
def openTable : Table := { Table.empty with fallback := { kind := .default } }

/-- A table with a denying entry for an identifier, if it can be a key. -/
def denyTable (first : Option Bytes) : Table :=
  match first with
  | some id =>
    if hid : KeySize id then Table.empty.insert ⟨id, hid⟩ { kind := .blackhole }
    else Table.empty
  | none => Table.empty

/-- A table that lists a tag with its replies dropped, and denies everyone
else: the first key of the base lookup by an entry of its own. -/
def closedTable (first : Option Bytes) (tag : Key) : Table :=
  (denyTable first).insert tag { kind := .default, reply := { kind := .blackhole } }

theorem baseAction_openTable (layer : DHCPv4) :
    baseAction openTable layer = { kind := .default } := by
  have hnone : ∀ id, openTable.entries.lookup id = none := fun id => rfl
  rw [baseAction, Table.lookup, Table.lookupID_cons, hnone, Table.lookupID_cons,
    hnone]
  rfl

theorem lookup_closedTable_tag (first : Option Bytes) (tag : Key) :
    (closedTable first tag).entries.lookup tag.val
      = some { kind := .default, reply := { kind := .blackhole } } :=
  AList.lookup_insert _

/-- The table denies the base lookup of a packet whose first key is not the
tag. -/
theorem baseAction_closedTable {layer : DHCPv4} (tag : Key)
    (h : firstKey layer ≠ some tag.val) :
    (baseAction (closedTable (firstKey layer) tag) layer).kind = .blackhole := by
  cases hf : firstKey layer with
  | none => rw [baseAction_of_firstKey_none hf]; rfl
  | some id =>
    have hid : KeySize id := by
      have := List.find?_some hf
      simpa using this
    have hne : id ≠ tag.val := fun he => h (by rw [hf, he])
    have hdeny : denyTable (some id)
        = Table.empty.insert ⟨id, hid⟩ { kind := .blackhole } := dif_pos hid
    have hlook : (closedTable (some id) tag).entries.lookup id
        = some { kind := .blackhole } := by
      show AList.lookup id (AList.insert tag.val _ _) = _
      rw [AList.lookup_insert_ne hne, hdeny]
      exact AList.lookup_insert _
    rw [baseAction_of_firstKey hf hlook]

/-! ## One snapshot per decision -/

/-- **Exactly which decisions take one snapshot of the policy.** Whatever is
published during the call, the gate answers as one published table would,
exactly on the packets that are no replies, on the replies whose policy tag
can be no key, and on the replies whose tag is the first identifier of the
base lookup that can be a key. -/
theorem policyForPacket_singleSnapshot_iff (layer : DHCPv4) :
    (policyForPacket lib layer).SingleSnapshot (fun s => s.isSome = true)
      ↔ layer.operation ≠ opReply ∨ ¬ KeySize (policyTag layer)
        ∨ firstKey layer = some (policyTag layer) := by
  constructor
  · intro hsnap
    by_contra hc
    push Not at hc
    obtain ⟨hop, hkey, hfirst⟩ := hc
    let tag : Key := ⟨policyTag layer, hkey⟩
    let t₂ := closedTable (firstKey layer) tag
    obtain ⟨t, ht, hmix⟩ := hsnap _ _ _ (runs_mixedAction lib hop openTable t₂ [some t₂] rfl)
      (by simp)
    -- the mixed action is the tag's, whose replies are dropped
    have hmixed : mixedAction openTable t₂ layer
        = { kind := .default, reply := { kind := .blackhole } } := by
      rw [mixedAction, baseAction_openTable, if_neg (by decide)]
      exact congrArg (fun o : Option Action => o.getD { kind := .default })
        (lookup_closedTable_tag (firstKey layer) tag)
    have hdrop : replyOutcome lib layer (mixedAction openTable t₂ layer)
        = (some { dropReply := true, replySubOpts := subOptions layer }, false) := by
      rw [hmixed]
      rfl
    rw [hdrop] at hmix
    rcases List.mem_cons.mp ht with rfl | ht
    · rw [eval_policyForPacket_reply lib openTable hop, replyAction, mixedAction,
        baseAction_openTable] at hmix
      simp [replyOutcome, replyConfig, openTable, Table.empty] at hmix
    · rw [List.mem_singleton] at ht
      subst ht
      have hb := baseAction_closedTable tag hfirst
      rw [eval_policyForPacket_reply lib t₂ hop, replyAction, mixedAction,
        if_pos hb, replyOutcome, if_pos hb] at hmix
      cases hmix
  · intro h s held a hrun hsome
    by_cases hop : layer.operation = opReply
    · obtain ⟨t₁, t₂, h₁, h₂, rfl⟩ := exists_tables_of_runs lib hop hrun hsome
      have hone : mixedAction t₁ t₂ layer = replyAction t₁ layer
          ∨ mixedAction t₁ t₂ layer = replyAction t₂ layer := by
        rcases h with h | h | h
        · exact absurd hop h
        · exact .inl (mixedAction_of_not_keySize t₁ t₂ h)
        · exact mixedAction_of_firstKey t₁ t₂ h
      rcases hone with h' | h'
      · exact ⟨some t₁, h₁, by rw [eval_policyForPacket_reply lib t₁ hop, h']⟩
      · exact ⟨some t₂, h₂, by rw [eval_policyForPacket_reply lib t₂ hop, h']⟩
    · rw [policyForPacket_request_eq lib hop] at hrun ⊢
      exact (singleSnapshot_mapLookupID _ _).bind_ret _ s held a hrun hsome

/-- A reply whose Option 82 carries the policy tag `0xaa`. -/
def taggedReply : DHCPv4 :=
  { operation := opReply
    clientHWAddr := [2, 0, 0, 0, 0, 1]
    options := [newDHCPOption relayAgentInformation [policyTagSubOption, 1, 0xaa]] }

/-- Two policy files that mix: a reload from the first to the second between
the two lookups lets the first one admit the client and the second one drop
the reply. The first file drops no reply, and the second one denies the client
at the gate. -/
theorem policyForPacket_taggedReply_mixes :
    ∃ t₁ t₂ : Table, ∃ a : Option Decision × Bool,
      parse .literal "* @default\n".toList = .ok (t₁, [])
        ∧ parse .literal "0xaa @default @blackhole\n".toList = .ok (t₂, [])
        ∧ (policyForPacket .literal taggedReply).Runs (some t₁) [some t₁, some t₂] a
        ∧ a ≠ (policyForPacket .literal taggedReply).eval (some t₁)
        ∧ a ≠ (policyForPacket .literal taggedReply).eval (some t₂) := by
  refine ⟨_, _, _, rfl, rfl, runs_mixedAction .literal rfl _ _ [_] rfl, fun h => ?_, fun h => ?_⟩
  · exact absurd (congrArg (fun p => p.1.map Decision.dropReply) h) (by decide)
  · exact absurd (congrArg (fun p => p.1.map Decision.dropReply) h) (by decide)

end Relay
