import DhcpRelay.PolicyFile
import DhcpRelay.Transparency

/-!
# The default policy is invisible

A policy file that only says `* @default` lets every client through and changes
nothing. A relay with such a policy goes another way than a relay without one:
it judges each packet, may judge it by several tables if the file is reloaded
meanwhile, and decodes Option 82 in the gate and not in the handler.
`catchAllDefault_invisible` says that it ends up in the same place, with the same
messages to the same destinations and the same errors.
-/

open Dhcp MacPolicy Relay

/-! ## The table -/

/-- **The lines of a file that only says `* @default`**, in any of its
spellings. -/
def CatchAllDefault (text : Text) : Prop :=
  (∀ l ∈ (scanLines text).1, CfgMatch.fields l
      ∈ [[], ["*".toList], ["*".toList, "@default".toList],
        ["*".toList, "@default".toList, "@default".toList]])
    ∧ ∃ l ∈ (scanLines text).1, CfgMatch.fields l ≠ []

instance (text : Text) : Decidable (CatchAllDefault text) := inferInstanceAs (Decidable (_ ∧ _))

/-- The entry that each such line denotes. -/
def defaultEntry : Entry := ⟨none, { kind := .default }⟩

theorem eq_defaultEntry {lib : GoLib} {fs : List Text} {e : Entry}
    (hfs : fs ∈ [[], ["*".toList], ["*".toList, "@default".toList],
      ["*".toList, "@default".toList, "@default".toList]])
    (h : LineMeans lib fs e) : e = defaultEntry := by
  have hkey : ∀ {key}, KeyMeans "*".toList key → key = none := by
    intro key hk
    rcases (keyMeans_iff lib).mp hk with ⟨-, rfl⟩ | ⟨hne, -⟩
    · rfl
    · exact absurd rfl hne
  have hdefault : ∀ {a}, ForwardMeans "@default".toList a → a = { kind := .default } := by
    intro a ha
    have hok := (parseAction_ok_iff lib (List.cons_ne_nil _ _)).mpr ha
    exact (Except.ok.inj hok).symm
  have hreply : ∀ {r}, ReplyMeans lib "@default".toList r → r = { kind := .ingress } := by
    intro r hr
    have hok := (parseReplyAction_ok_iff (List.cons_ne_nil _ _)).mpr hr
    exact (Except.ok.inj hok).symm
  simp only [List.mem_cons, List.not_mem_nil, or_false] at hfs
  rcases hfs with rfl | rfl | rfl | rfl
  · cases h
  · cases h with
    | key hk => rw [hkey hk]; rfl
  · cases h with
    | action hk ha => rw [hkey hk, hdefault ha]; rfl
  · cases h with
    | reply hk ha hr => rw [hkey hk, hdefault ha, hreply hr]; rfl

/-- Such a file denotes this entry, over and over. -/
theorem entries_of_catchAllDefault {lib : GoLib} {ls : List Text} {es : List Entry}
    (h : FileMeans lib ls es)
    (hls : ∀ l ∈ ls, CfgMatch.fields l
      ∈ [[], ["*".toList], ["*".toList, "@default".toList],
        ["*".toList, "@default".toList, "@default".toList]]) :
    (∀ e ∈ es, e = defaultEntry) ∧ ((∃ l ∈ ls, CfgMatch.fields l ≠ []) → es ≠ []) := by
  induction h with
  | nil =>
    exact ⟨fun e he => absurd he List.not_mem_nil,
      fun ⟨l, hl, _⟩ => absurd hl List.not_mem_nil⟩
  | blank hblank _ ih =>
    obtain ⟨hall, hne⟩ := ih (fun l hl => hls l (List.mem_cons_of_mem _ hl))
    refine ⟨hall, ?_⟩
    rintro ⟨l, hl, hf⟩
    rcases List.mem_cons.mp hl with rfl | hl
    · exact absurd hblank hf
    · exact hne ⟨l, hl, hf⟩
  | line hline _ ih =>
    obtain ⟨hall, -⟩ := ih (fun l hl => hls l (List.mem_cons_of_mem _ hl))
    refine ⟨?_, fun _ => List.cons_ne_nil _ _⟩
    intro e he
    rcases List.mem_cons.mp he with rfl | he
    · exact eq_defaultEntry (hls _ List.mem_cons_self) hline
    · exact hall e he

/-- **A table that lets everyone through**, whatever it is asked. -/
def LetsAllThrough (t : Table) : Prop := ∀ ids, t.lookupID ids = ({ kind := .default }, none)

theorem letsAllThrough_of_parse {lib : GoLib} {text : Text} {t : Table}
    {warnings : List String} (htext : CatchAllDefault text)
    (h : parse lib text = .ok (t, warnings)) : LetsAllThrough t := by
  obtain ⟨-, es, hes, rfl⟩ := parse_ok_iff.mp ⟨warnings, h⟩
  obtain ⟨hall, hne⟩ := entries_of_catchAllDefault hes htext.1
  intro ids
  have hids : ids.find? (fun id => id ≠ [] ∧ ∃ e ∈ es, e.id = some id) = none := by
    rw [List.find?_eq_none]
    intro id _ hid
    obtain ⟨-, e, he, heid⟩ := of_decide_eq_true hid
    rw [hall e he] at heid
    cases heid
  have hlast : Entry.actionOf es none = some { kind := .default } := by
    obtain ⟨e, he⟩ := List.exists_mem_of_ne_nil es (hne htext.2)
    have hsome : (lastBy Entry.id es none).isSome = true :=
      isSome_lastBy.mpr ⟨e, he, by rw [hall e he]; rfl⟩
    obtain ⟨e', he'⟩ := Option.isSome_iff_exists.mp hsome
    have hmem : e' ∈ es := List.mem_reverse.mp (List.mem_of_find?_eq_some he')
    rw [Entry.actionOf, he', hall e' hmem]
    rfl
  rw [lookupID_foldl, Entry.lookup, hids]
  dsimp only
  rw [hlast, Option.getD_some]

/-! ## The gate -/

/-- The published tables that let everyone through. -/
def Open (p : Option Table) : Prop := ∃ t, p = some t ∧ LetsAllThrough t

/-- The decision for a packet that is let through: none, but for the sub-options
that the gate has decoded. -/
def defaultDecision (layer : DHCPv4) : Decision :=
  if layer.operation = opReply then { replySubOpts := subOptions layer } else {}

theorem lookupID_alwaysOn (ids : List Bytes) :
    (Map.lookupID ids).AlwaysOn Open (fun r => r = ({ kind := .default }, none)) := by
  rintro _ ⟨t, rfl, ht⟩
  exact ht ids

/-- **The gate lets everything through**, by whatever tables it judges. -/
theorem policyForPacket_alwaysOn (lib : GoLib) (layer : DHCPv4) :
    (policyForPacket lib layer).AlwaysOn Open
      (fun d => d = (some (defaultDecision layer), false)) := by
  by_cases hop : layer.operation = opReply
  · rw [policyForPacket_reply_eq lib hop, defaultDecision, if_pos hop]
    have hbase : (Map.lookup [clientID layer, layer.clientHWAddr]).AlwaysOn Open
        (fun a => a = { kind := .default }) :=
      (lookupID_alwaysOn _).bind (fun r hr => by rw [hr]; rfl)
    refine hbase.bind ?_
    rintro base rfl
    have hrest : (replyRest layer { kind := .default }).AlwaysOn Open
        (fun a => a = { kind := .default }) := by
      rw [replyRest, if_neg (by decide)]
      split
      · refine (lookupID_alwaysOn _).bind ?_
        rintro r rfl
        rfl
      · rfl
    refine hrest.bind ?_
    rintro a rfl
    rfl
  · rw [policyForPacket_request_eq lib hop, defaultDecision, if_neg hop]
    refine (lookupID_alwaysOn _).bind ?_
    rintro r rfl
    rfl

/-! ## The handler -/

/-- The sub-options that the gate decodes are those that the handler would. -/
theorem replyIngress_subOptions (host : Host) {dec : Decision} (h : dec.replySubOpts = [])
    (layer : DHCPv4) :
    replyIngress host { dec with replySubOpts := subOptions layer } layer
      = replyIngress host dec layer := by
  have hsub : replySubOptions { dec with replySubOpts := subOptions layer } layer
      = replySubOptions dec layer := by
    rw [replySubOptions_of_nil h]
    by_cases hnil : subOptions layer = []
    · rw [hnil, replySubOptions_of_nil rfl, hnil]
    · rw [if_neg hnil, replySubOptions, if_neg hnil]
  rw [replyIngress, replyIngress, hsub]

/-- **Who decodes Option 82 makes no difference.** -/
theorem handleGenericReply_subOptions (host : Host) (cfg : HandleOptions) {dec : Decision}
    (h : dec.replySubOpts = []) (layer : DHCPv4) (replyType : ReplyType) :
    handleGenericReply host cfg { dec with replySubOpts := subOptions layer } layer replyType
      = handleGenericReply host cfg dec layer replyType := by
  rw [handleGenericReply, handleGenericReply, handleGenericReplyBy, handleGenericReplyBy,
    replyIngress_subOptions host h]
  rfl

theorem handle_defaultDecision (host : Host) (cfg : HandleOptions) (ifIndex : ℤ)
    (layer : DHCPv4) :
    handle host cfg (some (defaultDecision layer)) ifIndex layer
      = handle host cfg none ifIndex layer := by
  by_cases hop : layer.operation = opReply
  · have hgen : ∀ replyType, handleGenericReply host cfg (defaultDecision layer) layer replyType
        = handleGenericReply host cfg {} layer replyType := by
      intro replyType
      have hnil : ({} : Decision).replySubOpts = [] := rfl
      rw [defaultDecision, if_pos hop]
      exact handleGenericReply_subOptions host cfg hnil layer replyType
    have hdrop : (defaultDecision layer).dropReply = false := by
      rw [defaultDecision, if_pos hop]
    have hreq : layer.operation ≠ opRequest := by
      rw [hop]
      decide
    have hreply : handleReply host cfg (defaultDecision layer) layer
        = handleReply host cfg {} layer := by
      rw [handleReply, handleReply, hdrop, hgen, hgen]
    unfold handle handleBy
    split
    · rfl
    · rw [if_neg hreq, if_neg hreq, if_pos hop, if_pos hop]
      exact hreply
  · rw [defaultDecision, if_neg hop]
    rfl

/-! ## The relay -/

/-- What is admitted is what a relay without a policy admits. -/
theorem admitPacket_alwaysOn (lib : GoLib) (opts : ValidateOptions) (ifIndex : ℤ)
    (frame : Decoding) :
    (admitPacket lib opts true ifIndex frame).AlwaysOn Open (fun r =>
      ∃ r', admitPacket lib opts false ifIndex frame = .ret r'
        ∧ r = r'.map (fun a => (a.1, some (defaultDecision a.1)))
        ∧ ∀ a ∈ r', a.2 = none) := by
  rcases admitPacket_cases lib opts ifIndex frame with hnone | ⟨p, rfl, hpos, hv⟩
  · rw [hnone true]
    exact ⟨none, hnone false, rfl, fun a ha => absurd ha (Option.not_mem_none a)⟩
  · rw [admitPacket_of_policy hpos hv]
    refine (policyForPacket_alwaysOn lib p.filtered).bind ?_
    rintro d rfl
    refine ⟨some (p.filtered, none), admitPacket_of_no_policy hpos hv, rfl, ?_⟩
    rintro a ⟨⟩
    rfl

/-- **A catch-all default policy is invisible.** Whatever tables of files that
only say `* @default` are published while a packet is handled, the packet has the
outcome it has in a relay without a policy. And for every reply the handler does
the same, whether the gate has decoded Option 82 or not. -/
theorem catchAllDefault_invisible (lib : GoLib) (opts : ValidateOptions) (host : Host)
    (cfg : HandleOptions) :
    (∀ (slotFree : Bool) (ifIndex : ℤ) (frame : Decoding) (s : Option Table)
      (held : List (Option Table)) (o : Option Outcome),
      (∀ p ∈ held, ∃ text t warnings, CatchAllDefault text
        ∧ parse lib text = .ok (t, warnings) ∧ p = some t) →
      (handlePacket lib opts true host cfg slotFree ifIndex frame).Runs s held o →
      handlePacket lib opts false host cfg slotFree ifIndex frame = .ret o)
    ∧ ∀ (dec : Decision), dec.replySubOpts = [] → ∀ (layer : DHCPv4) (replyType : ReplyType),
      handleGenericReply host cfg { dec with replySubOpts := subOptions layer } layer replyType
        = handleGenericReply host cfg dec layer replyType := by
  refine ⟨?_, fun dec h layer replyType => handleGenericReply_subOptions host cfg h layer replyType⟩
  intro slotFree ifIndex frame s held o hheld hrun
  have hopen : ∀ p ∈ held, Open p := by
    intro p hp
    obtain ⟨text, t, warnings, htext, hparse, rfl⟩ := hheld p hp
    exact ⟨t, rfl, letsAllThrough_of_parse htext hparse⟩
  have hall : (handlePacket lib opts true host cfg slotFree ifIndex frame).AlwaysOn Open
      (fun o => handlePacket lib opts false host cfg slotFree ifIndex frame = .ret o) := by
    refine (admitPacket_alwaysOn lib opts ifIndex frame).bind ?_
    rintro r ⟨r', hr', rfl, hnone⟩
    -- The two handlers are given the same message, one without a decision.
    have hsame : r'.map (fun a => handle host cfg a.2 ifIndex a.1)
        = (r'.map (fun a => (a.1, some (defaultDecision a.1)))).map
            (fun a => handle host cfg a.2 ifIndex a.1) := by
      rw [Option.map_map]
      refine Option.map_congr (fun a ha => ?_)
      rw [hnone a ha]
      exact (handle_defaultDecision host cfg ifIndex a.1).symm
    show handlePacket lib opts false host cfg slotFree ifIndex frame = .ret _
    rw [handlePacket, hr', ← hsame]
    rfl
  exact hrun.alwaysOn hopen hall

/-- A DISCOVER in a relay whose policy is `* @default`: it is relayed as without a
policy. -/
theorem catchAllDefault_invisible_discover :
    ∃ o : Outcome, (handlePacket .literal ⟨1500, false⟩ true numberedHost plainOptions true 2
        (.complete (discoverPacket [0xaa] (by decide)))).Runs
          (some { Table.empty with fallback := { kind := .default } })
          [some { Table.empty with fallback := { kind := .default } }] (some o)
      ∧ handlePacket .literal ⟨1500, false⟩ false numberedHost plainOptions true 2
          (.complete (discoverPacket [0xaa] (by decide))) = .ret (some o)
      ∧ o.sent.length = 1 := by
  let p := discoverPacket [0xaa] (by decide)
  have heval : (handlePacket .literal ⟨1500, false⟩ true numberedHost plainOptions true 2
      (.complete p)).eval (some { Table.empty with fallback := { kind := .default } })
        = some (handle numberedHost plainOptions (some {}) 2 p.filtered) := by
    have hid : clientID p.filtered = [0xaa] := by decide
    rw [handlePacket, Call.eval_bind, admitPacket_of_policy (by decide) (by decide),
      Call.eval_bind, eval_policyForPacket_request .literal _ (by decide), hid]
    rfl
  have hrun := Call.runs_eval (handlePacket .literal ⟨1500, false⟩ true numberedHost plainOptions
    true 2 (.complete p)) (some { Table.empty with fallback := { kind := .default } })
  rw [heval] at hrun
  have hheld : ∀ q ∈ [some ({ Table.empty with fallback := { kind := .default } } : Table)],
      ∃ text t warnings, CatchAllDefault text
        ∧ parse .literal text = .ok (t, warnings) ∧ q = some t := by
    intro q hq
    rw [List.mem_singleton.mp hq]
    exact ⟨"* @default\n".toList, _, [], by decide, rfl, rfl⟩
  refine ⟨_, hrun, ?_, by decide⟩
  exact (catchAllDefault_invisible .literal ⟨1500, false⟩ numberedHost plainOptions).1 true 2
    (.complete p) _ _ _ hheld hrun
