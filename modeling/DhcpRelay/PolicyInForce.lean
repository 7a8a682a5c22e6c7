import DhcpRelay.WatchReaders
import DhcpRelay.PolicyFile
import DhcpRelay.Snapshots
import DhcpRelay.Transparency

/-!
# The policy in force

The policy that judges a packet is read from a file that changes while packets are
judged. This module puts the two together: a packet goes through `handlePacket` while
the policy watcher goes through any of its steps, and the question is which text of
the file decided.

A *version* of the file is what some whole content of it denotes, as a list of entries
in the sense of the grammar, if the validation let it through and it is the one that is
published. A request is handled as one version says (`request_handled_by_version`). A
reply is handled as two of them say, one for the client and one for the tag
(`reply_handled_by_versions`). What does not depend on the version is
`denied_by_every_version`: a client whom no version admits gets nothing through, neither
a request nor a reply, whatever is reloaded when. And once a poll has seen the file as it
now is, it is this file that decides (`policy_takes_effect`).
-/

open Dhcp MacPolicy FileWatch

namespace MacPolicy

/-- **The version of the policy file that is in force**: the entries that a whole
content of the file denotes, which was read, passed validation and is published. -/
structure Version (lib : GoLib) (sh : Shared Char Table) (es : List Entry) : Prop where
  text : ∃ info text, (info, text) ∈ sh.disk.history ∧ (scanLines text).2 = false
    ∧ FileMeans lib (scanLines text).1 es
  accepted : es.foldl Table.put Table.empty ∈ sh.accepted
  published : sh.snapshot = some (es.foldl Table.put Table.empty)

/-- A published table that was read from the file is that of a version. -/
theorem version_of_whole {lib : GoLib} {file : String} {sh : Shared Char Table}
    {info : FileInfo} {t : Table} (h : Whole (watchConfig lib file) sh.disk info t)
    (ha : t ∈ sh.accepted) (hp : sh.snapshot = some t) :
    ∃ es, Version lib sh es ∧ t = es.foldl Table.put Table.empty := by
  obtain ⟨text, htext, warnings, hrun⟩ := h
  have hparse : ∃ warnings, parse lib text = .ok (t, warnings) := by
    refine ⟨warnings, ?_⟩
    cases hp : parse lib text with
    | error e => simp [watchConfig, hp, Except.map] at hrun
    | ok p =>
      simp only [watchConfig, hp, Except.map, Except.ok.injEq, Prod.mk.injEq,
        Option.some.injEq] at hrun
      rw [← hrun.1, ← hrun.2]
  obtain ⟨hlong, es, hes, rfl⟩ := parse_ok_iff.mp hparse
  exact ⟨es, ⟨⟨info, text, htext, hlong, hes⟩, ha, hp⟩, rfl⟩

end MacPolicy

namespace Relay

variable {lib : GoLib} {file : String} {s : Threads.State (Shared Char Table) (Pc Char Table)}
  {rest : List (Threads.State (Shared Char Table) (Pc Char Table))}

/-- The identifiers that the policy knows a client by. -/
def clientIDs (layer : DHCPv4) : List Bytes := [clientID layer, layer.clientHWAddr]

/-- The action for a reply by two versions: the first one judges the client, and the
second one has the entry of the tag. -/
def versionAction (es₁ es₂ : List Entry) (layer : DHCPv4) : Action :=
  let base := (Entry.lookup es₁ (clientIDs layer)).1
  if base.kind = .blackhole then base
  else (Entry.actionOf es₂ (some (policyTag layer))).getD base

theorem mixedAction_foldl (es₁ es₂ : List Entry) (layer : DHCPv4) :
    mixedAction (es₁.foldl Table.put Table.empty) (es₂.foldl Table.put Table.empty) layer
      = versionAction es₁ es₂ layer := by
  have hempty : Table.empty.entries.lookup (policyTag layer) = none := AList.lookup_empty _
  rw [mixedAction, baseAction, Table.lookup, lookupID_foldl, lookup_entries_foldl, hempty,
    Option.or_none]
  rfl

/-- What is loaded while a packet is judged is a version of the file. -/
theorem exists_version {α : Type} {c : Call (Option Table) α} {a : α} {x : Option Table}
    (h : Reads (watchConfig lib file) c s rest a)
    (hx : x ∈ (s :: rest).map (fun s => s.shared.snapshot)) :
    ∃ st ∈ s :: rest, ∃ es, Version lib st.shared es
      ∧ x = some (es.foldl Table.put Table.empty) := by
  obtain ⟨st, hst, t, info, rfl, hp, hw, ha⟩ := h.held hx
  obtain ⟨es, hv, rfl⟩ := version_of_whole hw (ha rfl) hp
  exact ⟨st, hst, es, hv, rfl⟩

/-- **A request is judged by one version.** -/
theorem request_judged {layer : DHCPv4} (hop : layer.operation ≠ opReply)
    {d : Option Decision × Bool}
    (h : Reads (watchConfig lib file) (policyForPacket lib layer) s rest d) :
    ∃ st ∈ s :: rest, ∃ es, Version lib st.shared es
      ∧ d = requestOutcome (Entry.lookup es (clientIDs layer)).1
          (Entry.lookup es (clientIDs layer)).2 := by
  have hone : (policyForPacket lib layer).SingleSnapshot (fun _ => True) := by
    rw [policyForPacket_request_eq lib hop]
    exact (singleSnapshot_mapLookupID _ _).bind_ret _
  obtain ⟨x, hx, rfl⟩ := hone _ _ _ h.runs (fun _ _ => trivial)
  obtain ⟨st, hst, es, hv, rfl⟩ := exists_version h hx
  refine ⟨st, hst, es, hv, ?_⟩
  rw [eval_policyForPacket_request lib _ hop, lookupID_foldl, clientIDs]

/-- **A reply is judged by two versions.** -/
theorem reply_judged {layer : DHCPv4} (hop : layer.operation = opReply)
    {d : Option Decision × Bool}
    (h : Reads (watchConfig lib file) (policyForPacket lib layer) s rest d) :
    ∃ st₁ ∈ s :: rest, ∃ st₂ ∈ s :: rest, ∃ es₁ es₂,
      Version lib st₁.shared es₁ ∧ Version lib st₂.shared es₂
        ∧ d = replyOutcome lib layer (versionAction es₁ es₂ layer) := by
  obtain ⟨t₁, t₂, h₁, h₂, rfl⟩ := exists_tables_of_runs lib hop h.runs h.isSome
  obtain ⟨st₁, hst₁, es₁, hv₁, he₁⟩ := exists_version h h₁
  obtain ⟨st₂, hst₂, es₂, hv₂, he₂⟩ := exists_version h h₂
  cases he₁
  cases he₂
  exact ⟨st₁, hst₁, st₂, hst₂, es₁, es₂, hv₁, hv₂, by rw [mixedAction_foldl]⟩

/-! ## Which version decides -/

/-- A relay under a policy, on a host with one numbered interface. -/
abbrev underPolicy (p : Packet) : Call (Option Table) (Option Outcome) :=
  handlePacket .literal ⟨1500, false⟩ true numberedHost plainOptions true 2 (.complete p)

section Handled

variable {opts : ValidateOptions} {host : Host} {cfg : HandleOptions} {slotFree : Bool}
  {ifIndex : ℤ} {p : Packet} {o : Option Outcome}

/-- A valid packet is judged, and then handled as was judged if there is a slot. -/
theorem reads_policyForPacket (hi : 1 ≤ ifIndex) (hv : validateLayers lib opts p = none)
    (h : Reads (watchConfig lib file)
      (handlePacket lib opts true host cfg slotFree ifIndex (.complete p)) s rest o) :
    ∃ d, Reads (watchConfig lib file) (policyForPacket lib p.filtered) s rest d
      ∧ o = if slotFree = true ∧ d.2 = false then
          some (handle host cfg d.1 ifIndex p.filtered) else none := by
  obtain ⟨hr, hst, hc, hrun⟩ := h
  obtain ⟨r, hgate, rfl⟩ := hrun.of_bind_ret
  rw [admitPacket_of_policy hi hv] at hgate
  obtain ⟨d, hjudge, rfl⟩ := hgate.of_bind_ret
  refine ⟨d, ⟨hr, hst, hc, hjudge⟩, ?_⟩
  cases slotFree with
  | false => simp
  | true =>
    cases hd : d.2 with
    | false => simp
    | true => simp

theorem runs_handlePacket (hi : 1 ≤ ifIndex) (hv : validateLayers lib opts p = none)
    {t : Option Table} {held : List (Option Table)} {d : Option Decision × Bool}
    (h : (policyForPacket lib p.filtered).Runs t held d) :
    (handlePacket lib opts true host cfg true ifIndex (.complete p)).Runs t held
      (if d.2 then none else some (handle host cfg d.1 ifIndex p.filtered)) := by
  rw [handlePacket, admitPacket_of_policy hi hv]
  have hrun := (h.bind_ret (fun d => if d.2 then none else some (p.filtered, d.1))).bind_ret
    (Option.map fun a => handle host cfg a.2 ifIndex a.1)
  cases hd : d.2 with
  | false => simpa [hd] using hrun
  | true => simpa [hd] using hrun

/-- **A request is handled as one version of the policy says.** Whatever is written to
the file, reloaded and published while a request is judged, it is dropped or handled
as the entries of one whole, validated content of the file have it for the client, in
the sense of the grammar, and this content was published at a moment of the call. -/
theorem request_handled_by_version (hop : p.filtered.operation ≠ opReply) (hi : 1 ≤ ifIndex)
    (hv : validateLayers lib opts p = none)
    (h : Reads (watchConfig lib file)
      (handlePacket lib opts true host cfg slotFree ifIndex (.complete p)) s rest o) :
    ∃ st ∈ s :: rest, ∃ es, Version lib st.shared es ∧ ∃ action key,
      Entry.lookup es [clientID p.filtered, p.filtered.clientHWAddr] = (action, key)
        ∧ o = if slotFree = true ∧ action.kind ≠ .blackhole then
            some (handle host cfg (some (requestConfig action key)) ifIndex p.filtered)
          else none := by
  obtain ⟨d, hjudge, rfl⟩ := reads_policyForPacket hi hv h
  obtain ⟨st, hst, es, hver, rfl⟩ := request_judged hop hjudge
  refine ⟨st, hst, es, hver, (Entry.lookup es (clientIDs p.filtered)).1,
    (Entry.lookup es (clientIDs p.filtered)).2, rfl, ?_⟩
  rw [requestOutcome]
  split
  · next hb => simp [hb]
  · next hb => simp [hb]

/-- A DISCOVER is judged by `0xaa @default`, and when the call returns the file says
`0xaa @blackhole` and has been reloaded. -/
theorem request_handled_by_version_discover :
    ∃ s rest o, Reads (watchConfig .literal "/policy")
        (underPolicy (discoverPacket [0xaa] (by decide))) s rest o
      ∧ o.isSome = true
      ∧ (∃ st ∈ s :: rest,
        (underPolicy (discoverPacket [0xaa] (by decide))).eval st.shared.snapshot = none)
      ∧ ∃ st ∈ s :: rest, ∃ es, Version .literal st.shared es ∧ ∃ action key,
        Entry.lookup es [[0xaa], [2, 0, 0, 0, 0, 1]] = (action, key)
          ∧ o = if true = true ∧ action.kind ≠ .blackhole then
              some (handle numberedHost plainOptions (some (requestConfig action key)) 2
                (discoverPacket [0xaa] (by decide)).filtered)
            else none := by
  have hopen : parse .literal "0xaa @default\n".toList
      = .ok (Table.empty.insert ⟨[0xaa], by decide⟩ { kind := .default }, []) := rfl
  have hclosed : parse .literal "0xaa @blackhole\n".toList
      = .ok (Table.empty.insert ⟨[0xaa], by decide⟩ { kind := .blackhole }, []) := rfl
  obtain ⟨s, s', h⟩ := exists_reloading ⟨_, run_watchConfig "/policy" hopen⟩
    ⟨_, run_watchConfig "/policy" hclosed⟩
  obtain ⟨rest, -, ⟨st, hst, hsnap⟩, -, hreads⟩ := h.exists_reads
  have hread := hreads (Call.runs_eval_head (underPolicy (discoverPacket [0xaa] (by decide))) _ _)
  exact ⟨s, rest, _, hread, by decide, ⟨st, List.mem_cons_of_mem s hst, by rw [hsnap]; decide⟩,
    request_handled_by_version (by decide) (by decide) (by decide) hread⟩

/-- **A reply is handled as two versions of the policy say**: one of them judges the
client, and where it does not deny, the other one has the entry of the tag. -/
theorem reply_handled_by_versions (hop : p.filtered.operation = opReply) (hi : 1 ≤ ifIndex)
    (hv : validateLayers lib opts p = none)
    (h : Reads (watchConfig lib file)
      (handlePacket lib opts true host cfg slotFree ifIndex (.complete p)) s rest o) :
    ∃ st₁ ∈ s :: rest, ∃ st₂ ∈ s :: rest, ∃ es₁ es₂,
      Version lib st₁.shared es₁ ∧ Version lib st₂.shared es₂
        ∧ o = if slotFree = true ∧ (versionAction es₁ es₂ p.filtered).kind ≠ .blackhole then
            some (handle host cfg (some { replyConfig lib (versionAction es₁ es₂ p.filtered) with
              replySubOpts := subOptions p.filtered }) ifIndex p.filtered)
          else none := by
  obtain ⟨d, hjudge, rfl⟩ := reads_policyForPacket hi hv h
  obtain ⟨st₁, hst₁, st₂, hst₂, es₁, es₂, hv₁, hv₂, rfl⟩ := reply_judged hop hjudge
  refine ⟨st₁, hst₁, st₂, hst₂, es₁, es₂, hv₁, hv₂, ?_⟩
  rw [replyOutcome]
  split
  · next hb => simp [hb]
  · next hb => simp [hb]

/-- An OFFER that echoes the tag `0xe1`, while `* @default` is replaced by
`0xe1 @default @blackhole`: the first file admits the client, and the second one drops the
reply. Neither of them alone does both. -/
theorem reply_handled_by_versions_offer :
    ∃ s rest o, Reads (watchConfig .literal "/policy") (underPolicy answerPacket) s rest o
      ∧ policyTag answerPacket.filtered = [0xe1]
      ∧ (∀ st ∈ s :: rest, o ≠ (underPolicy answerPacket).eval st.shared.snapshot)
      ∧ ∃ st₁ ∈ s :: rest, ∃ st₂ ∈ s :: rest, ∃ es₁ es₂,
        Version .literal st₁.shared es₁ ∧ Version .literal st₂.shared es₂
          ∧ o = if true = true ∧ (versionAction es₁ es₂ answerPacket.filtered).kind ≠ .blackhole
            then some (handle numberedHost plainOptions
              (some { replyConfig .literal (versionAction es₁ es₂ answerPacket.filtered) with
                replySubOpts := subOptions answerPacket.filtered }) 2 answerPacket.filtered)
            else none := by
  have hopen : parse .literal "* @default\n".toList = .ok (openTable, []) := rfl
  have hdrop : parse .literal "0xe1 @default @blackhole\n".toList
      = .ok (Table.empty.insert ⟨[0xe1], by decide⟩
        { kind := .default, reply := { kind := .blackhole } }, []) := rfl
  obtain ⟨s, s', h⟩ := exists_reloading ⟨_, run_watchConfig "/policy" hopen⟩
    ⟨_, run_watchConfig "/policy" hdrop⟩
  obtain ⟨rest, hsnap, -, hlast, hreads⟩ := h.exists_reads
  have hjudge := runs_mixedAction .literal (show answerPacket.filtered.operation = opReply from rfl)
    _ _ _ hlast
  have hread := hreads (show (underPolicy answerPacket).Runs _ _ _ from
    runs_handlePacket (by decide) (by decide) hjudge)
  refine ⟨s, rest, _, hread, rfl, fun st hst heq => ?_,
    reply_handled_by_versions (by decide) (by decide) (by decide) hread⟩
  have hcount := congrArg (fun o => o.map (fun o => o.attempts.length)) heq
  rcases hsnap st hst with hst | hst
  · rw [hst] at hcount
    exact absurd hcount (by decide)
  · rw [hst] at hcount
    exact absurd hcount (by decide)

/-- **A client whom no version admits gets nothing through.** If every version of the
file that is in force while a packet is judged denies the client of the packet, the
packet is dropped, be it a request or a reply, valid or not, and whatever tag it
carries. -/
theorem denied_by_every_version
    (hden : ∀ st ∈ s :: rest, ∀ es, Version lib st.shared es →
      (Entry.lookup es [clientID p.filtered, p.filtered.clientHWAddr]).1.kind = .blackhole)
    (h : Reads (watchConfig lib file)
      (handlePacket lib opts true host cfg slotFree ifIndex (.complete p)) s rest o) :
    o = none := by
  rcases admitPacket_cases lib opts ifIndex (.complete p) with hnone | ⟨q, hq, hi, hv⟩
  · obtain ⟨r, hgate, rfl⟩ := h.runs.of_bind_ret
    rw [hnone true] at hgate
    rw [hgate.eq_of_ret]
    simp
  · cases hq
    obtain ⟨d, hjudge, rfl⟩ := reads_policyForPacket hi hv h
    by_cases hop : p.filtered.operation = opReply
    · obtain ⟨st₁, hst₁, st₂, hst₂, es₁, es₂, hv₁, -, rfl⟩ := reply_judged hop hjudge
      have hbase : (versionAction es₁ es₂ p.filtered).kind = .blackhole := by
        rw [versionAction, clientIDs]
        simp only [hden st₁ hst₁ es₁ hv₁, if_true]
      simp [replyOutcome, hbase]
    · obtain ⟨st, hst, es, hver, rfl⟩ := request_judged hop hjudge
      simp [requestOutcome, clientIDs, hden st hst es hver]

/-- A DISCOVER of a client that is listed neither by `0xbb @default` nor by
`0xcc @default`, while the one replaces the other. -/
theorem denied_by_every_version_discover :
    ∃ s rest, Reads (watchConfig .literal "/policy")
        (underPolicy (discoverPacket [0xaa] (by decide))) s rest none
      ∧ (underPolicy (discoverPacket [0xbb] (by decide))).eval s.shared.snapshot ≠ none
      ∧ ∃ st ∈ rest,
        (underPolicy (discoverPacket [0xcc] (by decide))).eval st.shared.snapshot ≠ none := by
  have hbb : parse .literal "0xbb @default\n".toList
      = .ok (Table.empty.insert ⟨[0xbb], by decide⟩ { kind := .default }, []) := rfl
  have hcc : parse .literal "0xcc @default\n".toList
      = .ok (Table.empty.insert ⟨[0xcc], by decide⟩ { kind := .default }, []) := rfl
  obtain ⟨s, s', h⟩ := exists_reloading ⟨_, run_watchConfig "/policy" hbb⟩
    ⟨_, run_watchConfig "/policy" hcc⟩
  obtain ⟨rest, hsnap, ⟨st, hst, hcc⟩, -, hreads⟩ := h.exists_reads
  have hread := hreads (Call.runs_eval_getLast
    (underPolicy (discoverPacket [0xaa] (by decide))) _ _)
  have hnone := denied_by_every_version (fun st hst es hver => by
    have hpub := hver.published
    rw [← lookupID_foldl]
    rcases hsnap st hst with hst | hst
    · rw [← Option.some.inj (hst.symm.trans hpub)]
      decide
    · rw [← Option.some.inj (hst.symm.trans hpub)]
      decide) hread
  rw [hnone] at hread
  exact ⟨s, rest, hread, by rw [h.snap]; decide, st, hst, by rw [hcc]; decide⟩

/-- **An edit of the policy file takes effect with the next poll.** Let the file be in
place and denote `es`, and let a poll that has seen it end without an error. Then every
packet that is received while the file stays is handled as by a relay with the policy
`es`, whatever polls and reloads go on at the same time. -/
theorem policy_takes_effect {s₀ s₁ : Threads.State (Shared Char Table) (Pc Char Table)}
    {i j : ℕ} {f : File Char} {es : List Entry} {frame : Decoding}
    (hr : (watching (watchConfig lib file)).system.Reachable s₀)
    (hpath : s₀.shared.disk.path = some j) (hfile : s₀.shared.disk.files j = some f)
    (hlong : (scanLines f.content).2 = false) (hmeans : FileMeans lib (scanLines f.content).1 es)
    (hi : s₀.thread i = .polled f.stat) (hpoll : PollRun (watchConfig lib file) i s₀ s₁)
    (hidle : s₁.thread i = .idle)
    (hbefore : Relation.ReflTransGen (Quiet (watchConfig lib file)) s₁ s)
    (hquiet : (s :: rest).IsChain (Quiet (watchConfig lib file)))
    (h : Reads (watchConfig lib file)
      (handlePacket lib opts true host cfg slotFree ifIndex frame) s rest o) :
    o = (handlePacket lib opts true host cfg slotFree ifIndex frame).eval
      (some (es.foldl Table.put Table.empty)) := by
  obtain ⟨warnings, hparse⟩ := parse_ok_iff.mpr ⟨hlong, es, hmeans, rfl⟩
  have hplace : InPlace (watchConfig lib file) s₀.shared.disk j f
      (es.foldl Table.put Table.empty) :=
    ⟨hpath, hfile, warnings, run_watchConfig file hparse⟩
  exact h.of_converged hplace (hpoll.converged hr hplace hi hidle hbefore).2 hquiet

/-- A DISCOVER after `* @default` was overwritten with `* @blackhole`. -/
theorem policy_takes_effect_discover :
    ∃ s, Reads (watchConfig .literal "/policy")
        (underPolicy (discoverPacket [0xaa] (by decide))) s [] none := by
  have hopen : parse .literal "* @default\n".toList = .ok (openTable, []) := rfl
  obtain ⟨warnings, hclosed⟩ : ∃ warnings, parse .literal "* @blackhole\n".toList
      = .ok (Table.empty.put ⟨none, { kind := .blackhole }⟩, warnings) := ⟨_, rfl⟩
  obtain ⟨hlong, es, hmeans, hes⟩ := parse_ok_iff.mp ⟨_, hclosed⟩
  obtain ⟨s₀, s, h⟩ := exists_reloading ⟨_, run_watchConfig "/policy" hopen⟩
    ⟨_, run_watchConfig "/policy" hclosed⟩
  have hr := (h.poll.converged h.reachable h.place h.polled h.idle .refl).1
  have hread := reads_eval hr (h.poll.started h.started)
    (underPolicy (discoverPacket [0xaa] (by decide)))
  have heffect := policy_takes_effect h.reachable h.place.path h.place.file hlong hmeans h.polled
    h.poll h.idle .refl (List.isChain_singleton _) hread
  have hnone : (underPolicy (discoverPacket [0xaa] (by decide))).eval
      (some (Table.empty.put ⟨none, { kind := .blackhole }⟩)) = none := by decide
  rw [← hes, hnone] at heffect
  rw [heffect] at hread
  exact ⟨_, hread⟩

end Handled

end Relay
