import DhcpRelay.Transparency

/-!
# The servers of a policy

A policy may send a client's requests to a server of its own. Before a table is
published, every server in it is checked (`pkg/macpolicy/macpolicy.go`): it has to be a
literal address, or a name that resolves now. The check goes through the entries in the
order of a Go map, which is any order, and asks the resolver, whose answers change with
time and which fails once the context is done. A set of the servers that have passed
spares it the question for a name that it has seen.

`Names.lookupHost` gives the answer to every question of a validation by its number, and
`Pass` carries the log of the questions. `validateContext_sound` says what the log of any
validation looks like and when the table is accepted, and `checked_servers` what this
means on the wire: a request goes to the configured server or to one that has passed.
-/

open Dhcp Relay CfgMatch

namespace MacPolicy

/-- What names mean while a table is validated. -/
structure Names where
  /-- `net.ParseIP`. -/
  parseIP : Text → Option IP
  /-- The error of the `n`-th call of `LookupHost`, which may be that of the context. -/
  lookupHost : ℕ → Text → Option String
  /-- `strconv.Quote`. -/
  quote : Text → String

/-- The state of a validation: `serverSet`, and the questions asked with their errors. -/
structure Pass where
  seen : List Text := []
  log : List (Text × Option String) := []
  deriving DecidableEq, Repr

/-- The error for a server that does not resolve. -/
def Names.serverError (names : Names) (server : Text) (e : String) : String :=
  "server " ++ names.quote server ++ " is not a valid IP or resolvable host: " ++ e

/-- `ValidateServerContext`. -/
def validateServerContext (names : Names) (a : Action) (s : Pass) : Pass × Option String :=
  if a.kind ≠ .server then (s, none)
  else if a.server ∈ s.seen then (s, none)
  else if (names.parseIP a.server).isSome then ({ s with seen := a.server :: s.seen }, none)
  else
    match names.lookupHost s.log.length a.server with
    | some e =>
      ({ s with log := s.log ++ [(a.server, some e)] }, some (names.serverError a.server e))
    | none => (⟨a.server :: s.seen, s.log ++ [(a.server, none)]⟩, none)

/-- The loop of `ValidateContext`. -/
def validateActions (names : Names) : List Action → Pass → Pass × Option String
  | [], s => (s, none)
  | a :: as, s =>
    match validateServerContext names a s with
    | (s, some e) => (s, some e)
    | (s, none) => validateActions names as s

/-- **`ValidateContext`**: the entries in some order, and then the fallback. -/
def Table.validateContext (t : Table) (names : Names) (order : List Action) :
    Pass × Option String :=
  match validateActions names order {} with
  | (s, some e) => (s, some e)
  | (s, none) => validateServerContext names t.fallback s

/-- The actions of the entries of a table. -/
def Table.listed (t : Table) : List Action := t.entries.entries.map Sigma.snd

/-- A server that a table sends clients to. -/
def Table.Sends (t : Table) (server : Text) : Prop :=
  ∃ a, (a ∈ t.listed ∨ a = t.fallback) ∧ a.kind = .server ∧ a.server = server

/-! ## The log of a validation -/

/-- **What the questions of a validation are**: about the servers `used`, those that are no
addresses, each of them once, and answered by the resolver. -/
structure Pass.Sound (names : Names) (used : Text → Prop) (s : Pass) : Prop where
  nodup : (s.log.map Prod.fst).Nodup
  asked : ∀ q ∈ s.log, used q.1 ∧ names.parseIP q.1 = none
  answered : ∀ n q, s.log[n]? = some q → names.lookupHost n q.1 = q.2

/-- **A validation that has not failed so far**: the servers of the actions `done` have
passed, and those that have passed are addresses or have been resolved. -/
structure Pass.Passed (names : Names) (used : Text → Prop) (done : Action → Prop) (s : Pass) :
    Prop extends Pass.Sound names used s where
  resolved : ∀ q ∈ s.log, q.2 = none ∧ q.1 ∈ s.seen
  passed : ∀ x ∈ s.seen, names.parseIP x ≠ none ∨ (x, none) ∈ s.log
  covered : ∀ a, done a → a.kind = .server → a.server ∈ s.seen

/-- The result of a validation of the actions `done`: all have passed, or the last question
has failed and its server is named. -/
inductive Checks (names : Names) (used : Text → Prop) (done : Action → Prop) :
    Pass × Option String → Prop where
  | passed {s : Pass} : s.Passed names used done → Checks names used done (s, none)
  | failed {s : Pass} {x : Text} {e : String} : s.Sound names used →
      s.log.getLast? = some (x, some e) →
      Checks names used done (s, some (names.serverError x e))

section Validation

variable {names : Names} {used : Text → Prop} {done done' : Action → Prop} {s : Pass}

theorem Pass.Passed.mono (h : s.Passed names used done) (hle : ∀ a, done' a → done a) :
    s.Passed names used done' :=
  { h with covered := fun a ha => h.covered a (hle a ha) }

theorem Checks.mono {r : Pass × Option String} (h : Checks names used done r)
    (hle : ∀ a, done' a → done a) : Checks names used done' r := by
  cases h with
  | passed hs => exact .passed (hs.mono hle)
  | failed hs hlast => exact .failed hs hlast

/-- One more question, about a server that has not passed yet. -/
theorem Pass.Passed.ask (h : s.Passed names used done) {x : Text} (hused : used x)
    (hnew : x ∉ s.seen) (hip : names.parseIP x = none) (seen : List Text) :
    Pass.Sound names used ⟨seen, s.log ++ [(x, names.lookupHost s.log.length x)]⟩ where
  nodup := by
    rw [List.map_append, List.map_singleton]
    refine h.nodup.append (List.nodup_singleton x) ?_
    rw [List.disjoint_singleton]
    intro hx
    obtain ⟨q, hq, rfl⟩ := List.mem_map.mp hx
    exact hnew (h.resolved q hq).2
  asked := by
    intro q hq
    rcases List.mem_append.mp hq with hq | hq
    · exact h.asked q hq
    · rw [List.mem_singleton.mp hq]
      exact ⟨hused, hip⟩
  answered := by
    intro n q hq
    rcases Nat.lt_trichotomy n s.log.length with hn | rfl | hn
    · rw [List.getElem?_append_left hn] at hq
      exact h.answered n q hq
    · rw [List.getElem?_concat_length] at hq
      cases hq
      rfl
    · rw [List.getElem?_eq_none (by simpa using hn)] at hq
      cases hq

/-- The server of one more action has passed. -/
theorem Pass.Passed.pass (h : s.Passed names used done) {a : Action}
    {log : List (Text × Option String)} (hs : Pass.Sound names used ⟨a.server :: s.seen, log⟩)
    (hsub : s.log ⊆ log) (hnew : ∀ q ∈ log, q ∈ s.log ∨ q = (a.server, none))
    (hok : names.parseIP a.server ≠ none ∨ (a.server, none) ∈ log) :
    Pass.Passed names used (fun b => b = a ∨ done b) ⟨a.server :: s.seen, log⟩ :=
  { hs with
    resolved := by
      intro q hq
      rcases hnew q hq with hq | rfl
      · exact ⟨(h.resolved q hq).1, List.mem_cons_of_mem _ (h.resolved q hq).2⟩
      · exact ⟨rfl, List.mem_cons_self⟩
    passed := by
      intro x hx
      rcases List.mem_cons.mp hx with rfl | hx
      · exact hok
      · exact (h.passed x hx).imp_right (fun hq => hsub hq)
    covered := by
      rintro b (rfl | hb) hk
      · exact List.mem_cons_self
      · exact List.mem_cons_of_mem _ (h.covered b hb hk) }

/-- **One action**: nothing to check, or a server that has passed before, an address, or a
name, which is asked for. -/
theorem checks_validateServerContext (h : s.Passed names used done) {a : Action}
    (hused : a.kind = .server → used a.server) :
    Checks names used (fun b => b = a ∨ done b) (validateServerContext names a s) := by
  have hkeep : (a.kind = .server → a.server ∈ s.seen) →
      s.Passed names used (fun b => b = a ∨ done b) := fun hmem =>
    { h with covered := fun b hb => hb.elim (fun e => e ▸ hmem) (h.covered b) }
  unfold validateServerContext
  by_cases hkind : a.kind = .server
  · rw [if_neg (not_not.mpr hkind)]
    by_cases hseen : a.server ∈ s.seen
    · rw [if_pos hseen]
      exact .passed (hkeep fun _ => hseen)
    · rw [if_neg hseen]
      cases hip : names.parseIP a.server with
      | some ip =>
        rw [if_pos Option.isSome_some]
        refine .passed (h.pass ⟨h.nodup, h.asked, h.answered⟩ (List.Subset.refl _)
          (fun q hq => .inl hq) (.inl ?_))
        rw [hip]
        exact Option.some_ne_none ip
      | none =>
        have hask := h.ask (hused hkind) hseen hip
        rw [if_neg (by rw [Option.isSome_none]; exact Bool.false_ne_true)]
        cases hdns : names.lookupHost s.log.length a.server with
        | some e =>
          rw [hdns] at hask
          exact .failed (hask s.seen) List.getLast?_concat
        | none =>
          rw [hdns] at hask
          refine .passed (h.pass (hask _) (List.subset_append_left _ _) (fun q hq => ?_)
            (.inr (List.mem_append_right _ List.mem_cons_self)))
          exact (List.mem_append.mp hq).imp_right List.mem_singleton.mp
  · rw [if_pos hkind]
    exact .passed (hkeep fun hk => absurd hk hkind)

/-- **The loop**, by induction on the actions that are left. -/
theorem checks_validateActions {as : List Action} (h : s.Passed names used done)
    (hused : ∀ a ∈ as, a.kind = .server → used a.server) :
    Checks names used (fun b => b ∈ as ∨ done b) (validateActions names as s) := by
  induction as generalizing s done with
  | nil => exact .passed (h.mono fun b hb => hb.resolve_left List.not_mem_nil)
  | cons a as ih =>
    rw [validateActions]
    cases hr : validateServerContext names a s with
    | mk s' err =>
      have hone := checks_validateServerContext h (hused a List.mem_cons_self)
      rw [hr] at hone
      cases hone with
      | failed hs hlast => exact .failed hs hlast
      | passed hs =>
        refine (ih hs fun b hb => hused b (List.mem_cons_of_mem _ hb)).mono fun b hb => ?_
        rcases hb with hb | hb
        · rcases List.mem_cons.mp hb with rfl | hb
          · exact .inr (.inl rfl)
          · exact .inl hb
        · exact .inr (.inr hb)

/-- The validation of a table, in whatever order its entries come. -/
theorem checks_validateContext (names : Names) (t : Table) {order : List Action}
    (horder : order.Perm t.listed) :
    Checks names t.Sends (fun a => a ∈ t.listed ∨ a = t.fallback)
      (t.validateContext names order) := by
  have hstart : Pass.Passed names t.Sends (fun _ => False) {} :=
    { nodup := List.nodup_nil
      asked := fun q hq => absurd hq List.not_mem_nil
      answered := fun n q hq => by cases hq
      resolved := fun q hq => absurd hq List.not_mem_nil
      passed := fun x hx => absurd hx List.not_mem_nil
      covered := fun a ha => ha.elim }
  have hloop := checks_validateActions hstart fun a ha hk =>
    ⟨a, .inl (horder.subset ha), hk, rfl⟩
  rw [Table.validateContext]
  cases hr : validateActions names order {} with
  | mk s err =>
    rw [hr] at hloop
    cases hloop with
    | failed hs hlast => exact .failed hs hlast
    | passed hs =>
      refine (checks_validateServerContext hs fun hk => ⟨_, .inr rfl, hk, rfl⟩).mono fun b hb => ?_
      exact hb.elim (fun hb => .inr (.inl (horder.symm.subset hb))) .inl

/-- The servers of a table that has passed are addresses or have been resolved. -/
theorem Pass.Passed.vouched {t : Table}
    (h : s.Passed names used (fun a => a ∈ t.listed ∨ a = t.fallback)) {x : Text}
    (hx : t.Sends x) : names.parseIP x ≠ none ∨ (x, none) ∈ s.log := by
  obtain ⟨a, ha, hk, rfl⟩ := hx
  exact h.passed _ (h.covered a ha hk)

end Validation

/-- **What a validation asks and when it accepts.** In whatever order the entries come and
however the resolver's answers change: it asks only for servers of the table that are no
addresses, each of them once. It accepts the table exactly when every server of it is an
address or was resolved, and otherwise names the server whose question came last and
failed. With a resolver that does not change its mind the order is irrelevant: the table is
accepted exactly when every server of it is an address or resolves. -/
theorem validateContext_sound (names : Names) (t : Table) {order : List Action}
    (horder : order.Perm t.listed) :
    (t.validateContext names order).1.Sound names t.Sends
      ∧ ((t.validateContext names order).2 = none
        ↔ ∀ x, t.Sends x →
          names.parseIP x ≠ none ∨ (x, none) ∈ (t.validateContext names order).1.log)
      ∧ (∀ e, (t.validateContext names order).2 = some e →
        ∃ x e', (t.validateContext names order).1.log.getLast? = some (x, some e')
          ∧ e = names.serverError x e')
      ∧ ∀ resolve : Text → Option String, (∀ n x, names.lookupHost n x = resolve x) →
        ((t.validateContext names order).2 = none
          ↔ ∀ x, t.Sends x → names.parseIP x ≠ none ∨ resolve x = none) := by
  have h := checks_validateContext names t horder
  generalize t.validateContext names order = r at h
  cases h with
  | @passed s hs =>
    refine ⟨hs.toSound, ⟨fun _ x hx => hs.vouched hx, fun _ => rfl⟩, fun e he => (by cases he), ?_⟩
    refine fun resolve hresolve =>
      ⟨fun _ x hx => (hs.vouched hx).imp_right fun hlog => ?_, fun _ => rfl⟩
    obtain ⟨n, hn⟩ := List.mem_iff_getElem?.mp hlog
    exact (hresolve n x).symm.trans (hs.answered n _ hn)
  | @failed s x e hs hlast =>
    have hmem := List.mem_of_getLast? hlast
    obtain ⟨hsends, hip⟩ := hs.asked _ hmem
    refine ⟨hs, ⟨fun he => (by cases he), fun hall => ?_⟩, fun e' he' => ?_, ?_⟩
    · rcases hall x hsends with hne | hlog
      · exact absurd hip hne
      · -- the question would have been asked twice, with two answers
        have heq := List.inj_on_of_nodup_map hs.nodup hlog hmem rfl
        cases heq
    · cases he'
      exact ⟨x, e, hlast, rfl⟩
    · refine fun resolve hresolve => ⟨fun he => (by cases he), fun hall => ?_⟩
      obtain ⟨n, hn⟩ := List.mem_iff_getElem?.mp hmem
      have hfails : resolve x = some e := (hresolve n x).symm.trans (hs.answered n _ hn)
      rcases hall x hsends with hne | hok
      · exact absurd hip hne
      · rw [hfails] at hok
        cases hok

/-- A resolver that knows one name. -/
def oneName : Names where
  parseIP x := if x = "10.0.0.9".toList then some [10, 0, 0, 9] else none
  lookupHost _ x := if x = "dhcp.example".toList then none else some "no such host"
  quote := GoLib.literal.quote

/-- A table that sends one client to an address and two to names. -/
def serverTable : Table :=
  ((Table.empty.insert ⟨[0xd1], by decide⟩ { kind := .server, server := "10.0.0.9".toList }).insert
    ⟨[0xd2], by decide⟩ { kind := .server, server := "dhcp.example".toList }).insert
    ⟨[0xd3], by decide⟩ { kind := .server, server := "dhcp.example".toList }

/-- The name of two entries is asked for once. -/
theorem validateContext_sound_servers :
    (serverTable.validateContext oneName serverTable.listed).2 = none
      ∧ (serverTable.validateContext oneName serverTable.listed).1.log
        = [("dhcp.example".toList, none)]
      ∧ (serverTable.validateContext oneName serverTable.listed).1.Sound oneName
          serverTable.Sends :=
  ⟨by decide, by decide, (validateContext_sound oneName serverTable (List.Perm.refl _)).1⟩

/-! ## The servers on the wire -/

/-- A validation of a table has ended without an error. -/
structure Table.Accepted (t : Table) (names : Names) (order : List Action) : Prop where
  perm : order.Perm t.listed
  err : (t.validateContext names order).2 = none

theorem Table.Accepted.vouched {t : Table} {names : Names} {order : List Action}
    (h : t.Accepted names order) {x : Text} (hx : t.Sends x) :
    names.parseIP x ≠ none ∨ (x, none) ∈ (t.validateContext names order).1.log := by
  have hchecks := checks_validateContext names t h.perm
  have herr := h.err
  generalize t.validateContext names order = r at hchecks herr
  cases hchecks with
  | passed hs => exact hs.vouched hx
  | failed => cases herr

/-- The action for a client is one of the table. -/
theorem Table.lookupID_mem (t : Table) (ids : List Bytes) :
    (t.lookupID ids).1 ∈ t.listed ∨ (t.lookupID ids).1 = t.fallback := by
  induction ids with
  | nil => exact .inr rfl
  | cons id ids ih =>
    rw [Table.lookupID_cons]
    cases hl : t.entries.lookup id with
    | none => exact ih
    | some a => exact .inl (List.mem_map_of_mem (f := Sigma.snd) (AList.mem_lookup_iff.mp hl))

/-- **A request is handled under the decision of one table** that was in force. -/
theorem request_under_one_table {lib : GoLib} {opts : ValidateOptions} {host : Host}
    {cfg : HandleOptions} {slotFree : Bool} {ifIndex : ℤ} {p : Packet}
    (hop : p.dhcp.operation = opRequest) {s : Option Table} {held : List (Option Table)}
    {o : Outcome}
    (h : (handlePacket lib opts true host cfg slotFree ifIndex (.complete p)).Runs s held
      (some o)) :
    ∃ t, some t ∈ held
      ∧ ∃ a key, t.lookupID [clientID p.filtered, p.dhcp.clientHWAddr] = (a, key)
        ∧ a.kind ≠ .blackhole
        ∧ o = handle host cfg (some (requestConfig a key)) ifIndex p.filtered := by
  have hreq : p.filtered.operation ≠ opReply := DHCPv4.not_reply_of_request hop
  obtain ⟨r, hgate, hr⟩ := h.of_bind_ret
  obtain ⟨x, hx, rfl⟩ := singleSnapshot_admitPacket hreq (fun _ => True) _ _ _ hgate
    (fun _ _ => trivial)
  rcases admitPacket_cases lib opts ifIndex (.complete p) with hnone | ⟨q, hq, hi, hv⟩
  · rw [hnone true] at hr
    cases slotFree <;> cases hr
  · cases hq
    rw [admitPacket_of_policy hi hv, Call.eval_bind, Call.eval_ret] at hr
    cases x with
    | none =>
      rw [policyForPacket_request_eq lib hreq] at hr
      cases slotFree <;> cases hr
    | some t =>
      rw [eval_policyForPacket_request lib t hreq, requestOutcome] at hr
      refine ⟨t, hx, _, _, rfl, ?_⟩
      by_cases hk : (t.lookupID [clientID p.filtered, p.filtered.clientHWAddr]).1.kind = .blackhole
      · rw [if_pos hk] at hr
        cases slotFree <;> cases hr
      · rw [if_neg hk] at hr
        cases slotFree with
        | false => cases hr
        | true => exact ⟨hk, (Option.some.inj hr)⟩

/-- **A request goes to a server that has been checked.** Whatever is reloaded while a
request is handled, let every table that is published meanwhile have passed its validation,
each at its own time and with its own answers of the resolver. Then all that is sent are
datagrams to one server, which one of these tables has for the client: the configured one
where the action for the client names none, and otherwise the one it names, which is an
address or a name that was resolved when that table was validated. -/
theorem checked_servers (lib : GoLib) (opts : ValidateOptions) (host : Host)
    (cfg : HandleOptions) (slotFree : Bool) (ifIndex : ℤ) {p : Packet}
    (hop : p.dhcp.operation = opRequest) {s : Option Table} {held : List (Option Table)}
    (hheld : ∀ t, some t ∈ held → ∃ names order, t.Accepted names order) {o : Outcome}
    (h : (handlePacket lib opts true host cfg slotFree ifIndex (.complete p)).Runs s held
      (some o)) :
    ∃ t names order, some t ∈ held ∧ t.Accepted names order
      ∧ ∃ a, a = t.lookup [clientID p.filtered, p.dhcp.clientHWAddr] ∧ a.kind ≠ .blackhole
        ∧ ∃ dst, ((a.kind ≠ .server ∨ a.server = []) ∧ dst = cfg.dhcpServerAddress
            ∨ a.kind = .server ∧ a.server ≠ [] ∧ dst = a.server
              ∧ (names.parseIP dst ≠ none
                ∨ (dst, none) ∈ (t.validateContext names order).1.log))
          ∧ ∀ e ∈ o.sent, ∃ m, e = .datagram dst m := by
  obtain ⟨t, ht, a, key, hlookup, hk, rfl⟩ := request_under_one_table hop h
  obtain ⟨names, order, hacc⟩ := hheld t ht
  refine ⟨t, names, order, ht, hacc, a, ?_, hk, effectiveServerAddress cfg (requestConfig a key),
    ?_, fun e he => ?_⟩
  · rw [Table.lookup, hlookup]
  · have hmem := t.lookupID_mem [clientID p.filtered, p.dhcp.clientHWAddr]
    rw [hlookup] at hmem
    rw [effectiveServerAddress_requestConfig]
    by_cases hs : a.kind = .server ∧ a.server ≠ []
    · rw [if_pos hs]
      exact .inr ⟨hs.1, hs.2, rfl, hacc.vouched ⟨a, hmem, hs.1, rfl⟩⟩
    · rw [if_neg hs]
      exact .inl ⟨(not_and_or.mp hs).imp_right not_not.mp, rfl⟩
  · obtain ⟨-, hemits⟩ := emits_of_mem_attempts (Outcome.mem_sent.mp he)
    cases hemits with
    | stamped => exact ⟨_, rfl⟩
    | passed => exact ⟨_, rfl⟩
    | returned hrep => exact absurd hrep (DHCPv4.not_reply_of_request hop)
    | delivered hrep => exact absurd hrep (DHCPv4.not_reply_of_request hop)

/-- A DISCOVER of the client whose server is an address goes there. -/
theorem checked_servers_address :
    ∃ o, (handlePacket .literal ⟨1500, false⟩ true numberedHost plainOptions true 2
        (.complete (discoverPacket [0xd1] (by decide)))).Runs (some serverTable)
          [some serverTable] (some o)
      ∧ o.sent.length = 1 ∧ serverTable.Accepted oneName serverTable.listed
      ∧ ∀ e ∈ o.sent, ∃ m, e = .datagram "10.0.0.9".toList m := by
  let p := discoverPacket [0xd1] (by decide)
  have hacc : serverTable.Accepted oneName serverTable.listed := ⟨List.Perm.refl _, by decide⟩
  have heval : (handlePacket .literal ⟨1500, false⟩ true numberedHost plainOptions true 2
      (.complete p)).eval (some serverTable)
        = some (handle numberedHost plainOptions (some (requestConfig
            { kind := .server, server := "10.0.0.9".toList } (some [0xd1]))) 2 p.filtered) := by
    have hid : clientID p.filtered = [0xd1] := by decide
    rw [handlePacket, Call.eval_bind, admitPacket_of_policy (by decide) (by decide),
      Call.eval_bind, eval_policyForPacket_request .literal _ (by decide), hid]
    rfl
  have hrun := Call.runs_eval (handlePacket .literal ⟨1500, false⟩ true numberedHost plainOptions
    true 2 (.complete p)) (some serverTable)
  rw [heval] at hrun
  have hheld : ∀ t, some t ∈ [some serverTable] → ∃ names order, t.Accepted names order := by
    intro t ht
    cases List.mem_singleton.mp ht
    exact ⟨_, _, hacc⟩
  obtain ⟨t, names, order, ht, -, a, ha, -, dst, hdst, hall⟩ := checked_servers .literal _
    numberedHost plainOptions true 2 rfl hheld hrun
  cases List.mem_singleton.mp ht
  have hlookup : a = { kind := .server, server := "10.0.0.9".toList } := ha.trans (by decide)
  refine ⟨_, hrun, by decide, hacc, ?_⟩
  rcases hdst with ⟨hnone, -⟩ | ⟨-, -, rfl, -⟩
  · rw [hlookup] at hnone
    exact absurd hnone (by decide)
  · rw [hlookup] at hall
    exact hall

end MacPolicy
