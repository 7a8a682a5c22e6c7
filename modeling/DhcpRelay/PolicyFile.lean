import DhcpRelay.MacPolicy
import DhcpRelay.KeyedList

/-!
# What a policy file means

A policy file is a list of lines, each with a key, an optional action and an
optional reply field. The grammar is given here on its own, as relations between
the text and what it denotes: `KeyMeans`, `ForwardMeans` and `ReplyMeans` for the
fields, `LineMeans` for a line and `FileMeans` for the file, which denotes a list
of entries. What such a list says about a client is `Entry.lookup`: the first
identifier that has an entry decides, and of several entries the last.

`policyFile_grammar` says that `parse` is this grammar. A file is accepted exactly
when every line has a meaning, and a lookup in the table is a lookup in the list
of entries. In particular the table does not depend on how a key is written, nor
on how entries with distinct keys are ordered.
-/

namespace MacPolicy

open CfgMatch (Selector SelectorMeans fields)

/-! ## The grammar -/

/-- **What a key denotes**: every other client, or the bytes of an identifier,
which are one to 241 in number. -/
inductive KeyMeans : Text → Option Key → Prop where
  | catchAll : KeyMeans "*".toList none
  | mac {token : Text} {id : Key} : parseMAC token = some id.val → id.val.length = 6 →
      KeyMeans token (some id)
  | hex {digits : Text} {id : Key} : hexDecodeString digits = some id.val →
      KeyMeans ("0x".toList ++ digits) (some id)
  | hexUpper {digits : Text} {id : Key} : hexDecodeString digits = some id.val →
      KeyMeans ("0X".toList ++ digits) (some id)

/-- **What an action field denotes.** A word with an at sign is reserved, and
only two are known. -/
inductive ForwardMeans : Text → Action → Prop where
  | default : ForwardMeans "@default".toList { kind := .default }
  | blackhole : ForwardMeans "@blackhole".toList { kind := .blackhole }
  | server {host : Text} : host ≠ [] → host.head? ≠ some '@' →
      ForwardMeans host { kind := .server, server := host }

/-- **What a reply field denotes.** -/
inductive ReplyMeans (lib : GoLib) : Text → ReplyAction → Prop where
  | default : ReplyMeans lib "@default".toList { kind := .ingress }
  | blackhole : ReplyMeans lib "@blackhole".toList { kind := .blackhole }
  | selector {token : Text} {sel : Selector} : token ≠ [] → token.head? ≠ some '@' →
      SelectorMeans lib token sel → ReplyMeans lib token { sel with kind := .selected }

/-- An entry of a policy file: the clients it is about, `none` for every other
client, and their action. -/
structure Entry where
  key : Option Key
  action : Action

/-- **What a line denotes.** Action and reply are optional. -/
inductive LineMeans (lib : GoLib) : List Text → Entry → Prop where
  | key {k : Text} {id : Option Key} : KeyMeans k id →
      LineMeans lib [k] ⟨id, { kind := .default }⟩
  | action {k a : Text} {id : Option Key} {action : Action} : KeyMeans k id →
      ForwardMeans a action → LineMeans lib [k, a] ⟨id, action⟩
  | reply {k a r : Text} {id : Option Key} {action : Action} {reply : ReplyAction} :
      KeyMeans k id → ForwardMeans a action → ReplyMeans lib r reply →
      LineMeans lib [k, a, r] ⟨id, { action with reply }⟩

/-- **What the lines of a file denote.** A line that is blank after its comment
denotes nothing. -/
inductive FileMeans (lib : GoLib) : List Text → List Entry → Prop where
  | nil : FileMeans lib [] []
  | blank {l : Text} {ls : List Text} {es : List Entry} : fields l = [] →
      FileMeans lib ls es → FileMeans lib (l :: ls) es
  | line {l : Text} {ls : List Text} {e : Entry} {es : List Entry} :
      LineMeans lib (fields l) e → FileMeans lib ls es → FileMeans lib (l :: ls) (e :: es)

/-- A file has a meaning when each of its lines has. -/
theorem exists_fileMeans_iff {lib : GoLib} {ls : List Text} :
    (∃ es, FileMeans lib ls es)
      ↔ ∀ l ∈ ls, fields l = [] ∨ ∃ e, LineMeans lib (fields l) e := by
  constructor
  · rintro ⟨es, h⟩
    induction h with
    | nil => exact fun l hl => absurd hl List.not_mem_nil
    | blank hblank _ ih =>
      intro l hl
      rcases List.mem_cons.mp hl with rfl | hl
      · exact .inl hblank
      · exact ih l hl
    | line hline _ ih =>
      intro l hl
      rcases List.mem_cons.mp hl with rfl | hl
      · exact .inr ⟨_, hline⟩
      · exact ih l hl
  · intro h
    induction ls with
    | nil => exact ⟨[], .nil⟩
    | cons l ls ih =>
      obtain ⟨es, hes⟩ := ih (fun l' hl' => h l' (List.mem_cons_of_mem l hl'))
      rcases h l List.mem_cons_self with hblank | ⟨e, he⟩
      · exact ⟨es, .blank hblank hes⟩
      · exact ⟨e :: es, .line he hes⟩

/-! ## The meaning of a list of entries -/

/-- The bytes of an entry's key. -/
def Entry.id (e : Entry) : Option Bytes := e.key.map Subtype.val

/-- The action that a list of entries gives to an identifier, or to every other
client: that of the last entry about it. -/
def Entry.actionOf (es : List Entry) (id : Option Bytes) : Option Action :=
  (lastBy Entry.id es id).map Entry.action

/-- **What a list of entries says about a client.** The first of its identifiers
that is not empty and has an entry decides; a client without one is denied unless
there is an entry for every other client. -/
def Entry.lookup (es : List Entry) (ids : List Bytes) : Action × Option Bytes :=
  match ids.find? (fun id => id ≠ [] ∧ ∃ e ∈ es, e.id = some id) with
  | some id => ((Entry.actionOf es (some id)).getD {}, some id)
  | none => ((Entry.actionOf es none).getD {}, none)

/-- What an entry does to a table. -/
def Table.put (t : Table) (e : Entry) : Table :=
  match e.key with
  | none => { t with fallback := e.action }
  | some k => t.insert k e.action

theorem fallback_put (t : Table) (e : Entry) :
    (t.put e).fallback = if e.id = none then e.action else t.fallback := by
  obtain ⟨key, action⟩ := e
  cases key with
  | none => rfl
  | some k => rfl

theorem lookup_entries_put (t : Table) (e : Entry) (id : Bytes) :
    (t.put e).entries.lookup id
      = if e.id = some id then some e.action else t.entries.lookup id := by
  obtain ⟨key, action⟩ := e
  cases key with
  | none => rfl
  | some k =>
    show (t.entries.insert k.val action).lookup id
      = if some k.val = some id then some action else t.entries.lookup id
    by_cases h : k.val = id
    · rw [if_pos (congrArg some h), ← h, AList.lookup_insert]
    · rw [if_neg (fun h' => h (Option.some.inj h')), AList.lookup_insert_ne (Ne.symm h)]

/-- **The last entry of an identifier is the one in the table.** -/
theorem lookup_entries_foldl (es : List Entry) (t : Table) (id : Bytes) :
    (es.foldl Table.put t).entries.lookup id
      = (Entry.actionOf es (some id)).or (t.entries.lookup id) := by
  induction es generalizing t with
  | nil => rfl
  | cons e es ih =>
    rw [List.foldl_cons, ih, lookup_entries_put, Entry.actionOf, Entry.actionOf, lastBy_cons]
    cases lastBy Entry.id es (some id) with
    | some x => rfl
    | none =>
      show (if e.id = some id then some e.action else t.entries.lookup id)
        = ((if e.id = some id then some e else none).map Entry.action).or (t.entries.lookup id)
      split
      · rfl
      · rfl

theorem fallback_foldl (es : List Entry) (t : Table) :
    (es.foldl Table.put t).fallback = (Entry.actionOf es none).getD t.fallback := by
  induction es generalizing t with
  | nil => rfl
  | cons e es ih =>
    rw [List.foldl_cons, ih, fallback_put, Entry.actionOf, Entry.actionOf, lastBy_cons]
    cases lastBy Entry.id es none with
    | some x => rfl
    | none =>
      show (if e.id = none then e.action else t.fallback)
        = ((if e.id = none then some e else none).map Entry.action).getD t.fallback
      split
      · rfl
      · rfl

/-- **A lookup in the table is a lookup in the entries.** -/
theorem lookupID_foldl (es : List Entry) (ids : List Bytes) :
    (es.foldl Table.put Table.empty).lookupID ids = Entry.lookup es ids := by
  have hempty : ∀ id, Table.empty.entries.lookup id = none := fun id => AList.lookup_empty id
  have hsome : ∀ id, (Entry.actionOf es (some id)).isSome = true
      ↔ ∃ e ∈ es, e.id = some id := by
    intro id
    rw [Entry.actionOf, Option.isSome_map, isSome_lastBy]
  unfold Entry.lookup
  induction ids with
  | nil =>
    rw [Table.lookupID, fallback_foldl]
    rfl
  | cons id ids ih =>
    rw [Table.lookupID]
    by_cases hne : id = []
    · rw [if_pos (by rw [hne]; rfl), List.find?_cons_of_neg (by simp [hne])]
      exact ih
    · rw [if_neg (fun h => hne (List.length_eq_zero_iff.mp h)), lookup_entries_foldl, hempty,
        Option.or_none]
      cases hact : Entry.actionOf es (some id) with
      | some a =>
        have hex := (hsome id).mp (by rw [hact]; rfl)
        rw [List.find?_cons_of_pos (by simpa using ⟨hne, hex⟩)]
        dsimp only
        rw [hact]
        rfl
      | none =>
        have hex : ¬ ∃ e ∈ es, e.id = some id := fun h => by
          have := (hsome id).mpr h
          rw [hact] at this
          cases this
        rw [List.find?_cons_of_neg (by simpa using fun _ => not_exists.mp hex)]
        exact ih

/-- Only the order within a key matters. -/
theorem Entry.lookup_congr {es es' : List Entry}
    (h : ∀ id, es.filter (fun e => e.id = id) = es'.filter (fun e => e.id = id))
    (ids : List Bytes) : Entry.lookup es ids = Entry.lookup es' ids := by
  have hact : ∀ id, Entry.actionOf es id = Entry.actionOf es' id := fun id =>
    congrArg (Option.map Entry.action) (lastBy_congr (h id))
  have hex : ∀ id, (∃ e ∈ es, e.id = some id) ↔ ∃ e ∈ es', e.id = some id := by
    intro id
    rw [← isSome_lastBy, ← isSome_lastBy, lastBy_congr (h (some id))]
  unfold Entry.lookup
  simp only [hact, hex]

/-! ## The fields are read by their grammar -/

/-- A hexadecimal key is no hardware address. -/
theorem parseMAC_hex {c : Char} (hc : hexVal c = none) (s : Text) :
    parseMAC ('0' :: c :: s) = none := by
  have hbyte : hexByte '0' c = none := by simp [hexByte, hc]
  have hgroups : ∀ sep, macGroups sep ('0' :: c :: s) = none := by
    intro sep
    rcases s with _ | ⟨d, s⟩
    · simp [macGroups, hbyte]
    · simp [macGroups, hbyte]
  have hdots : macDotGroups ('0' :: c :: s) = none := by
    rcases s with _ | ⟨d, _ | ⟨e, _ | ⟨f, s⟩⟩⟩
    · rfl
    · rfl
    · simp [macDotGroups, hbyte]
    · simp [macDotGroups, hbyte]
  have hall : ∀ o : Option Bytes, o = none →
      o.filter (fun b => b.length = 6 ∨ b.length = 8 ∨ b.length = 20) = none := by
    rintro _ rfl
    rfl
  refine hall _ ?_
  split
  · rfl
  · split
    · exact hgroups _
    · split
      · exact hdots
      · rfl

/-- The mark of a hexadecimal key, in either case. -/
theorem hexMarked_iff {token : Text} :
    hexPrefix.isPrefixOf token = true ∨ "0X".toList.isPrefixOf token = true
      ↔ ∃ c digits, (c = 'x' ∨ c = 'X') ∧ token = '0' :: c :: digits := by
  constructor
  · rintro (h | h)
    · obtain ⟨digits, rfl⟩ := List.isPrefixOf_iff_prefix.mp h
      exact ⟨'x', digits, .inl rfl, rfl⟩
    · obtain ⟨digits, rfl⟩ := List.isPrefixOf_iff_prefix.mp h
      exact ⟨'X', digits, .inr rfl, rfl⟩
  · rintro ⟨c, digits, rfl | rfl, rfl⟩
    · exact .inl (List.isPrefixOf_iff_prefix.mpr ⟨digits, rfl⟩)
    · exact .inr (List.isPrefixOf_iff_prefix.mpr ⟨digits, rfl⟩)

/-- A marked key denotes the bytes of its digits. -/
theorem parseIdentifier_of_hexMarked {lib : GoLib} {c : Char} (hc : c = 'x' ∨ c = 'X')
    {digits : Text} {id : Key} :
    parseIdentifier lib ('0' :: c :: digits) = .ok id ↔ hexDecodeString digits = some id.val := by
  have hdrop : ('0' :: c :: digits).drop hexPrefix.length = digits := rfl
  rw [parseIdentifier, if_pos (hexMarked_iff.mpr ⟨c, digits, hc, rfl⟩), hdrop]
  constructor
  · intro h
    split at h
    · cases h
    · next bytes hbytes =>
      rw [hbytes]
      split at h
      · cases h
      · split at h
        · cases h
        · cases h
          rfl
  · intro h
    rw [h]
    dsimp only
    rw [dif_neg (Nat.one_le_iff_ne_zero.mp id.property.1), dif_neg (not_lt.mpr id.property.2)]

/-- Any other key is a hardware address of six bytes. -/
theorem parseIdentifier_of_not_hexMarked {lib : GoLib} {token : Text} {id : Key}
    (hmark : ¬ (hexPrefix.isPrefixOf token = true ∨ "0X".toList.isPrefixOf token = true)) :
    parseIdentifier lib token = .ok id ↔ parseMAC token = some id.val ∧ id.val.length = 6 := by
  rw [parseIdentifier, if_neg hmark]
  constructor
  · intro h
    split at h
    · cases h
    · next bytes hbytes =>
      split at h
      · next h6 =>
        cases h
        exact ⟨hbytes, h6⟩
      · cases h
  · rintro ⟨hmac, h6⟩
    rw [hmac]
    exact dif_pos h6

/-- **`ParseIdentifier` reads the keys of the grammar.** -/
theorem parseIdentifier_ok_iff (lib : GoLib) {token : Text} {id : Key} :
    parseIdentifier lib token = .ok id ↔ KeyMeans token (some id) := by
  by_cases hmark : hexPrefix.isPrefixOf token = true ∨ "0X".toList.isPrefixOf token = true
  · obtain ⟨c, digits, hc, rfl⟩ := hexMarked_iff.mp hmark
    rw [parseIdentifier_of_hexMarked hc]
    constructor
    · intro h
      rcases hc with rfl | rfl
      · exact .hex h
      · exact .hexUpper h
    · intro h
      generalize htok : '0' :: c :: digits = token at h
      cases h with
      | mac hmac =>
        have hx : hexVal c = none := by rcases hc with rfl | rfl <;> decide
        rw [← htok, parseMAC_hex hx] at hmac
        cases hmac
      | hex hdigits =>
        cases htok
        exact hdigits
      | hexUpper hdigits =>
        cases htok
        exact hdigits
  · rw [parseIdentifier_of_not_hexMarked hmark]
    constructor
    · rintro ⟨hmac, h6⟩
      exact .mac hmac h6
    · intro h
      cases h with
      | mac hmac h6 => exact ⟨hmac, h6⟩
      | hex => exact absurd (hexMarked_iff.mpr ⟨'x', _, .inl rfl, rfl⟩) hmark
      | hexUpper => exact absurd (hexMarked_iff.mpr ⟨'X', _, .inr rfl, rfl⟩) hmark

/-- An at sign is the reserved mark. -/
theorem actionPrefix_isPrefixOf {token : Text} :
    actionPrefix.isPrefixOf token = true ↔ token.head? = some '@' := by
  cases token with
  | nil => simp [actionPrefix]
  | cons c s =>
    rw [List.head?_cons, Option.some.injEq, @eq_comm _ c]
    simp [actionPrefix, List.isPrefixOf]

/-- A word without an at sign is none of the reserved ones. -/
theorem not_reserved {token : Text} (hne : token ≠ []) (hat : token.head? ≠ some '@') :
    ¬ (token = [] ∨ token = actionDefaultKeyword) ∧ token ≠ actionBlackholeKeyword
      ∧ ¬ actionPrefix.isPrefixOf token = true := by
  refine ⟨?_, ?_, fun h => hat (actionPrefix_isPrefixOf.mp h)⟩
  · rintro (h | rfl)
    · exact hne h
    · exact hat rfl
  · rintro rfl
    exact hat rfl

/-- **`ParseAction` reads the actions of the grammar.** -/
theorem parseAction_ok_iff (lib : GoLib) {token : Text} (hne : token ≠ []) {a : Action} :
    parseAction lib token = .ok a ↔ ForwardMeans token a := by
  constructor
  · intro h
    unfold parseAction at h
    split at h
    · next htok =>
      cases h
      rw [htok.resolve_left hne]
      exact .default
    · split at h
      · next htok =>
        cases h
        rw [htok]
        exact .blackhole
      · split at h
        · cases h
        · next hpre =>
          cases h
          exact .server hne (fun hh => hpre (actionPrefix_isPrefixOf.mpr hh))
  · intro h
    cases h with
    | default => rfl
    | blackhole => rfl
    | server _ hat =>
      obtain ⟨hd, hb, hp⟩ := not_reserved hne hat
      rw [parseAction, if_neg hd, if_neg hb, if_neg hp]

/-- **`ParseReplyAction` reads the reply fields of the grammar.** -/
theorem parseReplyAction_ok_iff {lib : GoLib} {token : Text} (hne : token ≠ [])
    {r : ReplyAction} :
    parseReplyAction lib token = .ok r ↔ ReplyMeans lib token r := by
  constructor
  · intro h
    unfold parseReplyAction at h
    split at h
    · next htok =>
      cases h
      rw [htok.resolve_left hne]
      exact .default
    · split at h
      · next htok =>
        cases h
        rw [htok]
        exact .blackhole
      · split at h
        · cases h
        · next hpre =>
          cases hsel : CfgMatch.parseSelector lib token with
          | error e =>
            rw [hsel] at h
            cases h
          | ok sel =>
            rw [hsel] at h
            cases h
            exact .selector hne (fun hh => hpre (actionPrefix_isPrefixOf.mpr hh))
              (CfgMatch.parseSelector_ok_iff.mp hsel)
  · intro h
    cases h with
    | default => rfl
    | blackhole => rfl
    | selector _ hat hsel =>
      obtain ⟨hd, hb, hp⟩ := not_reserved hne hat
      rw [parseReplyAction, if_neg hd, if_neg hb, if_neg hp,
        CfgMatch.parseSelector_ok_iff.mpr hsel]
      rfl

/-! ## The file is read by its grammar -/

/-- The key of a line as the loop reads it: the catch-all before anything
else. -/
theorem keyMeans_iff (lib : GoLib) {token : Text} {key : Option Key} :
    KeyMeans token key
      ↔ token = CfgMatch.catchAllKey ∧ key = none
        ∨ token ≠ CfgMatch.catchAllKey ∧ ∃ id, parseIdentifier lib token = .ok id
          ∧ key = some id := by
  constructor
  · intro h
    cases key with
    | none =>
      cases h
      exact .inl ⟨rfl, rfl⟩
    | some id =>
      have hid := (parseIdentifier_ok_iff lib).mpr h
      refine .inr ⟨?_, id, hid, rfl⟩
      rintro rfl
      exact absurd hid (by simp [parseIdentifier, parseMAC, CfgMatch.catchAllKey, hexPrefix])
  · rintro (⟨rfl, rfl⟩ | ⟨-, id, hid, rfl⟩)
    · exact .catchAll
    · exact (parseIdentifier_ok_iff lib).mp hid

/-- The fields of a line, read one by one, make an entry of the table. -/
theorem parseLine_of_fields {lib : GoLib} {k : Text} (rest : List Text) {key : Option Key}
    {a : Action} {r : ReplyAction} (hlen : rest.length ≤ 2)
    (ha : parseAction lib ((k :: rest).getD 1 []) = .ok a)
    (hr : parseReplyAction lib ((k :: rest).getD 2 []) = .ok r) (hk : KeyMeans k key)
    (lineNum : ℕ) (s : ParseState) :
    ∃ s', parseLine lib lineNum s (k :: rest) = .ok s'
      ∧ s'.table = s.table.put ⟨key, { a with reply := r }⟩ := by
  have hsome : ¬ (k :: rest).length = 0 := Nat.succ_ne_zero _
  have hfew : ¬ (k :: rest).length > 3 := by
    rw [List.length_cons]
    omega
  rw [parseLine, if_neg hsome, if_neg hfew, ha]
  dsimp only
  rw [hr]
  dsimp only
  rw [show (k :: rest).getD 0 [] = k from rfl]
  rcases (keyMeans_iff lib).mp hk with ⟨hall, rfl⟩ | ⟨hall, id, hid, rfl⟩
  · rw [if_pos hall]
    exact ⟨_, rfl, rfl⟩
  · rw [if_neg hall, hid]
    exact ⟨_, rfl, rfl⟩

/-- And they are read one by one. -/
theorem fields_of_parseLine {lib : GoLib} {lineNum : ℕ} {s s' : ParseState} {k : Text}
    {rest : List Text} (h : parseLine lib lineNum s (k :: rest) = .ok s') :
    rest.length ≤ 2 ∧ ∃ a r key, parseAction lib ((k :: rest).getD 1 []) = .ok a
      ∧ parseReplyAction lib ((k :: rest).getD 2 []) = .ok r ∧ KeyMeans k key
      ∧ s'.table = s.table.put ⟨key, { a with reply := r }⟩ := by
  have hsome : ¬ (k :: rest).length = 0 := Nat.succ_ne_zero _
  unfold parseLine at h
  dsimp only at h
  rw [if_neg hsome] at h
  split at h
  · cases h
  · next hfew =>
    have hlen : rest.length ≤ 2 := by
      rw [List.length_cons] at hfew
      omega
    refine ⟨hlen, ?_⟩
    split at h
    · cases h
    · next a ha =>
      split at h
      · cases h
      · next r hr =>
        split at h
        · next hall =>
          cases h
          exact ⟨a, r, none, ha, hr, (keyMeans_iff lib).mpr (.inl ⟨hall, rfl⟩), rfl⟩
        · next hall =>
          split at h
          · cases h
          · next id hid =>
            cases h
            exact ⟨a, r, some id, ha, hr, (keyMeans_iff lib).mpr (.inr ⟨hall, id, hid, rfl⟩), rfl⟩

/-- What is absent has its default. -/
theorem ForwardMeans.reply_eq {token : Text} {a : Action} (h : ForwardMeans token a) :
    { a with reply := { kind := .ingress } } = a := by
  cases h with
  | default => rfl
  | blackhole => rfl
  | server _ _ => rfl

/-- **A line of the grammar is an entry of the table.** -/
theorem parseLine_of_means {lib : GoLib} {fs : List Text} (hne : ∀ f ∈ fs, f ≠ [])
    {e : Entry} (h : LineMeans lib fs e) (lineNum : ℕ) (s : ParseState) :
    ∃ s', parseLine lib lineNum s fs = .ok s' ∧ s'.table = s.table.put e := by
  cases h with
  | key hk => exact parseLine_of_fields [] (Nat.zero_le 2) rfl rfl hk lineNum s
  | @action k a id action hk ha =>
    have ha' := (parseAction_ok_iff lib (hne a (by simp))).mpr ha
    obtain ⟨s', hs, ht⟩ := parseLine_of_fields [a] (by simp) ha' rfl hk lineNum s
    rw [ha.reply_eq] at ht
    exact ⟨s', hs, ht⟩
  | @reply k a r id action reply hk ha hr =>
    have ha' := (parseAction_ok_iff lib (hne a (by simp))).mpr ha
    have hr' := (parseReplyAction_ok_iff (hne r (by simp))).mpr hr
    exact parseLine_of_fields [a, r] (Nat.le_refl 2) ha' hr' hk lineNum s

/-- **And nothing else is.** -/
theorem means_of_parseLine {lib : GoLib} {k : Text} {rest : List Text}
    (hne : ∀ f ∈ k :: rest, f ≠ []) {lineNum : ℕ} {s s' : ParseState}
    (h : parseLine lib lineNum s (k :: rest) = .ok s') :
    ∃ e, LineMeans lib (k :: rest) e ∧ s'.table = s.table.put e := by
  obtain ⟨hlen, a, r, key, ha, hr, hk, ht⟩ := fields_of_parseLine h
  rcases rest with _ | ⟨x, _ | ⟨y, _ | ⟨z, rest⟩⟩⟩
  · cases ha
    cases hr
    exact ⟨_, .key hk, ht⟩
  · have ha' := (parseAction_ok_iff lib (hne x (by simp))).mp ha
    cases hr
    rw [ha'.reply_eq] at ht
    exact ⟨_, .action hk ha', ht⟩
  · have ha' := (parseAction_ok_iff lib (hne x (by simp))).mp ha
    have hr' := (parseReplyAction_ok_iff (hne y (by simp))).mp hr
    exact ⟨_, .reply hk ha' hr', ht⟩
  · simp at hlen

/-- **The loop over the lines reads the grammar.** -/
theorem parseLines_of_means {lib : GoLib} {ls : List Text} {es : List Entry}
    (h : FileMeans lib ls es) (lineNum : ℕ) (s : ParseState) :
    ∃ s', parseLines lib lineNum s ls = .ok s' ∧ s'.table = es.foldl Table.put s.table := by
  induction h generalizing lineNum s with
  | nil => exact ⟨s, rfl, rfl⟩
  | blank hblank _ ih =>
    obtain ⟨s', hs, ht⟩ := ih (lineNum + 1) s
    refine ⟨s', ?_, ht⟩
    rw [parseLines, hblank]
    exact hs
  | line hline _ ih =>
    obtain ⟨s₁, hs₁, ht₁⟩ :=
      parseLine_of_means (fun f hf => CfgMatch.ne_nil_of_mem_fields hf) hline lineNum s
    obtain ⟨s', hs, ht⟩ := ih (lineNum + 1) s₁
    refine ⟨s', ?_, ?_⟩
    · rw [parseLines, hs₁]
      exact hs
    · rw [ht, ht₁, List.foldl_cons]

theorem means_of_parseLines {lib : GoLib} {ls : List Text} {lineNum : ℕ} {s s' : ParseState}
    (h : parseLines lib lineNum s ls = .ok s') :
    ∃ es, FileMeans lib ls es ∧ s'.table = es.foldl Table.put s.table := by
  induction ls generalizing lineNum s with
  | nil =>
    cases h
    exact ⟨[], .nil, rfl⟩
  | cons l ls ih =>
    rw [parseLines] at h
    split at h
    · cases h
    · next s₁ hs₁ =>
      obtain ⟨es, hes, ht⟩ := ih h
      cases hf : fields l with
      | nil =>
        rw [hf] at hs₁
        cases hs₁
        exact ⟨es, .blank hf hes, ht⟩
      | cons k rest =>
        have hne : ∀ f ∈ k :: rest, f ≠ [] := by
          intro f hmem
          rw [← hf] at hmem
          exact CfgMatch.ne_nil_of_mem_fields hmem
        rw [hf] at hs₁
        obtain ⟨e, he, ht₁⟩ := means_of_parseLine hne hs₁
        refine ⟨e :: es, .line (by rw [hf]; exact he) hes, ?_⟩
        rw [ht, ht₁, List.foldl_cons]

/-- **`Parse` reads the grammar**: what it returns is the table of the entries
that the lines denote. -/
theorem parse_ok_iff {lib : GoLib} {text : Text} {t : Table} :
    (∃ warnings, parse lib text = .ok (t, warnings))
      ↔ (scanLines text).2 = false
        ∧ ∃ es, FileMeans lib (scanLines text).1 es ∧ t = es.foldl Table.put Table.empty := by
  unfold parse
  dsimp only
  constructor
  · rintro ⟨warnings, h⟩
    split at h
    · cases h
    · next s hs =>
      split at h
      · cases h
      · next hlong =>
        cases h
        exact ⟨Bool.eq_false_iff.mpr hlong, means_of_parseLines hs⟩
  · rintro ⟨hlong, es, hes, rfl⟩
    obtain ⟨s, hs, ht⟩ := parseLines_of_means hes 1 {}
    rw [hs]
    dsimp only
    rw [hlong, if_neg Bool.false_ne_true, ht]
    exact ⟨_, rfl⟩

/-- **The policy file means what its grammar says.** A file is accepted exactly
when each of its lines is blank or a line of the grammar, and no line is too long
to be read. The table of an accepted file answers every lookup as its entries do,
and two files whose entries differ in their order only, and there only between
distinct keys, answer alike. -/
theorem policyFile_grammar (lib : GoLib) (text : Text) :
    ((∃ r, parse lib text = .ok r)
      ↔ (scanLines text).2 = false
        ∧ ∀ l ∈ (scanLines text).1, fields l = [] ∨ ∃ e, LineMeans lib (fields l) e)
      ∧ ∀ t warnings, parse lib text = .ok (t, warnings) →
        ∃ es, FileMeans lib (scanLines text).1 es
          ∧ (∀ ids, t.lookupID ids = Entry.lookup es ids)
          ∧ (∀ id ∈ t.entries, 1 ≤ id.length ∧ id.length ≤ 241)
          ∧ ∀ text' es', (scanLines text').2 = false →
            FileMeans lib (scanLines text').1 es' →
            (∀ id, es'.filter (fun e => e.id = id) = es.filter (fun e => e.id = id)) →
            ∃ t' warnings', parse lib text' = .ok (t', warnings')
              ∧ ∀ ids, t'.lookupID ids = t.lookupID ids := by
  constructor
  · rw [← exists_fileMeans_iff]
    constructor
    · rintro ⟨⟨t, warnings⟩, h⟩
      obtain ⟨hlong, es, hes, -⟩ := parse_ok_iff.mp ⟨warnings, h⟩
      exact ⟨hlong, es, hes⟩
    · rintro ⟨hlong, es, hes⟩
      obtain ⟨warnings, h⟩ := parse_ok_iff.mpr ⟨hlong, es, hes, rfl⟩
      exact ⟨_, h⟩
  · intro t warnings h
    obtain ⟨-, es, hes, ht⟩ := parse_ok_iff.mp ⟨warnings, h⟩
    refine ⟨es, hes, ?_, fun id hid => t.keySize id hid, ?_⟩
    · intro ids
      rw [ht, lookupID_foldl]
    · intro text' es' hlong' hes' hfilter
      obtain ⟨warnings', h'⟩ := parse_ok_iff.mpr ⟨hlong', es', hes', rfl⟩
      refine ⟨_, warnings', h', fun ids => ?_⟩
      rw [ht, lookupID_foldl, lookupID_foldl, Entry.lookup_congr hfilter]

-- One identifier in two notations: the third line is about the client of the first, and
-- decides. Every other client is dropped.
example :
    (parse .literal ("02:00:00:00:00:0a 10.0.0.9  # lab\n\n"
        ++ "0X02000000000A @default name=eth1\n* @blackhole").toList).map
      (fun r => (r.1.lookupID [[7], [2, 0, 0, 0, 0, 10]], r.1.lookupID [[7]], r.2))
    = .ok
      (({ kind := .default, reply := { nameGlobs := ["eth1".toList], kind := .selected } },
          some [2, 0, 0, 0, 0, 10]),
        ({ kind := .blackhole }, none),
        ["line 3: duplicate identifier 0X02000000000A, last entry wins"]) := by
  rfl

-- An error names the line, and the address that is too short.
example :
    (parse .literal "* @blackhole\n02:00:00:00:00 10.0.0.9".toList).map Prod.snd
    = .error ("line 2: invalid identifier \"02:00:00:00:00\": "
        ++ "address 02:00:00:00:00: invalid MAC address") := by
  rfl

end MacPolicy
