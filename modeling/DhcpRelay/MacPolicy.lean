import DhcpRelay.CfgMatch
import DhcpRelay.SubOptions

/-!
# The client policy

A policy maps client identifiers to actions (`pkg/macpolicy`). An identifier
is a byte string: the client identifier of Option 61 or the hardware address.
An action says what becomes of a client's requests and of the replies to
them. `parse` reads a policy file into a `Table`, and a table is looked up
with a list of identifiers, the first one that has an entry deciding.

A `Table` cannot be built with a key that is empty or longer than a policy tag
may be. `parseIdentifier` is the only source of keys, and what it returns
carries the bound.
-/

namespace MacPolicy

open CfgMatch (Selector)

/-- `ActionKind`: the forward path decision. The zero value denies. -/
inductive ActionKind where
  | blackhole
  | default
  | server
  deriving DecidableEq, Repr

/-- `ReplyActionKind`: where a client's replies go. -/
inductive ReplyActionKind where
  | ingress
  | blackhole
  | selected
  deriving DecidableEq, Repr

/-- `ReplyAction`: the reverse path decision. The selector applies to
`ReplyActionKind.selected` only. -/
structure ReplyAction extends Selector where
  kind : ReplyActionKind := .ingress
  deriving DecidableEq, Repr

/-- `Action`: the decision for one client. The server is set for
`ActionKind.server` only. -/
structure Action where
  server : Text := []
  reply : ReplyAction := {}
  kind : ActionKind := .blackhole
  deriving DecidableEq, Repr

/-- What a policy key may be: one to 241 bytes, so that it fits Option 82 as a
policy tag. -/
def KeySize (id : Bytes) : Prop := 1 ≤ id.length ∧ id.length ≤ Dhcp.maxPolicyTagSize

instance (id : Bytes) : Decidable (KeySize id) := inferInstanceAs (Decidable (_ ∧ _))

/-- A policy key. -/
abbrev Key := { id : Bytes // KeySize id }

/-- **`Table`**: an immutable policy, mapping client identifiers to actions
with a fallback for the clients it does not list. -/
structure Table where
  entries : AList (fun _ : Bytes => Action)
  fallback : Action
  /-- Every key is one to 241 bytes long. -/
  keySize : ∀ id ∈ entries, KeySize id

namespace Table

/-- The empty table, which denies everyone. -/
def empty : Table := ⟨∅, {}, fun _ h => absurd h (AList.notMem_empty _)⟩

/-- `t.entries[k] = action`. -/
def insert (t : Table) (k : Key) (action : Action) : Table where
  entries := t.entries.insert k.val action
  fallback := t.fallback
  keySize := by
    intro id hid
    rcases (AList.mem_insert _).mp hid with rfl | h
    · exact k.property
    · exact t.keySize id h

/-- `Table.LookupID`: the action of the first non-empty identifier with an
entry and that identifier, else the fallback and nil. -/
def lookupID (t : Table) : List Bytes → Action × Option Bytes
  | [] => (t.fallback, none)
  | id :: ids =>
    if id.length = 0 then t.lookupID ids
    else
      match t.entries.lookup id with
      | some a => (a, some id)
      | none => t.lookupID ids

/-- `Table.Lookup`. -/
def lookup (t : Table) (ids : List Bytes) : Action := (t.lookupID ids).1

/-- Only a key has an entry, whatever the table. -/
theorem lookup_entries_of_not_keySize (t : Table) {id : Bytes}
    (h : ¬ KeySize id) : t.entries.lookup id = none :=
  AList.lookup_eq_none.mpr (fun hid => h (t.keySize id hid))

/-- **The first identifier with an entry decides.** The empty identifier needs
no case of its own, since it is no key. -/
theorem lookupID_cons (t : Table) (id : Bytes) (ids : List Bytes) :
    t.lookupID (id :: ids)
      = match t.entries.lookup id with
        | some a => (a, some id)
        | none => t.lookupID ids := by
  rw [lookupID]
  split
  · next hz =>
    rw [t.lookup_entries_of_not_keySize (fun hk => absurd hk.1 (by omega))]
  · rfl

/-- The identifier returned has an entry, and its action is the one
returned. -/
theorem lookup_entries_of_lookupID {t : Table} {ids : List Bytes} {a : Action}
    {id : Bytes} (h : t.lookupID ids = (a, some id)) :
    id ∈ ids ∧ t.entries.lookup id = some a := by
  induction ids with
  | nil => cases h
  | cons x ids ih =>
    rw [lookupID_cons] at h
    cases hx : t.entries.lookup x with
    | some b =>
      rw [hx] at h
      cases h
      exact ⟨List.mem_cons_self, hx⟩
    | none =>
      rw [hx] at h
      exact ⟨List.mem_cons_of_mem x (ih h).1, (ih h).2⟩

end Table

/-! ## Tokens -/

/-- The value of a hexadecimal digit of either case. -/
def hexVal (c : Char) : Option ℕ :=
  if '0' ≤ c ∧ c ≤ '9' then some (c.toNat - '0'.toNat)
  else if 'a' ≤ c ∧ c ≤ 'f' then some (c.toNat - 'a'.toNat + 10)
  else if 'A' ≤ c ∧ c ≤ 'F' then some (c.toNat - 'A'.toNat + 10)
  else none

/-- The byte two hexadecimal digits denote. -/
def hexByte (a b : Char) : Option UInt8 := do
  let x ← hexVal a
  let y ← hexVal b
  return UInt8.ofNat (16 * x + y)

/-- `hex.DecodeString`, `none` on an error. -/
def hexDecodeString : Text → Option Bytes
  | [] => some []
  | [_] => none
  | a :: b :: s => do
    let x ← hexByte a b
    let xs ← hexDecodeString s
    return x :: xs

/-- Groups of two hexadecimal digits with a separator between them. -/
def macGroups (sep : Char) : Text → Option Bytes
  | [a, b] => do return [← hexByte a b]
  | a :: b :: c :: s =>
    if c = sep then do
      let x ← hexByte a b
      let xs ← macGroups sep s
      return x :: xs
    else none
  | _ => none

/-- Groups of four hexadecimal digits with a dot between them. -/
def macDotGroups : Text → Option Bytes
  | [a, b, c, d] => do return [← hexByte a b, ← hexByte c d]
  | a :: b :: c :: d :: e :: s =>
    if e = '.' then do
      let x ← hexByte a b
      let y ← hexByte c d
      let xs ← macDotGroups s
      return x :: y :: xs
    else none
  | _ => none

/-- `net.ParseMAC`: 6, 8 or 20 bytes in one of the three notations, `none` on
an error. -/
def parseMAC (s : Text) : Option Bytes :=
  let hw :=
    if s.length < 14 then none
    else if s.getD 2 ' ' = ':' ∨ s.getD 2 ' ' = '-' then macGroups (s.getD 2 ' ') s
    else if s.getD 4 ' ' = '.' then macDotGroups s
    else none
  hw.filter (fun b => b.length = 6 ∨ b.length = 8 ∨ b.length = 20)

/-- The error of `net.ParseMAC`, an `AddrError`. -/
def parseMACError (s : Text) : String :=
  if s = [] then "invalid MAC address" else "address " ++ String.ofList s ++ ": invalid MAC address"

/-- `HexPrefix`. -/
def hexPrefix : Text := "0x".toList

/-- `ActionPrefix`. -/
def actionPrefix : Text := "@".toList

/-- `ActionDefaultKeyword`. -/
def actionDefaultKeyword : Text := "@default".toList

/-- `ActionBlackholeKeyword`. -/
def actionBlackholeKeyword : Text := "@blackhole".toList

/-- **`ParseAction`**: the optional forward action. -/
def parseAction (lib : GoLib) (token : Text) : Except String Action :=
  if token = [] ∨ token = actionDefaultKeyword then .ok { kind := .default }
  else if token = actionBlackholeKeyword then .ok { kind := .blackhole }
  else if actionPrefix.isPrefixOf token then
    .error ("unknown action " ++ lib.quote token)
  else .ok { kind := .server, server := token }

/-- **`ParseReplyAction`**: the optional reply field. -/
def parseReplyAction (lib : GoLib) (token : Text) : Except String ReplyAction :=
  if token = [] ∨ token = actionDefaultKeyword then .ok { kind := .ingress }
  else if token = actionBlackholeKeyword then .ok { kind := .blackhole }
  else if actionPrefix.isPrefixOf token then
    .error ("unknown reply action " ++ lib.quote token)
  else do
    let sel ← CfgMatch.parseSelector lib token
    return { sel with kind := .selected }

/-- **`ParseIdentifier`**: the bytes a policy key denotes, either raw
hexadecimal after `0x` or a six byte hardware address. -/
def parseIdentifier (lib : GoLib) (token : Text) : Except String Key :=
  if hexPrefix.isPrefixOf token ∨ "0X".toList.isPrefixOf token then
    match hexDecodeString (token.drop hexPrefix.length) with
    | none =>
      .error ("invalid hex identifier " ++ lib.quote token ++ ": "
        ++ lib.hexDecodeError (token.drop hexPrefix.length))
    | some id =>
      if hz : id.length = 0 then .error ("empty hex identifier " ++ lib.quote token)
      else if hl : id.length > Dhcp.maxPolicyTagSize then
        .error ("hex identifier " ++ lib.quote token ++ " is " ++ toString id.length
          ++ " bytes, at most " ++ toString Dhcp.maxPolicyTagSize
          ++ " fits the Option 82 policy tag")
      else .ok ⟨id, Nat.one_le_iff_ne_zero.mpr hz, Nat.le_of_not_lt hl⟩
  else
    match parseMAC token with
    | none =>
      .error ("invalid identifier " ++ lib.quote token ++ ": " ++ parseMACError token)
    | some id =>
      if h6 : id.length = 6 then .ok ⟨id, by rw [KeySize, h6]; decide⟩
      else .error ("identifier " ++ lib.quote token
        ++ " must be a 6 byte MAC (use the " ++ String.ofList hexPrefix
        ++ " prefix for other client ids)")

/-! ## The file -/

/-- What `Parse` has built so far. -/
structure ParseState where
  table : Table := Table.empty
  warnings : List String := []
  sawCatchAll : Bool := false

/-- The body of the loop of `Parse`: one line, already cut into fields. -/
def parseLine (lib : GoLib) (lineNum : ℕ) (s : ParseState) (fields : List Text) :
    Except String ParseState :=
  let line := "line " ++ toString lineNum ++ ": "
  if fields.length = 0 then .ok s
  else if fields.length > 3 then
    .error (line ++ "expected '<key> [action] [reply]', got "
      ++ toString fields.length ++ " fields")
  else
    match parseAction lib (fields.getD 1 []) with
    | .error e => .error (line ++ e)
    | .ok action =>
      match parseReplyAction lib (fields.getD 2 []) with
      | .error e => .error (line ++ e)
      | .ok reply =>
        let action := { action with reply := reply }
        let key := fields.getD 0 []
        if key = CfgMatch.catchAllKey then
          .ok { s with
            table := { s.table with fallback := action }
            warnings := s.warnings ++
              (if s.sawCatchAll then
                [line ++ "duplicate " ++ lib.quote key ++ " entry, last one wins"]
              else [])
            sawCatchAll := true }
        else
          match parseIdentifier lib key with
          | .error e => .error (line ++ e)
          | .ok id =>
            .ok { s with
              table := s.table.insert id action
              warnings := s.warnings ++
                (if id.val ∈ s.table.entries then
                  [line ++ "duplicate identifier " ++ String.ofList key
                    ++ ", last entry wins"]
                else []) }

/-- The loop of `Parse` over the lines, numbered from `lineNum`. -/
def parseLines (lib : GoLib) : ℕ → ParseState → List Text → Except String ParseState
  | _, s, [] => .ok s
  | lineNum, s, l :: ls =>
    match parseLine lib lineNum s (CfgMatch.fields l) with
    | .error e => .error e
    | .ok s' => parseLines lib (lineNum + 1) s' ls

/-- **`Parse`**: a policy file as a table with warnings, or an error and no
table at all. -/
def parse (lib : GoLib) (text : Text) : Except String (Table × List String) :=
  let scanned := scanLines text
  match parseLines lib 1 {} scanned.1 with
  | .error e => .error e
  | .ok s =>
    if scanned.2 then .error "read error: bufio.Scanner: token too long"
    else
      .ok (s.table, s.warnings ++
        (if s.table.entries.keys = [] ∧ s.table.fallback.kind = .blackhole then
          ["no relayable entries: every DHCPv4 message will be dropped"]
        else []))

end MacPolicy
