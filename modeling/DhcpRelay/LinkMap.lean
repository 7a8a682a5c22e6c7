import DhcpRelay.Host

/-!
# The link map

Which subnet the clients of an interface are on (`pkg/linkmap`), for an
interface that has no address of its own to tell it by. A map is a list of
selectors, each with the network address of a subnet, and the first selector
that accepts the interface decides. An entry cannot be built with anything but
four bytes for its subnet, as `ParseSubnet` returns no other.

A map is read from a file, line by line. What a network in CIDR notation denotes
is the library's, and `CIDRParser` carries it with what is documented of it: the
address of the network that it returns has no bit set outside the mask.
-/

namespace LinkMap

open CfgMatch (Selector)

/-- `Entry`: a selector with the subnet it stands for. -/
structure Entry where
  subnet : IP
  sel : Selector
  /-- The subnet is the `To4` of a network address. -/
  length_subnet : subnet.length = 4

/-- `Table`: the entries, in the order of the file. -/
structure Table where
  entries : List Entry

/-- **`Table.Lookup`**: the subnet of the first entry whose selector accepts
the interface. -/
def Table.lookup (lib : GoLib) (t : Table) (name mac : Text) : Option IP :=
  (t.entries.find? (fun e => e.sel.accepts lib name mac)).map Entry.subnet

theorem Table.length_lookup {lib : GoLib} {t : Table} {name mac : Text} {subnet : IP}
    (h : t.lookup lib name mac = some subnet) : subnet.length = 4 := by
  obtain ⟨e, -, rfl⟩ := Option.map_eq_some_iff.mp h
  exact e.length_subnet

/-! ## The file -/

/-- **`net.ParseCIDR`**, as far as the network goes: an address and a mask of the
same size, and in the address only bits of the mask. -/
structure CIDRParser where
  parseCIDR : Text → Except String IPNet
  length_mask : ∀ token n, parseCIDR token = .ok n → n.mask.length = n.ip.length
  masked : ∀ token n, parseCIDR token = .ok n →
    List.zipWith (· &&& ·) n.ip n.mask = n.ip

/-- **`ParseSubnet`**: the network address, in four bytes. -/
def parseSubnet (lib : GoLib) (net : CIDRParser) (token : Text) :
    Except String { v4 : IP // v4.length = 4 } :=
  match net.parseCIDR token with
  | .error e => .error ("invalid subnet " ++ lib.quote token ++ ": " ++ e)
  | .ok ipnet =>
    match h : IP.to4 ipnet.ip with
    | none => .error ("subnet " ++ lib.quote token ++ " is not IPv4")
    | some v4 => .ok ⟨v4, IP.length_of_to4 h⟩

/-- `numFields`. -/
def numFields : ℕ := 2

/-- What `Parse` does with the fields of one line. -/
def parseLine (lib : GoLib) (net : CIDRParser) (lineNum : ℕ) (entries : List Entry)
    (fields : List Text) : Except String (List Entry) :=
  let line := "line " ++ toString lineNum ++ ": "
  if fields.length = 0 then .ok entries
  else if fields.length ≠ numFields then
    .error (line ++ "expected '<nic-selector> <subnet-cidr>', got "
      ++ toString fields.length ++ " fields")
  else
    match CfgMatch.parseSelector lib (fields.getD 0 []) with
    | .error e => .error (line ++ e)
    | .ok sel =>
      match parseSubnet lib net (fields.getD 1 []) with
      | .error e => .error (line ++ e)
      | .ok subnet => .ok (entries ++ [⟨subnet.val, sel, subnet.property⟩])

/-- The loop of `Parse`, from the line `lineNum` on. -/
def parseLines (lib : GoLib) (net : CIDRParser) :
    ℕ → List Entry → List Text → Except String (List Entry)
  | _, entries, [] => .ok entries
  | lineNum, entries, l :: ls =>
    match parseLine lib net lineNum entries (CfgMatch.fields l) with
    | .error e => .error e
    | .ok entries' => parseLines lib net (lineNum + 1) entries' ls

/-- **`Parse`**: a link map as a table with warnings, or an error and no table at
all. -/
def parse (lib : GoLib) (net : CIDRParser) (text : Text) : Except String (Table × List String) :=
  let scanned := scanLines text
  match parseLines lib net 1 [] scanned.1 with
  | .error e => .error e
  | .ok entries =>
    if scanned.2 then .error "read error: bufio.Scanner: token too long"
    else
      .ok (⟨entries⟩,
        if entries.length = 0 then
          ["no entries: every unnumbered ingress request will be dropped"]
        else [])

end LinkMap

/-- A configuration with the given link map, as the map is at the moment, or
with none. -/
def HandleOptions.withLinkMap (cfg : HandleOptions) (lib : GoLib)
    (links : Option LinkMap.Table) : HandleOptions :=
  { cfg with
    linkMap := links.map (fun t => t.lookup lib)
    linkMap_length := by
      intro f hf name mac subnet hsub
      obtain ⟨t, -, rfl⟩ := Option.map_eq_some_iff.mp hf
      exact LinkMap.Table.length_lookup hsub }
