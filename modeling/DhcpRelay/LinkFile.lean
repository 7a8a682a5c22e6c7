import DhcpRelay.KeyedList
import DhcpRelay.LinkMap

/-!
# What a link map file means

A link map is a list of lines, each with a selector and a network. The grammar is
given here on its own: `LineMeans` says which entry a line denotes and `FileMeans`
which entries the lines of a file denote, in their order. What a file says about an
interface is said about its lines as well, `LineAccepts` for the interfaces that a
line is about and `LineSubnet` for the network it gives them.

`linkMap_grammar` says that `parse` is this grammar, and that a lookup in the table
is a search for the first line that accepts the interface. In particular the case
of the letters of a hardware address makes no difference, neither in the file nor
in the lookup, and the lines after the first that accepts make none.
-/

namespace LinkMap

open CfgMatch

/-! ## The grammar -/

/-- **What a line denotes**: a selector, and the network address of an IPv4
network. -/
inductive LineMeans (lib : GoLib) (net : CIDRParser) : List Text → Entry → Prop where
  | line {token cidr : Text} {sel : Selector} {n : IPNet} {subnet : IP} :
      SelectorMeans lib token sel → net.parseCIDR cidr = .ok n →
      (h : IP.to4 n.ip = some subnet) →
      LineMeans lib net [token, cidr] ⟨subnet, sel, IP.length_of_to4 h⟩

/-- **What the lines of a file denote.** A line that is blank after its comment
denotes nothing. -/
def FileMeans (lib : GoLib) (net : CIDRParser) (ls : List Text) (es : List Entry) : Prop :=
  List.Forall₂ (fun l e => LineMeans lib net (fields l) e)
    (ls.filter (fun l => fields l ≠ [])) es

/-- **A line is about an interface**: its selector accepts it. -/
def LineAccepts (lib : GoLib) (name mac l : Text) : Prop :=
  ∃ token cidr, fields l = [token, cidr] ∧ TokenAccepts lib name mac token

/-- **The network address of a line**: four bytes, of the address of its network,
and no bit outside the mask. -/
def LineSubnet (net : CIDRParser) (subnet : IP) (l : Text) : Prop :=
  ∃ token cidr n mask, fields l = [token, cidr] ∧ net.parseCIDR cidr = .ok n
    ∧ n.networkNumberAndMask = some (subnet, mask) ∧ subnet.length = 4
    ∧ List.zipWith (· &&& ·) subnet mask = subnet

section

variable {lib : GoLib} {net : CIDRParser} {l : Text} {ls : List Text} {e : Entry}
  {es : List Entry}

theorem fileMeans_nil : FileMeans lib net [] es ↔ es = [] := by
  rw [FileMeans, List.filter_nil, List.forall₂_nil_left_iff]

theorem fileMeans_cons_of_blank (h : fields l = []) :
    FileMeans lib net (l :: ls) es ↔ FileMeans lib net ls es := by
  rw [FileMeans, FileMeans, List.filter_cons_of_neg (by simpa using h)]

theorem fileMeans_cons (h : fields l ≠ []) :
    FileMeans lib net (l :: ls) es
      ↔ ∃ e es', LineMeans lib net (fields l) e ∧ FileMeans lib net ls es' ∧ es = e :: es' := by
  rw [FileMeans, List.filter_cons_of_pos (by simpa using h), List.forall₂_cons_left_iff]
  rfl

/-- A file has a meaning when each of its lines has. -/
theorem exists_fileMeans_iff :
    (∃ es, FileMeans lib net ls es)
      ↔ ∀ l ∈ ls, fields l = [] ∨ ∃ e, LineMeans lib net (fields l) e := by
  induction ls with
  | nil => exact ⟨fun _ l hl => absurd hl List.not_mem_nil, fun _ => ⟨[], fileMeans_nil.mpr rfl⟩⟩
  | cons l ls ih =>
    rw [List.forall_mem_cons, ← ih]
    by_cases hblank : fields l = []
    · simp only [fileMeans_cons_of_blank hblank, hblank, true_or, true_and]
    · simp only [fileMeans_cons hblank, hblank, false_or]
      constructor
      · rintro ⟨_, e, es, he, hes, -⟩
        exact ⟨⟨e, he⟩, es, hes⟩
      · rintro ⟨⟨e, he⟩, es, hes⟩
        exact ⟨e :: es, e, es, he, hes, rfl⟩

theorem exists_lineMeans_iff {fs : List Text} :
    (∃ e, LineMeans lib net fs e)
      ↔ ∃ token cidr, fs = [token, cidr] ∧ (∃ sel, SelectorMeans lib token sel)
        ∧ ∃ n subnet, net.parseCIDR cidr = .ok n ∧ IP.to4 n.ip = some subnet := by
  constructor
  · rintro ⟨e, hsel, hnet, h4⟩
    exact ⟨_, _, rfl, ⟨_, hsel⟩, _, _, hnet, h4⟩
  · rintro ⟨token, cidr, rfl, ⟨sel, hsel⟩, n, subnet, hnet, h4⟩
    exact ⟨_, .line hsel hnet h4⟩

end

/-! ## The file is read by its grammar -/

section

variable {lib : GoLib} {net : CIDRParser} {lineNum : ℕ} {entries entries' : List Entry}

theorem parseSubnet_ok_iff {token : Text} {v4 : { v4 : IP // v4.length = 4 }} :
    parseSubnet lib net token = .ok v4
      ↔ ∃ n, net.parseCIDR token = .ok n ∧ IP.to4 n.ip = some v4.val := by
  unfold parseSubnet
  constructor
  · intro h
    split at h
    · cases h
    · next n hn =>
      split at h
      · cases h
      · next v h4 =>
        cases h
        exact ⟨n, hn, h4⟩
  · rintro ⟨n, hn, h4⟩
    rw [hn]
    dsimp only
    split
    · next h =>
      rw [h4] at h
      cases h
    · next v h =>
      rw [h4] at h
      cases h
      rfl

theorem parseLine_blank : parseLine lib net lineNum entries [] = .ok entries := rfl

/-- **A line is read by the grammar**, and makes one more entry. -/
theorem parseLine_ok_iff {fs : List Text} (hne : fs ≠ []) :
    parseLine lib net lineNum entries fs = .ok entries'
      ↔ ∃ e, LineMeans lib net fs e ∧ entries' = entries ++ [e] := by
  have hsome : ¬ fs.length = 0 := fun h => hne (List.length_eq_zero_iff.mp h)
  unfold parseLine
  dsimp only
  rw [if_neg hsome]
  constructor
  · intro h
    split at h
    · cases h
    · next htwo =>
      obtain ⟨token, cidr, rfl⟩ := List.length_eq_two.mp (not_not.mp htwo)
      split at h
      · cases h
      · next sel hsel =>
        split at h
        · cases h
        · next subnet hsubnet =>
          cases h
          obtain ⟨n, hn, h4⟩ := parseSubnet_ok_iff.mp hsubnet
          exact ⟨_, .line (parseSelector_ok_iff.mp hsel) hn h4, rfl⟩
  · rintro ⟨e, he, rfl⟩
    cases he with
    | @line token cidr sel n subnet hsel hn h4 =>
      have hsubnet : parseSubnet lib net cidr = .ok ⟨subnet, IP.length_of_to4 h4⟩ :=
        parseSubnet_ok_iff.mpr ⟨n, hn, h4⟩
      have htwo : ¬ [token, cidr].length ≠ numFields := not_not.mpr rfl
      rw [if_neg htwo]
      simp only [List.getD_cons_zero, List.getD_cons_succ, parseSelector_ok_iff.mpr hsel,
        hsubnet]

/-- **The loop over the lines reads the grammar.** -/
theorem parseLines_ok_iff {ls : List Text} :
    parseLines lib net lineNum entries ls = .ok entries'
      ↔ ∃ es, FileMeans lib net ls es ∧ entries' = entries ++ es := by
  induction ls generalizing lineNum entries with
  | nil =>
    simp only [parseLines, fileMeans_nil, exists_eq_left, List.append_nil, Except.ok.injEq]
    exact eq_comm
  | cons l ls ih =>
    unfold parseLines
    by_cases hblank : fields l = []
    · rw [hblank, parseLine_blank]
      simp only [fileMeans_cons_of_blank hblank]
      exact ih
    · simp only [fileMeans_cons hblank]
      constructor
      · intro h
        split at h
        · cases h
        · next es₁ hline =>
          obtain ⟨e, he, rfl⟩ := (parseLine_ok_iff hblank).mp hline
          obtain ⟨es, hes, rfl⟩ := ih.mp h
          exact ⟨e :: es, ⟨e, es, he, hes, rfl⟩, by simp⟩
      · rintro ⟨_, ⟨e, es, he, hes, rfl⟩, rfl⟩
        rw [(parseLine_ok_iff hblank).mpr ⟨e, he, rfl⟩]
        exact ih.mpr ⟨es, hes, by simp⟩

/-- **`Parse` reads the grammar**: the entries of the table are what the lines
denote. -/
theorem parse_ok_iff {text : Text} {t : Table} :
    (∃ warnings, parse lib net text = .ok (t, warnings))
      ↔ (scanLines text).2 = false ∧ FileMeans lib net (scanLines text).1 t.entries := by
  unfold parse
  dsimp only
  constructor
  · rintro ⟨warnings, h⟩
    split at h
    · cases h
    · next entries hentries =>
      split at h
      · cases h
      · next hlong =>
        cases h
        obtain ⟨es, hes, rfl⟩ := parseLines_ok_iff.mp hentries
        exact ⟨Bool.eq_false_iff.mpr hlong, hes⟩
  · rintro ⟨hlong, hes⟩
    rw [parseLines_ok_iff.mpr ⟨t.entries, hes, (List.nil_append _).symm⟩, hlong]
    exact ⟨_, rfl⟩

end

/-! ## A lookup is a search in the lines -/

section

variable {lib : GoLib} {net : CIDRParser} {name mac : Text} {l : Text} {e : Entry}

/-- The network address of a network in CIDR notation has no bit outside the
mask. -/
theorem networkNumberAndMask_of_parseCIDR {cidr : Text} {n : IPNet} {subnet : IP}
    (hn : net.parseCIDR cidr = .ok n) (h4 : IP.to4 n.ip = some subnet) :
    ∃ mask, n.networkNumberAndMask = some (subnet, mask)
      ∧ List.zipWith (· &&& ·) subnet mask = subnet := by
  have hlen := IP.length_of_to4 h4
  have hsize := net.length_mask cidr n hn
  have hmasked := net.masked cidr n hn
  unfold IPNet.networkNumberAndMask
  rw [h4, Option.getD_some]
  obtain ⟨-, hip | hip⟩ := IP.to4_eq_some_iff.mp h4
  · rw [hip] at hsize hmasked
    exact ⟨n.mask, by simp [hlen, hsize], hmasked⟩
  · -- the address is the last four bytes of sixteen, and so is the mask
    have hsixteen : n.mask.length = 16 := by
      rw [hsize, hip, List.length_append, hlen]
      rfl
    refine ⟨n.mask.drop 12, by simp [hlen, hsixteen], ?_⟩
    have hdrop := congrArg (List.drop 12) hmasked
    rw [List.drop_zipWith, hip, List.drop_left' (show IP.v4InV6Prefix.length = 12 from rfl)]
      at hdrop
    exact hdrop

theorem lineAccepts_iff (h : LineMeans lib net (fields l) e) :
    LineAccepts lib name mac l ↔ e.sel.accepts lib name mac = true := by
  generalize hfs : fields l = fs at h
  cases h with
  | line hsel _ _ =>
    rw [hsel.accepts_iff, LineAccepts, hfs]
    constructor
    · rintro ⟨token, cidr, htok, h⟩
      cases htok
      exact h
    · exact fun h => ⟨_, _, rfl, h⟩

theorem lineSubnet_iff (h : LineMeans lib net (fields l) e) {subnet : IP} :
    LineSubnet net subnet l ↔ subnet = e.subnet := by
  generalize hfs : fields l = fs at h
  cases h with
  | @line token cidr sel n subnet' _ hn h4 =>
    obtain ⟨mask, hnum, hmasked⟩ := networkNumberAndMask_of_parseCIDR hn h4
    rw [LineSubnet, hfs]
    constructor
    · rintro ⟨token, cidr, n', mask', htok, hn', hnum', -, -⟩
      cases htok
      cases hn.symm.trans hn'
      cases hnum.symm.trans hnum'
      rfl
    · rintro rfl
      exact ⟨token, cidr, n, mask, rfl, hn, hnum, IP.length_of_to4 h4, hmasked⟩

theorem not_lineAccepts_of_blank (h : fields l = []) : ¬ LineAccepts lib name mac l := by
  rintro ⟨token, cidr, htok, -⟩
  rw [h] at htok
  cases htok

theorem Table.lookup_cons (es : List Entry) :
    (Table.mk (e :: es)).lookup lib name mac
      = if e.sel.accepts lib name mac then some e.subnet
        else (Table.mk es).lookup lib name mac := by
  unfold Table.lookup
  cases ha : e.sel.accepts lib name mac with
  | true => rw [List.find?_cons_of_pos (by simpa using ha)]; rfl
  | false => rw [List.find?_cons_of_neg (by simpa using ha)]; rfl

/-- **The first line that accepts the interface decides.** -/
theorem lookup_eq_some_iff {ls : List Text} {es : List Entry} (h : FileMeans lib net ls es)
    {subnet : IP} :
    (Table.mk es).lookup lib name mac = some subnet
      ↔ First (LineAccepts lib name mac) (LineSubnet net subnet) ls := by
  induction ls generalizing es with
  | nil =>
    rw [fileMeans_nil.mp h]
    exact iff_of_false (fun h => by cases h) not_first_nil
  | cons l ls ih =>
    rw [first_cons]
    by_cases hblank : fields l = []
    · simp only [not_lineAccepts_of_blank hblank, false_and, not_false_eq_true, true_and,
        false_or]
      exact ih ((fileMeans_cons_of_blank hblank).mp h)
    · obtain ⟨e, es', he, hes, rfl⟩ := (fileMeans_cons hblank).mp h
      rw [lineAccepts_iff he, lineSubnet_iff he, Table.lookup_cons, ← ih hes]
      cases e.sel.accepts lib name mac with
      | true => simp [eq_comm]
      | false => simp

/-- **An interface that no line accepts has no subnet.** -/
theorem lookup_eq_none_iff {ls : List Text} {es : List Entry} (h : FileMeans lib net ls es) :
    (Table.mk es).lookup lib name mac = none ↔ ∀ l ∈ ls, ¬ LineAccepts lib name mac l := by
  induction ls generalizing es with
  | nil =>
    rw [fileMeans_nil.mp h]
    exact iff_of_true rfl (fun l hl => absurd hl List.not_mem_nil)
  | cons l ls ih =>
    rw [List.forall_mem_cons]
    by_cases hblank : fields l = []
    · simp only [not_lineAccepts_of_blank hblank, not_false_eq_true, true_and]
      exact ih ((fileMeans_cons_of_blank hblank).mp h)
    · obtain ⟨e, es', he, hes, rfl⟩ := (fileMeans_cons hblank).mp h
      rw [lineAccepts_iff he, Table.lookup_cons, ← ih hes]
      cases e.sel.accepts lib name mac with
      | true => simp
      | false => simp

end

/-! ## The case of hardware addresses -/

/-- **Two lines are equal but for the case of `mac=` globs.** -/
def SameLine (l l' : Text) : Prop :=
  fields l = fields l' ∨ ∃ token token' cidr, fields l = [token, cidr]
    ∧ fields l' = [token', cidr] ∧ SameSelector token token'

theorem parseLine_of_sameLine {lib : GoLib} (hlower : lib.LowersASCII) {net : CIDRParser}
    {l l' : Text} (h : SameLine l l') (lineNum : ℕ) (entries : List Entry) :
    parseLine lib net lineNum entries (fields l)
      = parseLine lib net lineNum entries (fields l') := by
  rcases h with h | ⟨token, token', cidr, h, h', hsel⟩
  · rw [h]
  · rw [h, h']
    unfold parseLine
    simp only [List.length_cons, List.length_nil, List.getD_cons_zero, List.getD_cons_succ,
      parseSelector_of_sameSelector hlower hsel]

theorem parseLines_of_sameLines {lib : GoLib} (hlower : lib.LowersASCII) {net : CIDRParser}
    {ls ls' : List Text} (h : List.Forall₂ SameLine ls ls') (lineNum : ℕ)
    (entries : List Entry) :
    parseLines lib net lineNum entries ls = parseLines lib net lineNum entries ls' := by
  induction h generalizing lineNum entries with
  | nil => rfl
  | cons hline _ ih =>
    unfold parseLines
    rw [parseLine_of_sameLine hlower hline]
    simp only [ih]

theorem Table.lookup_of_eqUpToCase {lib : GoLib} (hlower : lib.LowersASCII) (t : Table)
    (name : Text) {mac mac' : Text} (h : EqUpToCase mac mac') :
    t.lookup lib name mac = t.lookup lib name mac' := by
  unfold Table.lookup
  simp only [accepts_of_eqUpToCase hlower _ name h]

/-! ## The file as a whole -/

/-- **The link map means what its grammar says.** A file is accepted exactly when
each of its lines is blank or has a selector and an IPv4 network, and no line is too
long to be read. The table of an accepted file gives an interface the network
address of the first line that accepts it, and nothing if no line does. The case of
letters makes no difference, in the hardware address that is looked up and in the
`mac=` globs of the file, and the lines after the first that accepts the interface
make none. -/
theorem linkMap_grammar (lib : GoLib) (hlower : lib.LowersASCII) (net : CIDRParser)
    (text : Text) :
    ((∃ r, parse lib net text = .ok r)
      ↔ (scanLines text).2 = false
        ∧ ∀ l ∈ (scanLines text).1, fields l = []
          ∨ ∃ token cidr, fields l = [token, cidr] ∧ (∃ sel, SelectorMeans lib token sel)
            ∧ ∃ n subnet, net.parseCIDR cidr = .ok n ∧ IP.to4 n.ip = some subnet)
      ∧ ∀ t warnings, parse lib net text = .ok (t, warnings) →
        (∀ name mac,
          (∀ subnet, t.lookup lib name mac = some subnet
            ↔ First (LineAccepts lib name mac) (LineSubnet net subnet) (scanLines text).1)
          ∧ (t.lookup lib name mac = none
            ↔ ∀ l ∈ (scanLines text).1, ¬ LineAccepts lib name mac l)
          ∧ (∀ mac', EqUpToCase mac mac' → t.lookup lib name mac' = t.lookup lib name mac)
          ∧ ∀ text' t' warnings' same rest rest', parse lib net text' = .ok (t', warnings') →
            (scanLines text).1 = same ++ rest → (scanLines text').1 = same ++ rest' →
            (∃ l ∈ same, LineAccepts lib name mac l) →
            t'.lookup lib name mac = t.lookup lib name mac)
        ∧ ∀ text', (scanLines text').2 = (scanLines text).2 →
          List.Forall₂ SameLine (scanLines text').1 (scanLines text).1 →
          parse lib net text' = .ok (t, warnings) := by
  constructor
  · simp only [← exists_lineMeans_iff]
    rw [← exists_fileMeans_iff]
    constructor
    · rintro ⟨⟨t, warnings⟩, h⟩
      obtain ⟨hlong, hes⟩ := parse_ok_iff.mp ⟨warnings, h⟩
      exact ⟨hlong, t.entries, hes⟩
    · rintro ⟨hlong, es, hes⟩
      obtain ⟨warnings, h⟩ : ∃ warnings, parse lib net text = .ok (⟨es⟩, warnings) :=
        parse_ok_iff.mpr ⟨hlong, hes⟩
      exact ⟨_, h⟩
  · intro t warnings h
    obtain ⟨-, hes⟩ := parse_ok_iff.mp ⟨warnings, h⟩
    refine ⟨fun name mac => ⟨fun subnet => lookup_eq_some_iff hes, lookup_eq_none_iff hes,
      fun mac' hmac => (t.lookup_of_eqUpToCase hlower name hmac).symm, ?_⟩, ?_⟩
    · intro text' t' warnings' same rest rest' h' hls hls' haccepts
      obtain ⟨-, hes'⟩ := parse_ok_iff.mp ⟨warnings', h'⟩
      rw [hls] at hes
      rw [hls'] at hes'
      refine Option.ext (fun subnet => ?_)
      show Table.lookup lib ⟨t'.entries⟩ name mac = some subnet
        ↔ Table.lookup lib ⟨t.entries⟩ name mac = some subnet
      rw [lookup_eq_some_iff hes, lookup_eq_some_iff hes', first_append haccepts,
        first_append haccepts]
    · intro text' hlong hsame
      rw [← h]
      unfold parse
      dsimp only
      rw [parseLines_of_sameLines hlower hsame, hlong]

/-! ## Networks in dotted decimal -/

/-- `net.CIDRMask` of four bytes. -/
def cidrMask (ones : ℕ) : Bytes :=
  (List.range 4).map (fun i => UInt8.ofNat (256 - 2 ^ (8 - min 8 (ones - 8 * i))))

/-- A decimal number, `none` on anything else. -/
def decimal (s : Text) : Option ℕ :=
  Decimal.parse (fun c => if c.isDigit then some (c.toNat - 48) else none) s

/-- A byte of an address in dotted decimal, which has no leading zeros. -/
def octet (s : Text) : Option ℕ :=
  if 1 < s.length ∧ s.head? = some '0' then none else decimal s

/-- The network of an IPv4 address and a number of leading bits. -/
def network4 (addr : List ℕ) (ones : ℕ) : IPNet :=
  ⟨List.zipWith (· &&& ·) (addr.map UInt8.ofNat) (cidrMask ones), cidrMask ones⟩

/-- `net.ParseCIDR` for IPv4 networks in dotted decimal. The number of leading bits
may have leading zeros, unlike the bytes. -/
def parseCIDR4 (token : Text) : Except String IPNet :=
  match token.splitOn '/' with
  | [addr, len] =>
    match (addr.splitOn '.').mapM octet, decimal len with
    | some bytes, some ones =>
      if bytes.length = 4 ∧ (∀ b ∈ bytes, b < 256) ∧ ones ≤ 32 then .ok (network4 bytes ones)
      else .error ("invalid CIDR address: " ++ String.ofList token)
    | _, _ => .error ("invalid CIDR address: " ++ String.ofList token)
  | _ => .error ("invalid CIDR address: " ++ String.ofList token)

theorem parseCIDR4_ok {token : Text} {n : IPNet} (h : parseCIDR4 token = .ok n) :
    ∃ bytes ones, bytes.length = 4 ∧ n = network4 bytes ones := by
  unfold parseCIDR4 at h
  split at h
  · split at h
    · next bytes ones _ _ =>
      split at h
      · next hok =>
        cases h
        exact ⟨bytes, ones, hok.1, rfl⟩
      · cases h
    · cases h
  · cases h

/-- A library that reads IPv4 networks. -/
def CIDRParser.ipv4 : CIDRParser where
  parseCIDR := parseCIDR4
  length_mask := by
    intro token n h
    obtain ⟨bytes, ones, hlen, rfl⟩ := parseCIDR4_ok h
    simp [network4, cidrMask, hlen]
  masked := by
    intro token n h
    obtain ⟨bytes, ones, -, rfl⟩ := parseCIDR4_ok h
    have hidem : ∀ addr mask : Bytes, List.zipWith (· &&& ·) (List.zipWith (· &&& ·) addr mask)
        mask = List.zipWith (· &&& ·) addr mask := by
      intro addr mask
      induction addr generalizing mask with
      | nil => rfl
      | cons a addr ih =>
        cases mask with
        | nil => rfl
        | cons m mask => simp [ih, UInt8.and_assoc]
    exact hidem _ _

/-- A file of two lines: the hardware address that is looked up is written in
another case than in the file, and the network is given by an address in it. -/
theorem linkMap_grammar_mixedCase :
    First (LineAccepts .literal "eth0".toList "02:aB".toList)
      (LineSubnet .ipv4 [10, 1, 0, 0])
      (scanLines "mac=02:Ab 10.1.2.3/16 # lab\n* 192.168.0.0/24".toList).1 := by
  have hparse : parse .literal .ipv4 "mac=02:Ab 10.1.2.3/16 # lab\n* 192.168.0.0/24".toList
      = .ok (⟨[⟨[10, 1, 0, 0], { macGlobs := ["02:ab".toList] }, rfl⟩,
        ⟨[192, 168, 0, 0], { all := true }, rfl⟩]⟩, []) := rfl
  have hgrammar := linkMap_grammar .literal GoLib.lowersASCII_literal .ipv4
    "mac=02:Ab 10.1.2.3/16 # lab\n* 192.168.0.0/24".toList
  exact (((hgrammar.2 _ _ hparse).1 _ _).1 _).mp rfl

end LinkMap
