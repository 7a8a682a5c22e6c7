import DhcpRelay.Options

/-!
# Configuration lines and interface selectors

The tokenizer and the interface selector that the policy file and the link map
share (`pkg/cfgmatch`, `pkg/glob`). A line is cut into fields at whitespace,
and a field that starts with `#` ends it. A selector is `*`, or a comma
separated list of `name=` and `mac=` globs, and accepts an interface when one
of its globs matches the name or the hardware address.

`SelectorMeans` is the grammar of selectors, and `parseSelector_ok_iff` says
that it is what the parser reads. `TokenAccepts` says of a selector which
interfaces it accepts, before anything is parsed
(`SelectorMeans.accepts_iff`), and `CommentAt` says of a line where its comment
starts, before it is cut into fields (`fields_before_comment`).

Shell patterns, Unicode case mapping and the like are the library's, and `GoLib`
carries them.
-/

/-- The library functions that the relay calls and that are given. -/
structure GoLib where
  /-- `unicode.ToLower`. -/
  toLower : Char → Char
  /-- `filepath.Match` of a pattern and a name, `none` on a malformed
  pattern. -/
  filepathMatch : Text → Text → Option Bool
  /-- `strconv.Quote`, which `%q` prints. -/
  quote : Text → String
  /-- The error of `hex.DecodeString` for a text that it refuses. -/
  hexDecodeError : Text → String
  /-- `LinkType.String`. -/
  linkTypeString : UInt8 → String
  /-- `DHCPv4.Len`: the size of a message on the wire, in sixteen bits. -/
  dhcpLen : DHCPv4 → UInt16

/-- A library that maps the case of ASCII letters, knows literal patterns and escapes
nothing. -/
def GoLib.literal : GoLib where
  toLower := Char.toLower
  filepathMatch pattern name := some (pattern == name)
  quote s := "\"" ++ String.ofList s ++ "\""
  hexDecodeError s :=
    if s.length % 2 = 1 then "encoding/hex: odd length hex string" else "encoding/hex: invalid byte"
  linkTypeString := toString
  dhcpLen m :=
    m.options.foldl (fun n o => if o.type = optPad then n + 1 else n + (o.length.toUInt16 + 2)) 240
      + 1

/-- `strings.ToLower`. -/
def GoLib.stringsToLower (lib : GoLib) (s : Text) : Text := s.map lib.toLower

/-- **The library maps the case of ASCII letters**: it does not see whether they
were upper or lower case. -/
def GoLib.LowersASCII (lib : GoLib) : Prop := ∀ c : Char, lib.toLower c.toLower = lib.toLower c

theorem GoLib.lowersASCII_literal : GoLib.literal.LowersASCII := Char.toLower_toLower_eq_toLower

/-- Two texts are equal but for the case of ASCII letters. -/
def EqUpToCase (s s' : Text) : Prop := s.map Char.toLower = s'.map Char.toLower

theorem GoLib.LowersASCII.stringsToLower_eq {lib : GoLib} (h : lib.LowersASCII)
    {s s' : Text} (hs : EqUpToCase s s') : lib.stringsToLower s = lib.stringsToLower s' := by
  have hmap : ∀ t : Text, lib.stringsToLower (t.map Char.toLower) = lib.stringsToLower t := by
    intro t
    rw [GoLib.stringsToLower, GoLib.stringsToLower, List.map_map]
    exact List.map_congr_left (fun c _ => h c)
  rw [← hmap s, ← hmap s', hs]

/-- `unicode.IsSpace`. -/
def isSpace (c : Char) : Bool :=
  c ∈ ['\t', '\n', Char.ofNat 0x0b, Char.ofNat 0x0c, '\r', ' ',
      Char.ofNat 0x85, Char.ofNat 0xa0, Char.ofNat 0x1680, Char.ofNat 0x2028,
      Char.ofNat 0x2029, Char.ofNat 0x202f, Char.ofNat 0x205f, Char.ofNat 0x3000]
    || (0x2000 ≤ c.toNat && c.toNat ≤ 0x200a)

/-- The fields of a text whose current field has been read up to `cur`. -/
def fieldsFrom (cur : Text) : Text → List Text
  | [] => if cur = [] then [] else [cur]
  | c :: s =>
    if isSpace c then
      if cur = [] then fieldsFrom [] s else cur :: fieldsFrom [] s
    else fieldsFrom (cur ++ [c]) s

/-- `strings.Fields`: the maximal runs of characters that are no space. -/
def stringsFields (s : Text) : List Text := fieldsFrom [] s

/-- `bufio.Scanner` over lines, with its default limit: the lines of a text
without their line ends, up to the first line of 64 KiB or more, and whether
there was one. The lines read so far are complete, `cur` is the line being
read. -/
def scanLinesFrom (cur : Text) : Text → List Text × Bool
  | [] =>
    if cur = [] then ([], false)
    else if 65536 ≤ (cur.map Char.utf8Size).sum then ([], true)
    else ([if cur.getLast? = some '\r' then cur.dropLast else cur], false)
  | c :: s =>
    if c = '\n' then
      if 65536 ≤ (cur.map Char.utf8Size).sum then ([], true)
      else
        let r := scanLinesFrom [] s
        ((if cur.getLast? = some '\r' then cur.dropLast else cur) :: r.1, r.2)
    else scanLinesFrom (cur ++ [c]) s

def scanLines (s : Text) : List Text × Bool := scanLinesFrom [] s

namespace CfgMatch

/-- `CommentPrefix`. -/
def commentPrefix : Text := "#".toList

/-- `CatchAllKey`. -/
def catchAllKey : Text := "*".toList

/-- `NameDim`. -/
def nameDim : Text := "name=".toList

/-- `MACDim`. -/
def macDim : Text := "mac=".toList

/-- **`Fields`**: the fields of a line, without the comment that starts at a
field with a leading `#`. -/
def fields (line : Text) : List Text :=
  (stringsFields line).takeWhile (fun f => !commentPrefix.isPrefixOf f)

/-- `glob.Validate`: the pattern is not empty and the library accepts it on
the empty name and on itself. -/
def globValidate (lib : GoLib) (pattern : Text) : Except String Unit :=
  if pattern = [] then .error "empty glob"
  else if lib.filepathMatch pattern [] = none then
    .error ("invalid glob " ++ lib.quote pattern ++ ": syntax error in pattern")
  else if lib.filepathMatch pattern pattern = none then
    .error ("invalid glob " ++ lib.quote pattern ++ ": syntax error in pattern")
  else .ok ()

/-- `glob.Match`: a malformed pattern matches nothing. -/
def globMatch (lib : GoLib) (pattern s : Text) : Bool :=
  (lib.filepathMatch pattern s).getD false

/-- `Selector`: the globs of a term list, or every interface. -/
structure Selector where
  nameGlobs : List Text := []
  macGlobs : List Text := []
  all : Bool := false
  deriving DecidableEq, Repr

/-- `Selector.Match`. -/
def Selector.accepts (lib : GoLib) (s : Selector) (name mac : Text) : Bool :=
  s.all
    || s.nameGlobs.any (fun g => globMatch lib g name)
    || s.macGlobs.any (fun g => globMatch lib g (lib.stringsToLower mac))

/-- The loop of `ParseSelector` over the comma separated terms. -/
def parseTerms (lib : GoLib) : List Text → Selector → Except String Selector
  | [], s => .ok s
  | term :: terms, s =>
    if nameDim.isPrefixOf term then do
      let g := term.drop nameDim.length
      globValidate lib g
      parseTerms lib terms { s with nameGlobs := s.nameGlobs ++ [g] }
    else if macDim.isPrefixOf term then do
      let g := lib.stringsToLower (term.drop macDim.length)
      globValidate lib g
      parseTerms lib terms { s with macGlobs := s.macGlobs ++ [g] }
    else
      .error ("invalid selector term " ++ lib.quote term ++ " (want name=, mac=, or *)")

/-- **`ParseSelector`**: `*`, or comma separated `name=` and `mac=` terms. -/
def parseSelector (lib : GoLib) (token : Text) : Except String Selector :=
  if token = catchAllKey then .ok { all := true }
  else parseTerms lib (token.splitOn ',') {}

/-! ## The grammar -/

theorem ne_nil_of_mem_fieldsFrom {cur s f : Text} (h : f ∈ fieldsFrom cur s) : f ≠ [] := by
  induction s generalizing cur with
  | nil =>
    unfold fieldsFrom at h
    split at h
    · cases h
    · next hne =>
      cases List.mem_singleton.mp h
      exact hne
  | cons c s ih =>
    unfold fieldsFrom at h
    split at h
    · split at h
      · exact ih h
      · next hne =>
        rcases List.mem_cons.mp h with rfl | h
        · exact hne
        · exact ih h
    · exact ih h

/-- No field is empty. -/
theorem ne_nil_of_mem_fields {line f : Text} (h : f ∈ fields line) : f ≠ [] :=
  ne_nil_of_mem_fieldsFrom ((List.takeWhile_sublist _).mem h)

/-- **What a list of terms selects.** The globs of the names and of the hardware
addresses, each in the order of the terms. -/
inductive TermsMean (lib : GoLib) : List Text → Selector → Prop where
  | nil : TermsMean lib [] {}
  | name {g : Text} {terms : List Text} {sel : Selector} :
      globValidate lib g = .ok () → TermsMean lib terms sel →
      TermsMean lib ((nameDim ++ g) :: terms) { sel with nameGlobs := g :: sel.nameGlobs }
  | mac {g : Text} {terms : List Text} {sel : Selector} :
      globValidate lib (lib.stringsToLower g) = .ok () → TermsMean lib terms sel →
      TermsMean lib ((macDim ++ g) :: terms)
        { sel with macGlobs := lib.stringsToLower g :: sel.macGlobs }

/-- **What a selector selects**: everything, or what its terms select. -/
inductive SelectorMeans (lib : GoLib) : Text → Selector → Prop where
  | all : SelectorMeans lib catchAllKey { all := true }
  | terms {token : Text} {sel : Selector} : token ≠ catchAllKey →
      TermsMean lib (token.splitOn ',') sel → SelectorMeans lib token sel

/-- The selector `s` and then what `sel` adds to it. -/
def Selector.append (s sel : Selector) : Selector :=
  { s with
    nameGlobs := s.nameGlobs ++ sel.nameGlobs
    macGlobs := s.macGlobs ++ sel.macGlobs }

theorem TermsMean.all_eq {lib : GoLib} {terms : List Text} {sel : Selector}
    (h : TermsMean lib terms sel) : sel.all = false := by
  induction h with
  | nil => rfl
  | name _ _ ih => exact ih
  | mac _ _ ih => exact ih

theorem parseTerms_name (lib : GoLib) (g : Text) (terms : List Text) (s : Selector) :
    parseTerms lib ((nameDim ++ g) :: terms) s
      = globValidate lib g >>= fun _ =>
          parseTerms lib terms { s with nameGlobs := s.nameGlobs ++ [g] } := by
  have hpre : nameDim.isPrefixOf (nameDim ++ g) = true :=
    List.isPrefixOf_iff_prefix.mpr (List.prefix_append _ _)
  rw [parseTerms, if_pos hpre, List.drop_left]

theorem parseTerms_mac (lib : GoLib) (g : Text) (terms : List Text) (s : Selector) :
    parseTerms lib ((macDim ++ g) :: terms) s
      = globValidate lib (lib.stringsToLower g) >>= fun _ =>
          parseTerms lib terms { s with macGlobs := s.macGlobs ++ [lib.stringsToLower g] } := by
  have hpre : macDim.isPrefixOf (macDim ++ g) = true :=
    List.isPrefixOf_iff_prefix.mpr (List.prefix_append _ _)
  have hname : ¬ nameDim.isPrefixOf (macDim ++ g) = true :=
    Bool.eq_false_iff.mp (show nameDim.isPrefixOf (macDim ++ g) = false from rfl)
  rw [parseTerms, if_neg hname, if_pos hpre, List.drop_left]

theorem parseTerms_of_means {lib : GoLib} {terms : List Text} {sel : Selector}
    (h : TermsMean lib terms sel) (s : Selector) :
    parseTerms lib terms s = .ok (s.append sel) := by
  induction h generalizing s with
  | nil => simp [parseTerms, Selector.append]
  | name hg _ ih =>
    rw [parseTerms_name, hg]
    show parseTerms lib _ _ = _
    rw [ih]
    simp [Selector.append]
  | mac hg _ ih =>
    rw [parseTerms_mac, hg]
    show parseTerms lib _ _ = _
    rw [ih]
    simp [Selector.append]

theorem means_of_parseTerms {lib : GoLib} {terms : List Text} {s s' : Selector}
    (h : parseTerms lib terms s = .ok s') :
    ∃ sel, TermsMean lib terms sel ∧ s' = s.append sel := by
  induction terms generalizing s with
  | nil =>
    cases h
    exact ⟨{}, .nil, by simp [Selector.append]⟩
  | cons term terms ih =>
    by_cases hname : nameDim.isPrefixOf term = true
    · obtain ⟨g, rfl⟩ := List.isPrefixOf_iff_prefix.mp hname
      rw [parseTerms_name] at h
      cases hg : globValidate lib g with
      | error e =>
        rw [hg] at h
        cases h
      | ok u =>
        rw [hg] at h
        obtain ⟨sel, hsel, rfl⟩ := ih h
        exact ⟨_, .name hg hsel, by simp [Selector.append]⟩
    · by_cases hmac : macDim.isPrefixOf term = true
      · obtain ⟨g, rfl⟩ := List.isPrefixOf_iff_prefix.mp hmac
        rw [parseTerms_mac] at h
        cases hg : globValidate lib (lib.stringsToLower g) with
        | error e =>
          rw [hg] at h
          cases h
        | ok u =>
          rw [hg] at h
          obtain ⟨sel, hsel, rfl⟩ := ih h
          exact ⟨_, .mac hg hsel, by simp [Selector.append]⟩
      · rw [parseTerms, if_neg hname, if_neg hmac] at h
        cases h

/-- **`ParseSelector` reads the grammar.** -/
theorem parseSelector_ok_iff {lib : GoLib} {token : Text} {sel : Selector} :
    parseSelector lib token = .ok sel ↔ SelectorMeans lib token sel := by
  have happend : ∀ {s : Selector}, s.all = false → Selector.append {} s = s := by
    intro s hs
    simp [Selector.append, ← hs]
  unfold parseSelector
  constructor
  · intro h
    split at h
    · next htok =>
      cases h
      rw [htok]
      exact .all
    · next htok =>
      obtain ⟨s, hs, rfl⟩ := means_of_parseTerms h
      rw [happend hs.all_eq]
      exact .terms htok hs
  · intro h
    cases h with
    | all => rw [if_pos rfl]
    | terms htok hs => rw [if_neg htok, parseTerms_of_means hs, happend hs.all_eq]

/-! ## Which interfaces a selector accepts -/

/-- **A term accepts an interface**: its glob matches the name, or the hardware
address with both in lower case. -/
def TermAccepts (lib : GoLib) (name mac term : Text) : Prop :=
  (∃ g, term = nameDim ++ g ∧ globMatch lib g name = true)
    ∨ ∃ g, term = macDim ++ g
      ∧ globMatch lib (lib.stringsToLower g) (lib.stringsToLower mac) = true

/-- **A selector accepts an interface**: it is `*`, or one of its terms does. -/
def TokenAccepts (lib : GoLib) (name mac token : Text) : Prop :=
  token = catchAllKey ∨ ∃ term ∈ token.splitOn ',', TermAccepts lib name mac term

theorem termAccepts_name {lib : GoLib} {name mac g : Text} :
    TermAccepts lib name mac (nameDim ++ g) ↔ globMatch lib g name = true := by
  constructor
  · rintro (⟨g', hg, h⟩ | ⟨g', hg, -⟩)
    · rw [List.append_cancel_left hg]
      exact h
    · exact absurd (congrArg List.head? hg) (show some 'n' ≠ some 'm' by decide)
  · exact fun h => .inl ⟨g, rfl, h⟩

theorem termAccepts_mac {lib : GoLib} {name mac g : Text} :
    TermAccepts lib name mac (macDim ++ g)
      ↔ globMatch lib (lib.stringsToLower g) (lib.stringsToLower mac) = true := by
  constructor
  · rintro (⟨g', hg, -⟩ | ⟨g', hg, h⟩)
    · exact absurd (congrArg List.head? hg) (show some 'm' ≠ some 'n' by decide)
    · rw [List.append_cancel_left hg]
      exact h
  · exact fun h => .inr ⟨g, rfl, h⟩

theorem TermsMean.accepts_iff {lib : GoLib} {terms : List Text} {sel : Selector}
    (h : TermsMean lib terms sel) (name mac : Text) :
    sel.accepts lib name mac = true ↔ ∃ term ∈ terms, TermAccepts lib name mac term := by
  induction h with
  | nil => simp [Selector.accepts]
  | name _ hsel ih =>
    rw [List.exists_mem_cons_iff, termAccepts_name, ← ih]
    simp [Selector.accepts, hsel.all_eq, or_assoc]
  | mac _ hsel ih =>
    rw [List.exists_mem_cons_iff, termAccepts_mac, ← ih]
    simp [Selector.accepts, hsel.all_eq, or_left_comm]

/-- **The selector that is parsed accepts what its text accepts.** -/
theorem SelectorMeans.accepts_iff {lib : GoLib} {token : Text} {sel : Selector}
    (h : SelectorMeans lib token sel) (name mac : Text) :
    sel.accepts lib name mac = true ↔ TokenAccepts lib name mac token := by
  cases h with
  | all => exact ⟨fun _ => .inl rfl, fun _ => rfl⟩
  | terms hne hterms =>
    rw [hterms.accepts_iff, TokenAccepts, or_iff_right hne]

/-! ## The case of hardware addresses -/

/-- Two terms are equal but for the case of a `mac=` glob. -/
def SameTerm (term term' : Text) : Prop :=
  term = term' ∨ ∃ g g', term = macDim ++ g ∧ term' = macDim ++ g' ∧ EqUpToCase g g'

/-- **Two selectors are equal but for the case of their `mac=` globs.** -/
def SameSelector (token token' : Text) : Prop :=
  List.Forall₂ SameTerm (token.splitOn ',') (token'.splitOn ',')

theorem parseTerms_of_sameTerm {lib : GoLib} (hlower : lib.LowersASCII)
    {terms terms' : List Text} (h : List.Forall₂ SameTerm terms terms') (s : Selector) :
    parseTerms lib terms s = parseTerms lib terms' s := by
  induction h generalizing s with
  | nil => rfl
  | @cons term term' terms terms' hterm _ ih =>
    rcases hterm with rfl | ⟨g, g', rfl, rfl, hg⟩
    · unfold parseTerms
      simp only [ih]
    · rw [parseTerms_mac, parseTerms_mac, hlower.stringsToLower_eq hg]
      simp only [ih]

/-- `*` is no term, so there is nothing in it that may differ. -/
theorem eq_catchAllKey_of_sameSelector {token token' : Text} (h : SameSelector token token') :
    token = catchAllKey ↔ token' = catchAllKey := by
  have hsplit : ∀ t : Text, t = catchAllKey ↔ t.splitOn ',' = [catchAllKey] := by
    intro t
    refine ⟨fun ht => by rw [ht]; rfl, fun ht => ?_⟩
    have hjoin : [','].intercalate (t.splitOn ',') = t := List.intercalate_splitOn ','
    rw [← hjoin, ht]
    rfl
  have hterm : ∀ {t t'}, SameTerm t t' → (t = catchAllKey ↔ t' = catchAllKey) := by
    rintro t t' (rfl | ⟨g, g', rfl, rfl, -⟩)
    · exact Iff.rfl
    · have hmac : ∀ x : Text, macDim ++ x ≠ catchAllKey := fun x hx =>
        absurd (congrArg List.head? hx) (show some 'm' ≠ some '*' by decide)
      exact iff_of_false (hmac g) (hmac g')
  rw [hsplit token, hsplit token']
  unfold SameSelector at h
  generalize token.splitOn ',' = terms at h ⊢
  generalize token'.splitOn ',' = terms' at h ⊢
  cases h with
  | nil => exact Iff.rfl
  | cons ht hrest =>
    cases hrest with
    | nil => simp [hterm ht]
    | cons => simp

/-- **The case of a `mac=` glob makes no difference.** -/
theorem parseSelector_of_sameSelector {lib : GoLib} (hlower : lib.LowersASCII)
    {token token' : Text} (h : SameSelector token token') :
    parseSelector lib token = parseSelector lib token' := by
  unfold parseSelector
  simp only [eq_catchAllKey_of_sameSelector h, parseTerms_of_sameTerm hlower h]

/-- Nor does the case of the hardware address that is looked up. -/
theorem accepts_of_eqUpToCase {lib : GoLib} (hlower : lib.LowersASCII) (s : Selector)
    (name : Text) {mac mac' : Text} (h : EqUpToCase mac mac') :
    s.accepts lib name mac = s.accepts lib name mac' := by
  rw [Selector.accepts, Selector.accepts, hlower.stringsToLower_eq h]

/-! ## Comments, character by character -/

/-- A `#` at position `i` of `s` starts a comment: it follows a space, or it is
the first character and `start` says that what stands before `s` ends no
field. -/
def CommentFrom (start : Bool) (s : Text) (i : ℕ) : Prop :=
  s[i]? = some '#' ∧
    (i = 0 ∧ start = true ∨ ∃ j c, i = j + 1 ∧ s[j]? = some c ∧ isSpace c = true)

/-- **Where a comment starts**: at a `#` at the start of the line or directly
after a space. -/
def CommentAt (l : Text) (i : ℕ) : Prop :=
  l[i]? = some '#' ∧ (i = 0 ∨ ∃ j c, i = j + 1 ∧ l[j]? = some c ∧ isSpace c = true)

theorem commentAt_iff_commentFrom {l : Text} {i : ℕ} :
    CommentAt l i ↔ CommentFrom true l i := by
  simp [CommentAt, CommentFrom]

theorem commentFrom_zero {start : Bool} {c : Char} {s : Text} :
    CommentFrom start (c :: s) 0 ↔ c = '#' ∧ start = true := by
  simp [CommentFrom]

theorem commentFrom_succ {start : Bool} {c : Char} {s : Text} {i : ℕ} :
    CommentFrom start (c :: s) (i + 1) ↔ CommentFrom (isSpace c) s i := by
  cases i with
  | zero => simp [CommentFrom]
  | succ i => simp [CommentFrom]

/-- Where the first comment starts, behind a character that starts none. -/
theorem firstComment_cons {start : Bool} {c : Char} {s : Text} {n : ℕ}
    (hno : ¬ (c = '#' ∧ start = true)) (hbefore : ∀ i < n, ¬ CommentFrom (isSpace c) s i)
    (hat : n = s.length ∨ CommentFrom (isSpace c) s n) :
    (∀ i < n + 1, ¬ CommentFrom start (c :: s) i) ∧
      (n + 1 = (c :: s).length ∨ CommentFrom start (c :: s) (n + 1)) := by
  refine ⟨fun i hi => ?_, hat.imp (congrArg Nat.succ) commentFrom_succ.mpr⟩
  cases i with
  | zero => exact fun h => hno (commentFrom_zero.mp h)
  | succ i =>
    rw [commentFrom_succ]
    exact hbefore i (Nat.lt_of_succ_lt_succ hi)

/-- Whether a comment starts at `i` is decided by the characters up to `i`. -/
theorem CommentAt.congr {l l₂ : Text} {i : ℕ}
    (hagree : ∀ j ≤ i, l₂[j]? = l[j]?) (h : CommentAt l i) : CommentAt l₂ i := by
  obtain ⟨hhash, hstart⟩ := h
  refine ⟨(hagree i le_rfl).trans hhash, hstart.imp id ?_⟩
  rintro ⟨j, c, rfl, hj, hc⟩
  exact ⟨j, c, rfl, (hagree j j.le_succ).trans hj, hc⟩

/-- Lines that agree up to a comment have their first comment at one place. -/
theorem firstComment_unique {l l₂ : Text} {n m : ℕ} (hagree : ∀ j ≤ n, l₂[j]? = l[j]?)
    (hbefore : ∀ i < n, ¬ CommentAt l i) (hat : CommentAt l n)
    (hbefore₂ : ∀ i < m, ¬ CommentAt l₂ i) (hat₂ : m = l₂.length ∨ CommentAt l₂ m) :
    m = n := by
  have hcomment : CommentAt l₂ n := hat.congr hagree
  have hle : m ≤ n := Nat.le_of_not_lt (fun hlt => hbefore₂ n hlt hcomment)
  rcases hle.lt_or_eq with hlt | heq
  · rcases hat₂ with hlast | hstart
    · obtain ⟨hlen, -⟩ := List.getElem?_eq_some_iff.mp hcomment.1
      exact absurd hlast (hlt.trans hlen).ne
    · have hearlier : CommentAt l m :=
        hstart.congr (fun j hj => (hagree j (hj.trans hle)).symm)
      exact absurd hearlier (hbefore m hlt)
  · exact heq

/-- The fields before the first one that starts with `#`. -/
def dropComment (fs : List Text) : List Text :=
  fs.takeWhile (fun f => !commentPrefix.isPrefixOf f)

theorem dropComment_cons_of_head {f : Text} {fs : List Text} (h : f.head? ≠ some '#') :
    dropComment (f :: fs) = f :: dropComment fs := by
  refine List.takeWhile_cons_of_pos ?_
  cases f with
  | nil => rfl
  | cons c f =>
    have hc : '#' ≠ c := fun hc => h (congrArg some hc.symm)
    show (!('#' == c && true)) = true
    simp [hc]

/-- A field that is being read is the start of the next field. -/
theorem fieldsFrom_eq_cons {cur : Text} (hcur : cur ≠ []) (s : Text) :
    ∃ w fs, fieldsFrom cur s = (cur ++ w) :: fs := by
  induction s generalizing cur with
  | nil => exact ⟨[], [], by simp [fieldsFrom, hcur]⟩
  | cons c s ih =>
    unfold fieldsFrom
    rw [if_neg hcur]
    split
    · exact ⟨[], fieldsFrom [] s, by rw [List.append_nil]⟩
    · obtain ⟨w, fs, hw⟩ := ih (List.append_ne_nil_of_left_ne_nil hcur [c])
      exact ⟨c :: w, fs, by simpa using hw⟩

/-- The fields are the characters that are no space, in order. -/
theorem flatten_fieldsFrom (cur s : Text) :
    (fieldsFrom cur s).flatten = cur ++ s.filter (fun c => !isSpace c) := by
  induction s generalizing cur with
  | nil =>
    unfold fieldsFrom
    split
    · next h => simp [h]
    · simp
  | cons c s ih =>
    unfold fieldsFrom
    split
    · next hc =>
      split
      · next h => simp [ih, h, hc]
      · simp [ih, hc]
    · next hc => simp [ih, hc]

/-- **The tokenizer meets the first comment as a field.** Cutting the fields at
the first one with a leading `#` is cutting the text at the first position where
a comment starts. The induction is on the text, with the field being read as a
parameter: a comment can start exactly where that field is empty. -/
theorem exists_dropComment_fieldsFrom (s : Text) (cur : Text) (hcur : cur.head? ≠ some '#') :
    ∃ n ≤ s.length, dropComment (fieldsFrom cur s) = fieldsFrom cur (s.take n) ∧
      (∀ i < n, ¬ CommentFrom (decide (cur = [])) s i) ∧
      (n = s.length ∨ CommentFrom (decide (cur = [])) s n) := by
  induction s generalizing cur with
  | nil =>
    refine ⟨0, le_rfl, ?_, fun i hi => absurd hi i.not_lt_zero, .inl rfl⟩
    show dropComment (fieldsFrom cur []) = fieldsFrom cur []
    unfold fieldsFrom
    split
    · rfl
    · exact dropComment_cons_of_head hcur
  | cons c s ih =>
    by_cases hc : isSpace c = true
    · -- the field ends here, and the next character may start a comment
      obtain ⟨n, hn, heq, hbefore, hat⟩ := ih [] (by simp)
      have hspace : decide (([] : Text) = []) = isSpace c := hc.symm
      rw [hspace] at hbefore hat
      have hhash : c ≠ '#' := by
        rintro rfl
        exact absurd hc (by decide)
      refine ⟨n + 1, Nat.succ_le_succ hn, ?_,
        firstComment_cons (fun h => hhash h.1) hbefore hat⟩
      rw [List.take_succ_cons]
      unfold fieldsFrom
      rw [if_pos hc, if_pos hc]
      split
      · exact heq
      · rw [dropComment_cons_of_head hcur, heq]
    · by_cases hstart : cur = [] ∧ c = '#'
      · -- the comment starts here: the field being read will be cut
        obtain ⟨rfl, rfl⟩ := hstart
        refine ⟨0, Nat.zero_le _, ?_, fun i hi => absurd hi i.not_lt_zero,
          .inr (commentFrom_zero.mpr ⟨rfl, rfl⟩)⟩
        obtain ⟨w, fs, hw⟩ := fieldsFrom_eq_cons (List.cons_ne_nil '#' []) s
        unfold fieldsFrom
        rw [if_neg hc, List.nil_append, hw]
        rfl
      · have hhead : (cur ++ [c]).head? ≠ some '#' := by
          cases cur with
          | nil => simpa using hstart
          | cons d cur => simpa using hcur
        obtain ⟨n, hn, heq, hbefore, hat⟩ := ih (cur ++ [c]) hhead
        have hspace : decide (cur ++ [c] = []) = isSpace c := by
          rw [Bool.eq_false_iff.mpr hc]
          exact decide_eq_false (by simp)
        rw [hspace] at hbefore hat
        refine ⟨n + 1, Nat.succ_le_succ hn, ?_,
          firstComment_cons (fun h => hstart ⟨of_decide_eq_true h.2, h.1⟩) hbefore hat⟩
        rw [List.take_succ_cons]
        unfold fieldsFrom
        rw [if_neg hc, if_neg hc, heq]

/-- Where the first comment of a line starts, and what is left of the line. -/
theorem exists_fields_eq (l : Text) :
    ∃ n ≤ l.length, fields l = stringsFields (l.take n) ∧
      (∀ i < n, ¬ CommentAt l i) ∧ (n = l.length ∨ CommentAt l n) := by
  simp only [commentAt_iff_commentFrom]
  exact exists_dropComment_fieldsFrom l [] (by simp)

/-- **Comments are stripped by character.** The fields of a line are those of the
text before its first comment, or of the whole line if it has none. They hold
every character of that text that is no space, a `#` inside a field among them,
and whatever else could stand after the comment's `#` changes nothing. -/
theorem fields_before_comment (l : Text) :
    ∃ n ≤ l.length,
      (∀ i < n, ¬ CommentAt l i) ∧ (n = l.length ∨ CommentAt l n) ∧
      fields l = stringsFields (l.take n) ∧
      (fields l).flatten = (l.take n).filter (fun c => !isSpace c) ∧
      (CommentAt l n → ∀ rest, fields (l.take n ++ '#' :: rest) = fields l) := by
  obtain ⟨n, hn, heq, hbefore, hat⟩ := exists_fields_eq l
  refine ⟨n, hn, hbefore, hat, heq, ?_, ?_⟩
  · rw [heq]
    exact flatten_fieldsFrom [] _
  · intro hcomment rest
    have hlen : (l.take n).length = n := List.length_take_of_le hn
    -- the two lines agree up to and including the `#`
    have hagree : ∀ j ≤ n, (l.take n ++ '#' :: rest)[j]? = l[j]? := by
      intro j hj
      rcases hj.lt_or_eq with hlt | rfl
      · rw [List.getElem?_append_left (by rwa [hlen]), List.getElem?_take_of_lt hlt]
      · rw [List.getElem?_append_right (by rw [hlen]), hlen, Nat.sub_self, hcomment.1]
        rfl
    obtain ⟨m, -, heq', hbefore', hat'⟩ := exists_fields_eq (l.take n ++ '#' :: rest)
    have hmn := firstComment_unique hagree hbefore hcomment hbefore' hat'
    rw [heq', heq, hmn, List.take_left' hlen]

end CfgMatch
