import DhcpRelay.Framing
import DhcpRelay.Options

/-!
# Option 82: the relay agent information

What a relay adds to a request is one option, Option 82, whose data is a list
of sub-options – type, length, value – written one after the other. The relay
writes it on the way out (`encodeRelayAgentInformationOption`) and reads it
back off the reply (`decodeRelayAgentInformationOption`), which is how a reply
finds the interface its request came in on. Between the two the option is in
the hands of the server and of whoever can forge a reply.

The sub-option format is a `RecordFormat`, so the codec is a bijection between
the lists of sub-options and the strings that are concatenations of complete
records. Encoding adds two refusals of its own: a sub-option of length zero,
which is how a failed constructor shows, and more than 255 bytes in all, which
no option can carry.
-/

namespace Dhcp

/-- Option 82. -/
def relayAgentInformation : UInt8 := 82

/-- `DHCPv4MaxOptionSize`. -/
def maxOptionSize : ℕ := 255

/-- The type and length bytes before the data of an option. -/
def headerSize : ℕ := 2

/-- `DHCPv4MaxSubOptionSize`. -/
def maxSubOptionSize : ℕ := maxOptionSize - headerSize

/-- `EncodeRelayAgentInformationOption`, the loop: the bytes of the
sub-options after those already written, or `none` on a sub-option of length
zero. -/
def encodeSubOptions : List DHCPOption → Bytes → Option Bytes
  | [], data => some data
  | subOption :: subOptions, data =>
    if subOption.length = 0 then none
    else encodeSubOptions subOptions
      (data ++ [subOption.type, subOption.length] ++ subOption.data)

/-- **`EncodeRelayAgentInformationOption`**: the sub-options packed into one
Option 82, or the zero option for a sub-option of length zero and for more
than 255 bytes. -/
def encodeRelayAgentInformationOption (subOptions : List DHCPOption) : DHCPOption :=
  match encodeSubOptions subOptions [] with
  | none => {}
  | some data =>
    if data.length > maxOptionSize then {}
    else newDHCPOption relayAgentInformation data

/-- One round of the loop of `DecodeRelayAgentInformationOption`, in the state
(data left, sub-options read): a truncated record rejects the whole option. -/
def decodeStep : Bytes × List DHCPOption → (Bytes × List DHCPOption) ⊕ List DHCPOption
  | (data, subOptions) =>
    if data.length > 0 then
      if data.length < headerSize then .inr []
      else
        let length := (data.getD 1 0).toNat
        if data.length < headerSize + length then .inr []
        else
          .inl (data.drop (headerSize + length),
            subOptions ++
              [⟨data.getD 0 0, data.getD 1 0, (data.drop headerSize).take length⟩])
    else .inr subOptions

/-- **`DecodeRelayAgentInformationOption`**: the sub-options of an option, or
nil when its data is not a list of complete records. -/
def decodeRelayAgentInformationOption (option : DHCPOption) : List DHCPOption :=
  (whileLoop decodeStep (option.data.length + 1) (option.data, [])).getD []

/-- `GetRelayAgentInformationOption`: Option 82 when it carries anything. -/
def getRelayAgentInformationOption (layer : DHCPv4) : DHCPOption :=
  let opt82 := getOption layer relayAgentInformation
  if !isOption opt82 then {}
  else if opt82.data.length == 0 || opt82.length < 1 then {}
  else opt82

/-- `DeleteRelayAgentInformationOption`. -/
def deleteRelayAgentInformationOption (layer : DHCPv4) : DHCPv4 :=
  deleteOption layer relayAgentInformation

/-! ## The sub-option format -/

/-- A sub-option whose length byte is the length of its data, as every
sub-option read off the wire is. -/
abbrev SubOption := { o : DHCPOption // o.length.toNat = o.data.length }

/-- The record at the front of some bytes: type, length, and that many bytes
of data. -/
def readSubOption : Bytes → Option (SubOption × Bytes)
  | t :: n :: rest =>
    if h : n.toNat ≤ rest.length then
      some (⟨⟨t, n, rest.take n.toNat⟩, by simp [h]⟩, rest.drop n.toNat)
    else none
  | _ => none

/-- **The format of a sub-option.** -/
def subOptionFormat : RecordFormat SubOption UInt8 where
  write o := o.val.type :: o.val.length :: o.val.data
  read := readSubOption
  write_ne_nil _ := List.cons_ne_nil _ _
  read_write := by
    rintro ⟨⟨t, n, data⟩, hn⟩ rest
    have hle : n.toNat ≤ (data ++ rest).length := by
      rw [List.length_append]
      exact le_of_eq_of_le hn (Nat.le_add_right _ _)
    show readSubOption (t :: n :: (data ++ rest)) = _
    rw [readSubOption, dif_pos hle]
    simp only [List.take_left' hn.symm, List.drop_left' hn.symm]
  write_of_read := by
    intro d o rest h
    match d, h with
    | [], h => cases h
    | [_], h => cases h
    | t :: n :: d, h =>
      rw [readSubOption] at h
      split at h
      · cases h
        simp
      · cases h

/-- The bytes of a list of sub-options. -/
def subOptionBytes (subOptions : List DHCPOption) : Bytes :=
  subOptions.flatMap (fun o => o.type :: o.length :: o.data)

theorem subOptionBytes_map_val (l : List SubOption) :
    subOptionBytes (l.map Subtype.val) = subOptionFormat.writeAll l := by
  rw [subOptionBytes, RecordFormat.writeAll, List.flatMap_map]
  rfl

theorem length_subOptionBytes (l : List DHCPOption) :
    (subOptionBytes l).length = (l.map (fun o => 2 + o.data.length)).sum := by
  rw [subOptionBytes, List.length_flatMap]
  refine congrArg List.sum (List.map_congr_left (fun o _ => ?_))
  rw [List.length_cons, List.length_cons]
  omega

/-- The decoder's loop is the reader of the format, with nil for a failure. -/
theorem decodeStep_map_val (d : Bytes) (acc : List SubOption) :
    decodeStep (d, acc.map Subtype.val)
      = (subOptionFormat.readStep (d, acc)).map
          (fun s => (s.1, s.2.map Subtype.val))
          (fun r => (r.getD []).map Subtype.val) := by
  match d with
  | [] => rfl
  | [_] => rfl
  | t :: n :: d =>
    simp only [decodeStep, RecordFormat.readStep, subOptionFormat, readSubOption,
      headerSize, List.length_cons, List.getD_cons_zero, List.getD_cons_succ]
    by_cases h : n.toNat ≤ d.length
    · rw [if_pos (by omega), if_neg (by omega), if_neg (by omega), dif_pos h]
      simp [Nat.add_comm 2]
    · rw [if_pos (by omega), if_neg (by omega), if_pos (by omega), dif_neg h]
      rfl

theorem whileLoop_decodeStep (n : ℕ) (d : Bytes) :
    whileLoop decodeStep n (d, [])
      = (whileLoop subOptionFormat.readStep n (d, [])).map
          (fun r => (r.getD []).map Subtype.val) :=
  whileLoop_map (fun s => (s.1, s.2.map Subtype.val)) _
    (fun s => decodeStep_map_val s.1 s.2) n (d, [])

/-- The decoder's loop ends on every input. -/
theorem decodeStep_ends (d : Bytes) :
    (whileLoop decodeStep (d.length + 1) (d, [])).isSome = true := by
  rw [whileLoop_decodeStep, Option.isSome_map]
  exact subOptionFormat.readStep_ends d []

/-- **Decoding is reading the format**, with nil for a failure. -/
theorem decodeRelayAgentInformationOption_eq (option : DHCPOption) :
    decodeRelayAgentInformationOption option
      = ((subOptionFormat.readAll option.data).getD []).map Subtype.val := by
  obtain ⟨r, hr⟩ := Option.isSome_iff_exists.mp
    (subOptionFormat.readStep_ends option.data [])
  rw [decodeRelayAgentInformationOption, whileLoop_decodeStep,
    RecordFormat.readAll, hr]
  rfl

/-- **What was written is decoded**: the bytes of well-formed sub-options
decode to them. -/
theorem decode_subOptionBytes {L : List DHCPOption} {option : DHCPOption}
    (hL : ∀ o ∈ L, o.length.toNat = o.data.length)
    (hd : option.data = subOptionBytes L) :
    decodeRelayAgentInformationOption option = L := by
  lift L to List SubOption using hL
  rw [decodeRelayAgentInformationOption_eq, hd, subOptionBytes_map_val,
    RecordFormat.readAll_writeAll]
  rfl

/-- **Whatever decodes to something was written so**: a decoded list is made
of well-formed sub-options, and its bytes are the data. -/
theorem subOptionBytes_decode {option : DHCPOption}
    (h : decodeRelayAgentInformationOption option ≠ []) :
    (∀ o ∈ decodeRelayAgentInformationOption option,
        o.length.toNat = o.data.length)
      ∧ subOptionBytes (decodeRelayAgentInformationOption option) = option.data := by
  rw [decodeRelayAgentInformationOption_eq] at h ⊢
  cases hr : subOptionFormat.readAll option.data with
  | none => exact absurd (by rw [hr]; rfl) h
  | some l =>
    rw [Option.getD_some, subOptionBytes_map_val,
      (subOptionFormat.readAll_eq_some_iff option.data l).mp hr]
    refine ⟨fun o ho => ?_, rfl⟩
    obtain ⟨o', -, rfl⟩ := List.mem_map.mp ho
    exact o'.property

/-! ## Encoding -/

theorem encodeSubOptions_of_pos {L : List DHCPOption} (data : Bytes)
    (h : ∀ o ∈ L, o.length ≠ 0) :
    encodeSubOptions L data = some (data ++ subOptionBytes L) := by
  induction L generalizing data with
  | nil => rw [encodeSubOptions, subOptionBytes, List.flatMap_nil, List.append_nil]
  | cons o L ih =>
    rw [encodeSubOptions, if_neg (h o (List.mem_cons_self ..)),
      ih _ (fun x hx => h x (List.mem_cons_of_mem o hx)), subOptionBytes,
      subOptionBytes, List.flatMap_cons]
    simp

theorem encodeSubOptions_of_zero {L : List DHCPOption} (data : Bytes)
    {o : DHCPOption} (ho : o ∈ L) (hz : o.length = 0) :
    encodeSubOptions L data = none := by
  induction L generalizing data with
  | nil => cases ho
  | cons x L ih =>
    by_cases hx : x.length = 0
    · rw [encodeSubOptions, if_pos hx]
    · rw [encodeSubOptions, if_neg hx]
      refine ih _ ((List.mem_cons.mp ho).resolve_left ?_)
      rintro rfl
      exact hx hz

/-- A set that fits encodes to the option with its bytes. -/
theorem encode_of_fits {L : List DHCPOption} (hpos : ∀ o ∈ L, o.length ≠ 0)
    (hfit : (subOptionBytes L).length ≤ maxOptionSize) :
    encodeRelayAgentInformationOption L
      = newDHCPOption relayAgentInformation (subOptionBytes L) := by
  rw [encodeRelayAgentInformationOption, encodeSubOptions_of_pos [] hpos,
    List.nil_append]
  exact if_neg (Nat.not_lt.mpr hfit)

/-- A set with a sub-option of length zero, or of more than 255 bytes, encodes
to the zero option. -/
theorem encode_of_not_fits {L : List DHCPOption}
    (h : (∃ o ∈ L, o.length = 0) ∨ maxOptionSize < (subOptionBytes L).length) :
    encodeRelayAgentInformationOption L = {} := by
  rw [encodeRelayAgentInformationOption]
  by_cases hz : ∃ o ∈ L, o.length = 0
  · obtain ⟨o, ho, hz⟩ := hz
    rw [encodeSubOptions_of_zero [] ho hz]
  · rw [encodeSubOptions_of_pos [] (fun o ho h0 => hz ⟨o, ho, h0⟩), List.nil_append]
    exact if_pos (h.resolve_left hz)

/-- An option with at most 255 bytes of data is an option when it has data. -/
theorem isOption_newDHCPOption {t : UInt8} {data : Bytes}
    (h : data.length ≤ maxOptionSize) :
    isOption (newDHCPOption t data) = true ↔ data ≠ [] := by
  have hlt : data.length < 2 ^ 8 := lt_of_le_of_lt h (by decide)
  rw [isOption, decide_eq_true_eq, UInt8.lt_iff_toNat_lt, newDHCPOption,
    UInt8.toNat_ofNat_of_lt' hlt]
  exact List.length_pos_iff

theorem subOptionBytes_eq_nil_iff (L : List DHCPOption) :
    subOptionBytes L = [] ↔ L = [] := by
  cases L <;> simp [subOptionBytes]

theorem one_le_length_iff (o : DHCPOption) : 1 ≤ o.length ↔ o.length ≠ 0 := by
  rw [UInt8.le_iff_toNat_le, ne_eq, ← UInt8.toNat_inj]
  exact Nat.one_le_iff_ne_zero

/-- **When a set encodes**: there is a sub-option, none is of length zero, and
together they have at most 255 bytes. -/
theorem isOption_encode_iff (L : List DHCPOption) :
    isOption (encodeRelayAgentInformationOption L) = true
      ↔ L ≠ [] ∧ (∀ o ∈ L, 1 ≤ o.length)
        ∧ (L.map (fun o => 2 + o.data.length)).sum ≤ 255 := by
  simp only [one_le_length_iff]
  rw [← length_subOptionBytes]
  by_cases h : (∀ o ∈ L, o.length ≠ 0) ∧ (subOptionBytes L).length ≤ maxOptionSize
  · rw [encode_of_fits h.1 h.2, isOption_newDHCPOption h.2, ne_eq,
      subOptionBytes_eq_nil_iff]
    exact ⟨fun hne => ⟨hne, h⟩, fun hL => hL.1⟩
  · rw [encode_of_not_fits]
    · exact ⟨fun hz => absurd hz (by decide), fun hL => absurd hL.2 h⟩
    · by_contra hc
      push Not at hc
      exact h ⟨hc.1, hc.2⟩

/-! ## The codec -/

/-- **The codec is a bijection on its format.** A list of well-formed
sub-options encodes exactly when it is not empty, has no sub-option of length
zero and fits 255 bytes, and then decodes to itself. Data decodes to something
exactly when it is a non-empty concatenation of complete records, and then the
bytes of what it decodes to are the data: there is no partial parse. The loop
ends on every input, and data of at most 255 bytes with no record of length
zero is what its decoding encodes to. -/
theorem option82_codec :
    (∀ L : List DHCPOption, (∀ o ∈ L, o.length.toNat = o.data.length) →
      (isOption (encodeRelayAgentInformationOption L) = true
        ↔ L ≠ [] ∧ (∀ o ∈ L, 1 ≤ o.length)
          ∧ (L.map (fun o => 2 + o.data.length)).sum ≤ 255)
      ∧ (isOption (encodeRelayAgentInformationOption L) = true →
        decodeRelayAgentInformationOption (encodeRelayAgentInformationOption L) = L))
    ∧ ∀ option : DHCPOption,
      (decodeRelayAgentInformationOption option ≠ []
        ↔ option.data ≠ []
          ∧ ∃ L : List DHCPOption, (∀ o ∈ L, o.length.toNat = o.data.length)
            ∧ subOptionBytes L = option.data)
      ∧ (decodeRelayAgentInformationOption option ≠ [] →
        (∀ o ∈ decodeRelayAgentInformationOption option,
          o.length.toNat = o.data.length)
        ∧ subOptionBytes (decodeRelayAgentInformationOption option) = option.data)
      ∧ (whileLoop decodeStep (option.data.length + 1) (option.data, [])).isSome = true
      ∧ (∀ L : List DHCPOption, (∀ o ∈ L, o.length.toNat = o.data.length) →
        subOptionBytes L = option.data → (∀ o ∈ L, 1 ≤ o.length) →
        option.data.length ≤ 255 →
        encodeRelayAgentInformationOption (decodeRelayAgentInformationOption option)
          = newDHCPOption relayAgentInformation option.data) := by
  refine ⟨fun L hL => ⟨isOption_encode_iff L, fun h => ?_⟩, fun option =>
    ⟨⟨fun h => ?_, ?_⟩, subOptionBytes_decode, decodeStep_ends option.data, ?_⟩⟩
  · obtain ⟨-, hpos, hfit⟩ := (isOption_encode_iff L).mp h
    rw [← length_subOptionBytes] at hfit
    refine decode_subOptionBytes hL ?_
    rw [encode_of_fits (fun o ho => (one_le_length_iff o).mp (hpos o ho)) hfit]
    rfl
  · have hd := subOptionBytes_decode h
    refine ⟨fun hnil => h ?_, _, hd.1, hd.2⟩
    rw [hnil] at hd
    exact (subOptionBytes_eq_nil_iff _).mp hd.2
  · rintro ⟨hne, L, hL, hd⟩ hnil
    rw [decode_subOptionBytes hL hd.symm] at hnil
    exact hne (hd.symm.trans ((subOptionBytes_eq_nil_iff L).mpr hnil))
  · intro L hL hd hpos hfit
    rw [decode_subOptionBytes hL hd.symm, ← hd, encode_of_fits _ (hd ▸ hfit)]
    exact fun o ho => (one_le_length_iff o).mp (hpos o ho)

/-- A record of the greatest length a length byte can state. Together with its
header it is two bytes more than an option can carry. -/
def longestRecord : DHCPOption := ⟨1, 255, List.replicate 255 7⟩

/-- Data of more than 255 bytes is no option's data, and although it decodes
it does not encode back. -/
theorem encode_decode_longestRecord :
    decodeRelayAgentInformationOption ⟨82, 1, subOptionBytes [longestRecord]⟩
        = [longestRecord]
      ∧ 1 ≤ longestRecord.length
      ∧ (encodeRelayAgentInformationOption (decodeRelayAgentInformationOption
          ⟨82, 1, subOptionBytes [longestRecord]⟩)).data
        ≠ subOptionBytes [longestRecord] := by
  have hlen : longestRecord.data.length = 255 := List.length_replicate
  have hdec : decodeRelayAgentInformationOption
      ⟨82, 1, subOptionBytes [longestRecord]⟩ = [longestRecord] := by
    refine decode_subOptionBytes (fun o ho => ?_) rfl
    rw [List.mem_singleton.mp ho, hlen]
    rfl
  have hlong : maxOptionSize < (subOptionBytes [longestRecord]).length := by
    rw [length_subOptionBytes, List.map_singleton, List.sum_singleton, hlen]
    decide
  refine ⟨hdec, by decide, ?_⟩
  rw [hdec, encode_of_not_fits (.inr hlong)]
  exact fun h => by cases h

end Dhcp
