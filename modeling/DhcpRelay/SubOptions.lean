import DhcpRelay.RelayAgentInfo

/-!
# The sub-options a relay writes

Three sub-options make up the relay's Option 82. The Agent Circuit ID is the
index of the interface a request came in on, in decimal; the Link Selection is
the subnet of the client where the interface has no address; the policy tag is
the key of the policy entry that let the request through. Each has a
constructor and an extractor.

The constructors refuse with the zero sub-option, which the encoder then
refuses in turn. The extractors take the first sub-option of their type, and
since the three types differ, what each reads off a list the relay wrote is
what its constructor put in, wherever it stands in the list.
-/

namespace Dhcp

/-- `AgentCircuitIDSubOption`. -/
def agentCircuitIDSubOption : UInt8 := 1

/-- `LinkSelectionSubOption` (RFC 3527). -/
def linkSelectionSubOption : UInt8 := 5

/-- `PolicyTagSubOption`. -/
def policyTagSubOption : UInt8 := 224

/-- `MaxAgentCircuitIDSize`: a 32-bit number has at most ten decimal
digits. -/
def maxAgentCircuitIDSize : ℕ := 10

/-- `MaxPolicyTagSize`: the largest policy tag that always fits beside an
Agent Circuit ID. -/
def maxPolicyTagSize : ℕ := maxOptionSize - 2 * headerSize - maxAgentCircuitIDSize

/-! ## Decimal numbers in ASCII -/

/-- The ASCII byte of a decimal digit. -/
def asciiDigit (d : ℕ) : UInt8 := UInt8.ofNat (48 + d)

/-- The digit of an ASCII byte. -/
def asciiDigitVal (b : UInt8) : Option ℕ :=
  if 48 ≤ b.toNat ∧ b.toNat ≤ 57 then some (b.toNat - 48) else none

/-- `strconv.Atoi` on 64-bit integers: an optional sign, then decimal digits;
`none` on a syntax or a range error. -/
def atoi (s : Bytes) : Option ℤ :=
  if s.head? = some 45 then
    (Decimal.parse asciiDigitVal s.tail).bind
      (fun n => if n ≤ 2 ^ 63 then some (-n) else none)
  else
    (Decimal.parse asciiDigitVal (if s.head? = some 43 then s.tail else s)).bind
      (fun n => if n < 2 ^ 63 then some n else none)

theorem toNat_asciiDigit {d : ℕ} (h : d < 10) : (asciiDigit d).toNat = 48 + d :=
  UInt8.toNat_ofNat_of_lt' (show 48 + d < 2 ^ 8 by omega)

theorem asciiDigitVal_asciiDigit {d : ℕ} (h : d < 10) :
    asciiDigitVal (asciiDigit d) = some d := by
  rw [asciiDigitVal, toNat_asciiDigit h, if_pos (by omega)]
  exact congrArg some (by omega)

/-- A numeral starts with a digit, hence with no sign. -/
theorem head?_render_ne (n : ℕ) {b : UInt8} (hb : b.toNat < 48) :
    (Decimal.render asciiDigit n).head? ≠ some b := by
  intro h
  obtain ⟨d, hd, hdb⟩ := List.mem_map.mp (List.mem_of_head? h)
  have := toNat_asciiDigit (Decimal.lt_ten_of_mem_digits hd)
  rw [hdb] at this
  omega

/-- **`Atoi` reads what `FormatUint` writes.** -/
theorem atoi_render {n : ℕ} (h : n < 2 ^ 63) :
    atoi (Decimal.render asciiDigit n) = some (n : ℤ) := by
  rw [atoi, if_neg (head?_render_ne n (by decide)),
    if_neg (head?_render_ne n (by decide)),
    Decimal.parse_render (fun d hd => asciiDigitVal_asciiDigit hd) n,
    Option.bind_some, if_pos h]

/-! ## Constructors and extractors -/

/-- `CreateAgentCircuitIDSubOption`. -/
def createAgentCircuitIDSubOption (value : UInt32) : DHCPOption :=
  let data := Decimal.render asciiDigit value.toNat
  ⟨agentCircuitIDSubOption, UInt8.ofNat data.length, data⟩

/-- `ExtractAgentCircuitIDSubOptionData`: the first Agent Circuit ID, or zero
when there is none or it is no number. -/
def extractAgentCircuitIDSubOptionData (options : List DHCPOption) : ℤ :=
  match options.find? (fun opt => opt.type = agentCircuitIDSubOption) with
  | none => 0
  | some opt => (atoi opt.data).getD 0

/-- `CreateLinkSelectionSubOption`: zero for a subnet that is not IPv4. -/
def createLinkSelectionSubOption (subnet : IP) : DHCPOption :=
  match IP.to4 subnet with
  | none => {}
  | some v4 => ⟨linkSelectionSubOption, 4, v4⟩

/-- `ExtractLinkSelectionSubOptionData`: the first well-formed Link
Selection. -/
def extractLinkSelectionSubOptionData (options : List DHCPOption) : Option IP :=
  (options.find? (fun opt =>
    opt.type = linkSelectionSubOption ∧ opt.data.length = 4)).map DHCPOption.data

/-- `CreatePolicyTagSubOption`: zero for an empty or an oversize tag. -/
def createPolicyTagSubOption (tag : Bytes) : DHCPOption :=
  if tag.length = 0 ∨ tag.length > maxSubOptionSize then {}
  else ⟨policyTagSubOption, UInt8.ofNat tag.length, tag⟩

/-- `ExtractPolicyTagSubOptionData`: the data of the first policy tag, nil
when there is none. -/
def extractPolicyTagSubOptionData (options : List DHCPOption) : Bytes :=
  match options.find? (fun opt => opt.type = policyTagSubOption) with
  | none => []
  | some opt => opt.data

/-- The decimal form of an interface index is one to ten bytes long. -/
theorem length_circuitID (value : UInt32) :
    1 ≤ (Decimal.render asciiDigit value.toNat).length
      ∧ (Decimal.render asciiDigit value.toNat).length ≤ maxAgentCircuitIDSize := by
  constructor
  · exact List.length_pos_iff.mpr (Decimal.render_ne_nil _ _)
  · rw [Decimal.length_render]
    exact Decimal.length_digits_le (by decide)
      (lt_trans value.toNat_lt (by decide))

theorem createAgentCircuitIDSubOption_wf (value : UInt32) :
    (createAgentCircuitIDSubOption value).length.toNat
      = (createAgentCircuitIDSubOption value).data.length := by
  have h := length_circuitID value
  exact UInt8.toNat_ofNat_of_lt' (lt_of_le_of_lt h.2 (by decide))

theorem isOption_createAgentCircuitIDSubOption (value : UInt32) :
    isOption (createAgentCircuitIDSubOption value) = true := by
  rw [isOption, decide_eq_true_eq, UInt8.lt_iff_toNat_lt,
    createAgentCircuitIDSubOption_wf]
  exact (length_circuitID value).1

/-- **The interface index comes back**: an Agent Circuit ID at the front of a
list is read as the index it was made from. -/
theorem extractAgentCircuitID_cons_create (value : UInt32)
    (rest : List DHCPOption) :
    extractAgentCircuitIDSubOptionData (createAgentCircuitIDSubOption value :: rest)
      = value.toNat := by
  have h : value.toNat < 2 ^ 63 := lt_trans value.toNat_lt (by decide)
  rw [extractAgentCircuitIDSubOptionData, List.find?_cons_of_pos (by
    simp [createAgentCircuitIDSubOption])]
  show (atoi (Decimal.render asciiDigit value.toNat)).getD 0 = _
  rw [atoi_render h, Option.getD_some]

end Dhcp
