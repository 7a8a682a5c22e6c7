import DhcpRelay.KeyedList
import DhcpRelay.Loops
import DhcpRelay.Net

/-!
# DHCPv4 messages and their options

The message as the packet library decodes it, and the operations of
`pkg/gpckt/dhcp` on its option list. An option has a type, a length byte and
its data; `DHCPv4` is the decoded layer, which the relay mutates in place and
hands back to the library to serialize. The operations here are the ones
every path of the relay goes through:

* `deleteSplitOptions` drops every option that occurs more than once, before
  anything else looks at the message. It filters the slice it is ranging
  over, in place (`Loops`), and `deleteSplitOptions_eq` says what that leaves.
* `getOption` is the first option of a type, `deleteOption` drops all of a
  type, `setOption` replaces all of a type by one option and sorts.

What the rest of the development uses is that after the filter no type occurs
twice (`nodup_types_deleteSplitOptions`), and that none of the other
operations brings a second occurrence back. Read the other way, a message
without repeated types is what the filter leaves alone
(`deleteSplitOptions_of_nodup`). On such messages `setOption` is the update of
a finite map: it overwrites (`setOption_setOption_of_type_eq`) and updates of
different types commute (`setOption_comm`).
-/

/-- A DHCPv4 option, or a sub-option of one. The zero value stands for *no
option*. -/
structure DHCPOption where
  type : UInt8 := 0
  length : UInt8 := 0
  data : Bytes := []
  deriving DecidableEq, Repr

/-- A decoded DHCPv4 message. -/
structure DHCPv4 where
  operation : UInt8 := 0
  hardwareType : UInt8 := 0
  hardwareLen : UInt8 := 0
  relayHops : UInt8 := 0
  xid : UInt32 := 0
  secs : UInt16 := 0
  flags : UInt16 := 0
  clientIP : IP := []
  yourClientIP : IP := []
  nextServerIP : IP := []
  /-- giaddr. -/
  relayAgentIP : IP := []
  /-- chaddr, `hardwareLen` bytes of it. -/
  clientHWAddr : Bytes := []
  serverName : Bytes := []
  file : Bytes := []
  options : List DHCPOption := []
  deriving DecidableEq, Repr

/-- `DHCPOpRequest`. -/
def opRequest : UInt8 := 1

/-- `DHCPOpReply`. -/
def opReply : UInt8 := 2

theorem DHCPv4.not_reply_of_request {layer : DHCPv4} (hreq : layer.operation = opRequest) :
    layer.operation ≠ opReply := by
  rw [hreq]
  decide

/-- `DHCPOptPad`. -/
def optPad : UInt8 := 0

/-- `DHCPOptEnd`. -/
def optEnd : UInt8 := 255

/-- `DHCPOptMessageType`. -/
def optMessageType : UInt8 := 53

/-- `DHCPOptClientID`, Option 61. -/
def optClientID : UInt8 := 61

/-- `DHCPv4BroadcastFlag`. -/
def broadcastFlag : UInt16 := 0x8000

/-- `NewDHCPOption`: the length byte is the length of the data. -/
def newDHCPOption (type : UInt8) (data : Bytes) : DHCPOption :=
  ⟨type, UInt8.ofNat data.length, data⟩

namespace Dhcp

/-! ## Dropping split options -/

/-- The occurrences of each type, Pad and End apart, counted in one pass. -/
def optionCount (options : List DHCPOption) : UInt8 → ℕ :=
  options.foldl (fun count option =>
      if option.type = optPad ∨ option.type = optEnd then count
      else Function.update count option.type (count option.type + 1))
    (fun _ => 0)

/-- What `DeleteSplitOptions` does with an option: End is kept and ends the
scan, a Pad or an option that does not occur exactly once is skipped. -/
def splitVerdict (count : UInt8 → ℕ) (option : DHCPOption) : Verdict :=
  if option.type = optEnd then .last
  else if option.type = optPad ∨ count option.type ≠ 1 then .skip
  else .keep

/-- **`DeleteSplitOptions`**: RFC 3396 split options are filtered in place,
and the written part of the slice is returned. -/
def deleteSplitOptions (options : List DHCPOption) : List DHCPOption :=
  let r := scanInPlace (splitVerdict (optionCount options)) options
  r.1.take r.2

/-- The pass counts the occurrences on top of what it starts from. -/
theorem foldl_optionCount (options : List DHCPOption) (count : UInt8 → ℕ)
    (t : UInt8) (ht : t ≠ optPad ∧ t ≠ optEnd) :
    options.foldl (fun count option =>
        if option.type = optPad ∨ option.type = optEnd then count
        else Function.update count option.type (count option.type + 1)) count t
      = count t + options.countP (fun o => o.type = t) := by
  induction options generalizing count with
  | nil => rfl
  | cons o l ih =>
    rw [List.foldl_cons, ih, List.countP_cons]
    by_cases ho : o.type = optPad ∨ o.type = optEnd
    · have hot : o.type ≠ t := by
        rintro rfl
        exact ho.elim ht.1 ht.2
      simp [ho, hot]
    · by_cases hot : o.type = t
      · subst hot
        simp [ho]
        omega
      · simp [ho, hot, Function.update_of_ne (Ne.symm hot)]

/-- The number of occurrences of a type other than Pad and End. -/
theorem optionCount_eq_countP (options : List DHCPOption) (t : UInt8)
    (ht : t ≠ optPad ∧ t ≠ optEnd) :
    optionCount options t = options.countP (fun o => o.type = t) := by
  rw [optionCount, foldl_optionCount options _ t ht, Nat.zero_add]

/-- An option that carries a value, and is the only one of its type. -/
def Solitary (options : List DHCPOption) (o : DHCPOption) : Prop :=
  o.type ≠ optPad ∧ o.type ≠ optEnd ∧ options.countP (fun x => x.type = o.type) = 1

instance (options : List DHCPOption) (o : DHCPOption) :
    Decidable (Solitary options o) :=
  inferInstanceAs (Decidable (_ ∧ _ ∧ _))

theorem splitVerdict_keep_iff (options : List DHCPOption) (o : DHCPOption) :
    splitVerdict (optionCount options) o = .keep ↔ Solitary options o := by
  unfold splitVerdict Solitary
  by_cases he : o.type = optEnd
  · simp [he]
  · by_cases hp : o.type = optPad
    · simp [hp, show optPad ≠ optEnd by decide]
    · rw [optionCount_eq_countP options o.type ⟨hp, he⟩]
      simp [he, hp]

theorem splitVerdict_last_iff (count : UInt8 → ℕ) (o : DHCPOption) :
    splitVerdict count o = .last ↔ o.type = optEnd := by
  unfold splitVerdict
  split
  · next h => simp [h]
  · next h => split <;> simp [h]

/-- **What `DeleteSplitOptions` leaves**: in their order, the options before
the first End whose type occurs once in the whole list and is not Pad, and
that End. -/
theorem deleteSplitOptions_eq (options : List DHCPOption) :
    deleteSplitOptions options
      = (options.takeWhile (fun o => o.type ≠ optEnd)).filter
          (fun o => Solitary options o)
        ++ (options.find? (fun o => o.type = optEnd)).toList := by
  rw [deleteSplitOptions, take_scanInPlace, select_eq_filter]
  simp only [splitVerdict_keep_iff, splitVerdict_last_iff, ne_eq]

theorem mem_deleteSplitOptions {options : List DHCPOption} {o : DHCPOption}
    (h : o ∈ deleteSplitOptions options) :
    o ∈ options ∧ (Solitary options o ∨ o.type = optEnd) := by
  rw [deleteSplitOptions_eq, List.mem_append, List.mem_filter,
    Option.mem_toList] at h
  rcases h with ⟨hm, hs⟩ | hm
  · exact ⟨(List.takeWhile_sublist _).mem hm, .inl (of_decide_eq_true hs)⟩
  · have hend := List.find?_some hm
    exact ⟨List.mem_of_find?_eq_some hm, .inr (of_decide_eq_true hend)⟩

/-- **After the filter no type occurs twice.** -/
theorem nodup_types_deleteSplitOptions (options : List DHCPOption) :
    ((deleteSplitOptions options).map DHCPOption.type).Nodup := by
  have hnd : ((options.filter (fun o => Solitary options o)).map
      DHCPOption.type).Nodup :=
    nodup_keys_filter_once DHCPOption.type _ options
      (fun o ho => (of_decide_eq_true ho).2.2)
  rw [deleteSplitOptions_eq, List.map_append, List.nodup_append]
  refine ⟨hnd.sublist (((List.takeWhile_sublist _).filter _).map _), ?_, ?_⟩
  · cases options.find? (fun o => o.type = optEnd) <;> simp
  · intro t ht t' ht' heq
    obtain ⟨o, ho, rfl⟩ := List.mem_map.mp ht
    obtain ⟨e, he, rfl⟩ := List.mem_map.mp ht'
    have hs := of_decide_eq_true (List.mem_filter.mp ho).2
    have hend := List.find?_some (Option.mem_toList.mp he)
    exact hs.2.1 (heq.trans (of_decide_eq_true hend))

/-- No Pad is left. -/
theorem type_ne_pad_of_mem_deleteSplitOptions {options : List DHCPOption} {o : DHCPOption}
    (h : o ∈ deleteSplitOptions options) : o.type ≠ optPad := by
  rcases (mem_deleteSplitOptions h).2 with hs | hend
  · exact hs.1
  · rw [hend]
    decide

/-- **A list in the form the filter leaves is left alone**: distinct types, no Pad,
and an End, if any, in the last place. -/
theorem deleteSplitOptions_of_nodup {l : List DHCPOption} {e : Option DHCPOption}
    (hnd : ((l ++ e.toList).map DHCPOption.type).Nodup)
    (hl : ∀ o ∈ l, o.type ≠ optPad ∧ o.type ≠ optEnd)
    (he : ∀ o ∈ e, o.type = optEnd) :
    deleteSplitOptions (l ++ e.toList) = l ++ e.toList := by
  have hbefore : (l ++ e.toList).takeWhile (fun o => o.type ≠ optEnd) = l := by
    rw [List.takeWhile_append_of_pos (fun o ho => decide_eq_true (hl o ho).2)]
    cases e with
    | none => exact List.append_nil l
    | some o => simp [he o rfl]
  have hend : (l ++ e.toList).find? (fun o => o.type = optEnd) = e := by
    have hnone : l.find? (fun o => o.type = optEnd) = none :=
      List.find?_eq_none.mpr (fun o ho => by simpa using (hl o ho).2)
    rw [List.find?_append, hnone, Option.none_or]
    cases e with
    | none => rfl
    | some o => simp [he o rfl]
  have hkept : l.filter (fun o => Solitary (l ++ e.toList) o) = l := by
    refine List.filter_eq_self.mpr (fun o ho => decide_eq_true ?_)
    exact ⟨(hl o ho).1, (hl o ho).2, countP_key_eq_one hnd (List.mem_append_left _ ho)⟩
  rw [deleteSplitOptions_eq, hbefore, hend, hkept]

/-- Filtering a second time changes nothing. -/
theorem deleteSplitOptions_idem (options : List DHCPOption) :
    deleteSplitOptions (deleteSplitOptions options) = deleteSplitOptions options := by
  have hnd := nodup_types_deleteSplitOptions options
  rw [deleteSplitOptions_eq options] at hnd ⊢
  refine deleteSplitOptions_of_nodup hnd ?_ ?_
  · intro o ho
    have hs : Solitary options o := of_decide_eq_true (List.mem_filter.mp ho).2
    exact ⟨hs.1, hs.2.1⟩
  · intro o ho
    have hend := List.find?_some ho
    exact of_decide_eq_true hend

/-- **The in-place filter is its specification**: of the options up to and
including the first End, it leaves that End and the ones that are no Pad and are
the only one of their type in the whole list, in their order. So types are
distinct, there is no Pad, and a second pass has nothing to do. -/
theorem deleteSplitOptions_spec (options : List DHCPOption) :
    deleteSplitOptions options
        = (options.take (options.findIdx (fun o => o.type = optEnd) + 1)).filter
            (fun o => o.type = optEnd ∨
              o.type ≠ optPad ∧ options.countP (fun x => x.type = o.type) = 1) ∧
      ((deleteSplitOptions options).map DHCPOption.type).Nodup ∧
      (∀ o ∈ deleteSplitOptions options, o.type ≠ optPad) ∧
      deleteSplitOptions (deleteSplitOptions options) = deleteSplitOptions options := by
  refine ⟨?_, nodup_types_deleteSplitOptions options,
    fun o ho => type_ne_pad_of_mem_deleteSplitOptions ho, deleteSplitOptions_idem options⟩
  rw [deleteSplitOptions_eq, take_findIdx_succ, List.filter_append]
  congr 1
  · -- before the first End the two conditions are the same
    simp only [ne_eq, decide_not]
    refine List.filter_congr (fun o ho => decide_eq_decide.mpr ?_)
    have hne : o.type ≠ optEnd := by simpa using List.mem_takeWhile_imp ho
    simp [Solitary, hne]
  · cases hf : options.find? (fun o => o.type = optEnd) with
    | none => rfl
    | some e =>
      have hend := List.find?_some hf
      simp [of_decide_eq_true hend]

/-! ## Reading, deleting and setting one option -/

/-- `IsOption`: a zero option is no option. -/
def isOption (option : DHCPOption) : Bool := 0 < option.length

/-- `GetOption`: the first option of a type, or the zero option. -/
def getOption (layer : DHCPv4) (type : UInt8) : DHCPOption :=
  (layer.options.find? (fun o => o.type = type)).getD {}

theorem getOption_eq_head (layer : DHCPv4) (t : UInt8) :
    getOption layer t
      = (layer.options.filter (fun o => o.type = t)).head?.getD {} := by
  rw [List.head?_filter]
  rfl

/-- `DeleteOption`: every option of a type goes. -/
def deleteOption (layer : DHCPv4) (type : UInt8) : DHCPv4 :=
  { layer with options := layer.options.filter (fun o => o.type ≠ type) }

/-- `slices.SortFunc` by option type: sorted, and not necessarily stable. -/
abbrev OptionSort := SortBy (fun o : DHCPOption => o.type.toNat)

/-- `SetOption`: every option of the new option's type goes, the new option
is appended, and the list is sorted by type. -/
def setOption (S : OptionSort) (layer : DHCPv4) (newOption : DHCPOption) : DHCPv4 :=
  { layer with
    options := S.sort
      (layer.options.filter (fun o => o.type ≠ newOption.type) ++ [newOption]) }

theorem setOption_perm (S : OptionSort) (layer : DHCPv4) (o : DHCPOption) :
    (setOption S layer o).options.Perm
      (o :: layer.options.filter (fun x => x.type ≠ o.type)) :=
  (S.perm _).trans (List.perm_append_comm)

/-- **After setting an option it is the only one of its type**, and the first
of its type, whatever the list held before. -/
theorem filter_type_setOption (S : OptionSort) (layer : DHCPv4) (o : DHCPOption) :
    (setOption S layer o).options.filter (fun x => x.type = o.type) = [o] := by
  have hp := (setOption_perm S layer o).filter (fun x => decide (x.type = o.type))
  have hrest : (layer.options.filter (fun x => x.type ≠ o.type)).filter
      (fun x => x.type = o.type) = [] := by
    refine List.filter_eq_nil_iff.mpr (fun x hx h => ?_)
    exact of_decide_eq_true (List.mem_filter.mp hx).2 (of_decide_eq_true h)
  rw [List.filter_cons_of_pos (by simp), hrest] at hp
  exact List.perm_singleton.mp hp

theorem getOption_setOption_self (S : OptionSort) (layer : DHCPv4)
    (o : DHCPOption) : getOption (setOption S layer o) o.type = o := by
  rw [getOption_eq_head, filter_type_setOption]
  rfl

/-- Setting an option leaves the options of the other types alone, as a
multiset. -/
theorem filter_ne_setOption_perm (S : OptionSort) (layer : DHCPv4)
    (o : DHCPOption) :
    ((setOption S layer o).options.filter (fun x => x.type ≠ o.type)).Perm
      (layer.options.filter (fun x => x.type ≠ o.type)) := by
  have hp := (setOption_perm S layer o).filter (fun x => decide (x.type ≠ o.type))
  rw [List.filter_cons_of_neg (by simp), List.filter_filter] at hp
  simpa only [Bool.and_self] using hp

theorem types_setOption_sorted (S : OptionSort) (layer : DHCPv4) (o : DHCPOption) :
    (setOption S layer o).options.Pairwise (fun a b => a.type.toNat ≤ b.type.toNat) :=
  S.sorted _

/-- An option appended to those of the other types keeps types unique. -/
theorem nodup_types_filter_append {l : List DHCPOption} (o : DHCPOption)
    (h : (l.map DHCPOption.type).Nodup) :
    ((l.filter (fun x => x.type ≠ o.type) ++ [o]).map DHCPOption.type).Nodup := by
  rw [List.map_append, List.nodup_append]
  refine ⟨h.sublist (List.filter_sublist.map _), List.nodup_singleton _, ?_⟩
  intro t ht t' ht' heq
  obtain ⟨x, hx, rfl⟩ := List.mem_map.mp ht
  have hne : x.type ≠ o.type := of_decide_eq_true (List.mem_filter.mp hx).2
  exact hne (heq.trans (List.mem_singleton.mp ht'))

/-- Setting an option keeps types unique. -/
theorem nodup_types_setOption (S : OptionSort) {layer : DHCPv4} (o : DHCPOption)
    (h : (layer.options.map DHCPOption.type).Nodup) :
    ((setOption S layer o).options.map DHCPOption.type).Nodup :=
  ((S.perm _).map DHCPOption.type).nodup_iff.mpr (nodup_types_filter_append o h)

/-- Setting an option leaves the options of another type alone, as a multiset. -/
theorem filter_type_setOption_perm (S : OptionSort) (layer : DHCPv4) (o : DHCPOption)
    {t : UInt8} (ht : t ≠ o.type) :
    ((setOption S layer o).options.filter (fun x => x.type = t)).Perm
      (layer.options.filter (fun x => x.type = t)) := by
  have hsame : (layer.options.filter (fun x => x.type ≠ o.type)).filter
      (fun x => x.type = t) = layer.options.filter (fun x => x.type = t) := by
    rw [List.filter_filter]
    refine List.filter_congr (fun x _ => ?_)
    by_cases hx : x.type = t
    · simp [hx, ht]
    · simp [hx]
  have hp := (setOption_perm S layer o).filter (fun x => decide (x.type = t))
  rw [List.filter_cons_of_neg (by simpa using Ne.symm ht), hsame] at hp
  exact hp

/-- With unique types, setting an option leaves the options of another type
alone. -/
theorem filter_type_setOption_of_ne (S : OptionSort) {layer : DHCPv4}
    (o : DHCPOption) {t : UInt8} (ht : t ≠ o.type)
    (h : (layer.options.map DHCPOption.type).Nodup) :
    (setOption S layer o).options.filter (fun x => x.type = t)
      = layer.options.filter (fun x => x.type = t) := by
  refine eq_of_perm_of_length_le_one (filter_type_setOption_perm S layer o ht) ?_
  rw [filter_key_eq_toList_find? h t]
  exact Option.length_toList_le

/-- Setting an option leaves the reading of a type that occurs once alone. -/
theorem getOption_setOption_of_ne (S : OptionSort) {layer : DHCPv4} (o : DHCPOption)
    {t : UInt8} (ht : t ≠ o.type) (h : layer.options.countP (fun x => x.type = t) = 1) :
    getOption (setOption S layer o) t = getOption layer t := by
  have heq : (setOption S layer o).options.filter (fun x => x.type = t)
      = layer.options.filter (fun x => x.type = t) := by
    refine eq_of_perm_of_length_le_one (filter_type_setOption_perm S layer o ht) ?_
    rw [← List.countP_eq_length_filter, h]
  rw [getOption_eq_head, getOption_eq_head, heq]

/-! ## Setting options one after another

With unique types the list that a set leaves is determined by its elements, so
what is a rearrangement in general is an equality. Each call may sort in its own
way. -/

/-- **With unique types there is one sorted list** of given options. -/
theorem sort_eq_of_nodup_types (S S' : OptionSort) {l l' : List DHCPOption}
    (hp : l.Perm l') (hnd : (l.map DHCPOption.type).Nodup) : S.sort l = S'.sort l' := by
  refine S.sort_eq_of_perm S' hp ?_
  have hkeys := hnd.map (fun _ _ h => UInt8.toNat_inj.mp h)
  rwa [List.map_map] at hkeys

/-- The later of two sets of one type wins. -/
theorem setOption_setOption_of_type_eq (S S' : OptionSort) {layer : DHCPv4}
    (o : DHCPOption) {o' : DHCPOption} (ht : o'.type = o.type)
    (h : (layer.options.map DHCPOption.type).Nodup) :
    setOption S' (setOption S layer o) o' = setOption S' layer o' := by
  have hp : ((setOption S layer o).options.filter (fun x => x.type ≠ o'.type) ++ [o']).Perm
      (layer.options.filter (fun x => x.type ≠ o'.type) ++ [o']) := by
    rw [ht]
    exact (filter_ne_setOption_perm S layer o).append_right [o']
  exact congrArg (fun options => { layer with options := options })
    (sort_eq_of_nodup_types S' S' hp
      (nodup_types_filter_append o' (nodup_types_setOption S o h)))

/-- Two sets of different types commute. -/
theorem setOption_comm (S S' : OptionSort) {layer : DHCPv4} {o o' : DHCPOption}
    (ht : o'.type ≠ o.type) (h : (layer.options.map DHCPOption.type).Nodup) :
    setOption S' (setOption S layer o) o' = setOption S (setOption S' layer o') o := by
  -- both lists hold the two options and the options of the remaining types
  have hboth : ∀ (T : OptionSort) (a b : DHCPOption), b.type ≠ a.type →
      ((setOption T layer a).options.filter (fun x => x.type ≠ b.type) ++ [b]).Perm
        (b :: a :: (layer.options.filter (fun x => x.type ≠ a.type)).filter
          (fun x => x.type ≠ b.type)) := by
    intro T a b hab
    refine List.perm_append_comm.trans (List.Perm.cons b ?_)
    have hp := (setOption_perm T layer a).filter (fun x => decide (x.type ≠ b.type))
    rwa [List.filter_cons_of_pos (by simpa using hab.symm)] at hp
  have hrest : (layer.options.filter (fun x => x.type ≠ o.type)).filter
      (fun x => x.type ≠ o'.type)
      = (layer.options.filter (fun x => x.type ≠ o'.type)).filter
        (fun x => x.type ≠ o.type) := List.filter_comm _ _ _
  have hp := (hboth S o o' ht).trans (List.Perm.swap o o' _)
  rw [hrest] at hp
  exact congrArg (fun options => { layer with options := options })
    (sort_eq_of_nodup_types S' S (hp.trans (hboth S' o' o ht.symm).symm)
      (nodup_types_filter_append o' (nodup_types_setOption S o h)))

/-- **The laws of the option list.** Setting an option sorts the list, leaves the
option as the only one of its type and the others as they were, up to order; it is
then what `GetOption` finds, which finds what it did before for the other types that
occur once, and `DeleteOption` of the type leaves the others. With unique types the
list is determined, although the sort is not stable and may differ from call to
call: setting twice is setting once, the later of two sets of one type wins, and
sets of different types commute. -/
theorem setOption_laws (S : OptionSort) (layer : DHCPv4) (o : DHCPOption) :
    (setOption S layer o).options.Pairwise (fun a b => a.type.toNat ≤ b.type.toNat) ∧
    (setOption S layer o).options.filter (fun x => x.type = o.type) = [o] ∧
    ((setOption S layer o).options.filter (fun x => x.type ≠ o.type)).Perm
      (layer.options.filter (fun x => x.type ≠ o.type)) ∧
    getOption (setOption S layer o) o.type = o ∧
    (∀ t, t ≠ o.type → layer.options.countP (fun x => x.type = t) = 1 →
      getOption (setOption S layer o) t = getOption layer t) ∧
    (deleteOption (setOption S layer o) o.type).options.Perm
      (layer.options.filter (fun x => x.type ≠ o.type)) ∧
    ((layer.options.map DHCPOption.type).Nodup → ∀ S' : OptionSort,
      setOption S' (setOption S layer o) o = setOption S layer o ∧
      (∀ o', o'.type = o.type →
        setOption S' (setOption S layer o) o' = setOption S' layer o') ∧
      (∀ o', o'.type ≠ o.type →
        setOption S' (setOption S layer o) o' = setOption S (setOption S' layer o') o)) := by
  refine ⟨types_setOption_sorted S layer o, filter_type_setOption S layer o,
    filter_ne_setOption_perm S layer o, getOption_setOption_self S layer o,
    fun t ht hone => getOption_setOption_of_ne S o ht hone,
    filter_ne_setOption_perm S layer o, ?_⟩
  intro hnd S'
  refine ⟨?_, fun o' ht => setOption_setOption_of_type_eq S S' o ht hnd,
    fun o' ht => setOption_comm S S' ht hnd⟩
  -- the second set gives what one set with the other sort gives
  rw [setOption_setOption_of_type_eq S S' o rfl hnd]
  exact congrArg (fun options => { layer with options := options })
    (sort_eq_of_nodup_types S' S (List.Perm.refl _) (nodup_types_filter_append o hnd))

/-! ## Message type and flags -/

/-- The DHCP message types the relay handles. -/
inductive MsgType where
  | discover | offer | request | decline | ack | nak | release | inform
  deriving DecidableEq, Repr

/-- The message type of its byte in Option 53. -/
def MsgType.ofByte (b : UInt8) : Option MsgType :=
  if b = 1 then some .discover
  else if b = 2 then some .offer
  else if b = 3 then some .request
  else if b = 4 then some .decline
  else if b = 5 then some .ack
  else if b = 6 then some .nak
  else if b = 7 then some .release
  else if b = 8 then some .inform
  else none

/-- `GetMessageType`: the type Option 53 states, `none` where the source
returns the empty string. -/
def getMessageType (layer : DHCPv4) : Option MsgType :=
  let opt53 := getOption layer optMessageType
  if !isOption opt53 || opt53.data.length == 0 || opt53.length != 1 then none
  else MsgType.ofByte (opt53.data.getD 0 0)

/-- `IsUnicast`. -/
def isUnicast (layer : DHCPv4) : Bool := layer.flags &&& broadcastFlag == 0

/-- `IsBroadcast`. -/
def isBroadcast (layer : DHCPv4) : Bool := layer.flags &&& broadcastFlag == broadcastFlag

/-- `SetUnicast`. -/
def setUnicast (layer : DHCPv4) : DHCPv4 :=
  { layer with flags := layer.flags &&& ~~~broadcastFlag }

/-- `SetBroadcast`. -/
def setBroadcast (layer : DHCPv4) : DHCPv4 :=
  { layer with flags := layer.flags ||| broadcastFlag }

/-- A bit mask that is clear stays clear. -/
theorem and_not_of_and_eq_zero {x m : UInt16} (h : x &&& m = 0) : x &&& ~~~m = x := by
  have hb : x.toBitVec &&& m.toBitVec = 0 := by simpa using congrArg UInt16.toBitVec h
  rw [← UInt16.toBitVec_inj, UInt16.toBitVec_and, UInt16.toBitVec_not]
  ext i hi
  have hi := congrArg (fun b => b.getLsbD i) hb
  simp at hi ⊢
  grind

/-- A bit mask that is set stays set. -/
theorem or_of_and_eq_self {x m : UInt16} (h : x &&& m = m) : x ||| m = x := by
  have hb : x.toBitVec &&& m.toBitVec = m.toBitVec := by
    simpa using congrArg UInt16.toBitVec h
  rw [← UInt16.toBitVec_inj, UInt16.toBitVec_or]
  ext i hi
  have hi := congrArg (fun b => b.getLsbD i) hb
  simp at hi ⊢
  grind

/-- Addressing a reply as its flags say leaves the flags alone. -/
theorem setUnicast_of_isUnicast {layer : DHCPv4} (h : isUnicast layer = true) :
    setUnicast layer = layer := by
  rw [setUnicast, and_not_of_and_eq_zero (beq_iff_eq.mp h)]

theorem setBroadcast_of_isBroadcast {layer : DHCPv4} (h : isBroadcast layer = true) :
    setBroadcast layer = layer := by
  rw [setBroadcast, or_of_and_eq_self (beq_iff_eq.mp h)]

end Dhcp
