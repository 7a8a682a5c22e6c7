import DhcpRelay.Options
import DhcpRelay.Slices

/-!
# The options of the messages in memory

The functions of `pkg/gpckt/dhcp` work on the options of a message in place:
`DeleteSplitOptions` writes over the slice that it ranges over and returns a part
of it, `DeleteOption` and `SetOption` go through `slices.DeleteFunc`, which moves
what it keeps and clears the rest, and the `append` of `SetOption` goes into the
cells that were freed before, or moves the options to another array. `Options`
has them as functions on lists. That is right if no index is ever out of range,
and if nobody else works on the array at the same time: every message is handled
by a goroutine of its own, next to the receive loop, and they all share one memory.

Here the functions are run in a memory of arrays (`Slices`), in steps: a round of
a loop is a step, and so is a call of the `slices` package, which has the array
for itself. `Task` is where a goroutine is, and `State` the memory with all of
them. What can happen is that another message is received, for which the decoder
makes a new array, or that some goroutine takes a step (`Event`).

Each task is on the way to what the functions on lists give, whatever the others
do (`Sound`): its own steps keep to its array or to a new one
(`Task.Leads.advances`), and the steps of the others keep off it. It also gets
nearer to its end with every step of its own (`Task.left`). So a run never panics
(`follows_run`), and a message whose goroutine has had its steps has the options,
and has given the answers, that the functions on lists say (`messages_isolated`).
-/

namespace OptionSlices

open Dhcp Slices

/-! ## The calls, on lists -/

/-- A call on the options of a message. -/
inductive Call where
  | deleteSplitOptions
  | getOption (type : UInt8)
  | deleteOption (type : UInt8)
  | setOption (newOption : DHCPOption)
  deriving DecidableEq, Repr

/-- A message, and what the calls of `GetOption` have answered so far. -/
structure Outcome where
  layer : DHCPv4
  answers : List DHCPOption := []
  deriving DecidableEq, Repr

/-- What a call does, by the functions on lists. -/
def Call.apply (S : OptionSort) (out : Outcome) : Call → Outcome
  | .deleteSplitOptions =>
    { out with layer := { out.layer with options := Dhcp.deleteSplitOptions out.layer.options } }
  | .getOption type => { out with answers := out.answers ++ [Dhcp.getOption out.layer type] }
  | .deleteOption type => { out with layer := Dhcp.deleteOption out.layer type }
  | .setOption newOption => { out with layer := Dhcp.setOption S out.layer newOption }

/-- One call after the other. -/
def calls (S : OptionSort) (out : Outcome) (todo : List Call) : Outcome :=
  todo.foldl (Call.apply S) out

/-! ## The calls, in memory -/

/-- Where a goroutine is within a call. -/
inductive Pc where
  /-- Between two calls. -/
  | ready
  /-- `DeleteSplitOptions`, the loop that counts. -/
  | count (k : ℕ) (optionCount : UInt8 → ℕ)
  /-- `DeleteSplitOptions`, the loop that filters. -/
  | filter (optionCount : UInt8 → ℕ) (k i : ℕ)
  /-- `GetOption`, the loop. -/
  | find (type : UInt8) (k : ℕ)
  /-- `SetOption` after `slices.DeleteFunc`. -/
  | append (newOption : DHCPOption)
  /-- `SetOption` after `append`. -/
  | sort

/-- A goroutine: the slice that `layerDHCPv4.Options` is, the answers it has got,
where it is in its call and the calls to come. -/
structure Task where
  options : Slice := {}
  answers : List DHCPOption := []
  pc : Pc := .ready
  todo : List Call := []

/-- The counting of one option. -/
def countOption (optionCount : UInt8 → ℕ) (option : DHCPOption) : UInt8 → ℕ :=
  if option.type = optPad ∨ option.type = optEnd then optionCount
  else Function.update optionCount option.type (optionCount option.type + 1)

/-- The next call begins. The calls of `slices.DeleteFunc` are the first things
that `DeleteOption` and `SetOption` do. -/
def begin (m : Memory DHCPOption) (t : Task) (todo : List Call) : Call → Memory DHCPOption × Task
  | .deleteSplitOptions => (m, { t with pc := .count 0 (fun _ => 0), todo := todo })
  | .getOption type => (m, { t with pc := .find type 0, todo := todo })
  | .deleteOption type =>
    let r := m.deleteFunc t.options {} (fun opt => opt.type = type)
    (r.1, { t with options := r.2, todo := todo })
  | .setOption newOption =>
    let r := m.deleteFunc t.options {} (fun opt => opt.type = newOption.type)
    (r.1, { t with options := r.2, pc := .append newOption, todo := todo })

/-- **A step of a goroutine**, `none` when it panics. `grow` is the room that
`append` leaves in a new array, by the number of options. -/
def Task.step (S : OptionSort) (grow : ℕ → ℕ) (m : Memory DHCPOption) (t : Task) :
    Option (Memory DHCPOption × Task) :=
  match t.pc with
  | .ready =>
    match t.todo with
    | [] => some (m, t)
    | call :: todo => some (begin m t todo call)
  | .count k c =>
    if k < t.options.len then do
      let option ← m.get t.options k
      some (m, { t with pc := .count (k + 1) (countOption c option) })
    else some (m, { t with pc := .filter c 0 0 })
  | .filter c k i =>
    if k < t.options.len then do
      let option ← m.get t.options k
      match splitVerdict c option with
      | .last => do
        let m' ← m.set t.options i option
        let s ← t.options.cut (i + 1)
        some (m', { t with options := s, pc := .ready })
      | .skip => some (m, { t with pc := .filter c (k + 1) i })
      | .keep => do
        let m' ← m.set t.options i option
        some (m', { t with pc := .filter c (k + 1) (i + 1) })
    else do
      let s ← t.options.cut i
      some (m, { t with options := s, pc := .ready })
  | .find type k =>
    if k < t.options.len then do
      let opt ← m.get t.options k
      if opt.type = type then some (m, { t with answers := t.answers ++ [opt], pc := .ready })
      else some (m, { t with pc := .find type (k + 1) })
    else some (m, { t with answers := t.answers ++ [{}], pc := .ready })
  | .append newOption =>
    let r := m.append t.options (List.replicate (grow t.options.len) {}) newOption
    some (r.1, { t with options := r.2, pc := .sort })
  | .sort => some (m.sortFunc t.options S.sort, { t with pc := .ready })

/-- The goroutine has nothing left to do. -/
def Task.Done (t : Task) : Prop := t.pc = .ready ∧ t.todo = []

/-- The steps that calls take at most, on `n` options. -/
def cost (n : ℕ) : List Call → ℕ
  | [] => 0
  | .deleteSplitOptions :: todo => 2 * n + 3 + cost n todo
  | .getOption _ :: todo => n + 2 + cost n todo
  | .deleteOption _ :: todo => 1 + cost n todo
  | .setOption _ :: todo => 3 + cost (n + 1) todo

/-- The steps that a goroutine takes at most from where it is. -/
def Task.left (t : Task) : ℕ :=
  match t.pc with
  | .ready => cost t.options.len t.todo
  | .count k _ => t.options.len - k + t.options.len + 2 + cost t.options.len t.todo
  | .filter _ k _ => t.options.len - k + 1 + cost t.options.len t.todo
  | .find _ k => t.options.len - k + 1 + cost t.options.len t.todo
  | .append _ => 2 + cost (t.options.len + 1) t.todo
  | .sort => 1 + cost t.options.len t.todo

theorem cost_mono {n n' : ℕ} (h : n ≤ n') (todo : List Call) : cost n todo ≤ cost n' todo := by
  induction todo generalizing n n' with
  | nil => exact le_rfl
  | cons call todo ih =>
    have hsame := ih h
    have hmore : cost (n + 1) todo ≤ cost (n' + 1) todo := ih (Nat.succ_le_succ h)
    cases call <;> simp only [cost] <;> omega

theorem Task.done_of_left {t : Task} (h : t.left = 0) : t.Done := by
  obtain ⟨s, answers, pc, todo⟩ := t
  cases pc with
  | ready =>
    refine ⟨rfl, ?_⟩
    cases todo with
    | nil => rfl
    | cons call todo => cases call <;> simp only [Task.left, cost] at h <;> omega
  | count | filter | find | append | sort => simp only [Task.left] at h; omega

/-! ## Where a task is going -/

/-- **What the call will have made of the message**, when the slice holds `l` in the
middle of it. -/
def Pc.Ends (S : OptionSort) (l answers : List DHCPOption) (out : Outcome) : Pc → Prop
  | .ready => out.layer.options = l ∧ out.answers = answers
  | .count k c =>
    c = optionCount (l.take k) ∧
      out.layer.options = deleteSplitOptions l ∧ out.answers = answers
  | .filter c k i =>
    ∃ l₀, c = optionCount l₀ ∧ k ≤ l.length ∧ ScanInv (splitVerdict c) l₀ (l, k, i) ∧
      out.layer.options = deleteSplitOptions l₀ ∧ out.answers = answers
  | .find type k =>
    (∀ opt ∈ l.take k, opt.type ≠ type) ∧ out.layer.options = l ∧
      out.answers = answers ++ [(l.find? (fun opt => opt.type = type)).getD {}]
  | .append newOption => out.layer.options = S.sort (l ++ [newOption]) ∧ out.answers = answers
  | .sort => out.layer.options = S.sort l ∧ out.answers = answers

/-- **The task leads to `out`**: the call that it is in and the calls to come, by the
functions on lists. -/
def Task.Leads (S : OptionSort) (m : Memory DHCPOption) (out : Outcome) (t : Task) : Prop :=
  ∃ l mid, Holds m t.options l ∧ t.pc.Ends S l t.answers mid ∧ calls S mid t.todo = out

/-- **A step that goes well**: no panic, on the way to the same outcome, off the
arrays of others, and nearer to the end. -/
def Task.Advances (S : OptionSort) (grow : ℕ → ℕ) (m : Memory DHCPOption) (out : Outcome)
    (t : Task) : Prop :=
  ∃ m' t', t.step S grow m = some (m', t') ∧ t'.Leads S m' out ∧
    Confined m m' t.options t'.options ∧ t'.left < t.left

section Steps

variable {S : OptionSort} {grow : ℕ → ℕ} {m : Memory DHCPOption} {out mid : Outcome}
variable {s : Slice} {l answers : List DHCPOption} {todo : List Call}

/-- What `slices.DeleteFunc` leaves of the options, as `Options` has it. -/
theorem holds_deleteFunc (hl : Holds m s l) (type : UInt8) :
    Holds (m.deleteFunc s {} (fun opt => opt.type = type)).1
        (m.deleteFunc s {} (fun opt => opt.type = type)).2
        (l.filter (fun opt => opt.type ≠ type)) ∧
      Confined m (m.deleteFunc s {} (fun opt => opt.type = type)).1 s
        (m.deleteFunc s {} (fun opt => opt.type = type)).2 ∧
      (m.deleteFunc s {} (fun opt => opt.type = type)).2.len ≤ s.len := by
  obtain ⟨hholds, hconf⟩ := hl.deleteFunc {} (fun opt => opt.type = type)
  have hne : (fun opt : DHCPOption => !decide (opt.type = type))
      = fun opt => decide (opt.type ≠ type) := by
    funext opt
    rw [decide_not]
  rw [hne] at hholds
  refine ⟨hholds, hconf, ?_⟩
  rw [← hholds.length, ← hl.length]
  exact List.length_filter_le ..

/-- The next call begins. -/
theorem advances_ready (call : Call) (hl : Holds m s l)
    (hmid : Pc.ready.Ends S l answers mid) (hout : calls S mid (call :: todo) = out) :
    Task.Advances S grow m out ⟨s, answers, .ready, call :: todo⟩ := by
  obtain ⟨rfl, rfl⟩ := hmid
  refine ⟨_, _, rfl, ?_⟩
  cases call with
  | deleteSplitOptions =>
    refine ⟨⟨_, Call.apply S mid .deleteSplitOptions, hl, ⟨rfl, rfl, rfl⟩, hout⟩, .refl m s, ?_⟩
    show s.len - 0 + s.len + 2 + cost s.len todo < 2 * s.len + 3 + cost s.len todo
    omega
  | getOption type =>
    refine ⟨⟨_, Call.apply S mid (.getOption type), hl, ⟨?_, rfl, rfl⟩, hout⟩, .refl m s, ?_⟩
    · intro opt hopt
      exact absurd hopt (List.not_mem_nil)
    · show s.len - 0 + 1 + cost s.len todo < s.len + 2 + cost s.len todo
      omega
  | deleteOption type =>
    obtain ⟨hholds, hconf, hlen⟩ := holds_deleteFunc hl type
    refine ⟨⟨_, Call.apply S mid (.deleteOption type), hholds, ⟨rfl, rfl⟩, hout⟩, hconf, ?_⟩
    show cost _ todo < 1 + cost s.len todo
    exact Nat.lt_one_add_iff.mpr (cost_mono hlen todo)
  | setOption newOption =>
    obtain ⟨hholds, hconf, hlen⟩ := holds_deleteFunc hl newOption.type
    refine ⟨⟨_, Call.apply S mid (.setOption newOption), hholds, ⟨rfl, rfl⟩, hout⟩, hconf, ?_⟩
    show 2 + cost (_ + 1) todo < 3 + cost (s.len + 1) todo
    exact Nat.add_lt_add_of_lt_of_le (Nat.lt_succ_self 2) (cost_mono (Nat.succ_le_succ hlen) todo)

/-- The option at an index within the slice. -/
theorem Holds.get_of_lt (hl : Holds m s l) {k : ℕ} (hk : k < s.len) :
    ∃ option, m.get s k = some option ∧ l[k]? = some option := by
  rw [← hl.length] at hk
  exact ⟨l[k], (hl.get k).trans (List.getElem?_eq_getElem hk), List.getElem?_eq_getElem hk⟩

theorem optionCount_take_succ {k : ℕ} {option : DHCPOption} (h : l[k]? = some option) :
    optionCount (l.take (k + 1)) = countOption (optionCount (l.take k)) option := by
  rw [List.take_add_one, h]
  exact List.foldl_append

/-- A round of the loop that counts, or its end. -/
theorem advances_count {k : ℕ} {c : UInt8 → ℕ} (hl : Holds m s l)
    (hmid : (Pc.count k c).Ends S l answers mid) (hout : calls S mid todo = out) :
    Task.Advances S grow m out ⟨s, answers, .count k c, todo⟩ := by
  obtain ⟨hc, hopts, hans⟩ := hmid
  by_cases hk : k < s.len
  · obtain ⟨option, hget, hat⟩ := Holds.get_of_lt hl hk
    refine ⟨m, ⟨s, answers, .count (k + 1) (countOption c option), todo⟩, ?_,
      ⟨l, mid, hl, ⟨?_, hopts, hans⟩, hout⟩, .refl m s, ?_⟩
    · simp only [Task.step, if_pos hk, hget, Option.bind_eq_bind, Option.bind_some]
    · rw [optionCount_take_succ hat, hc]
    · show s.len - (k + 1) + s.len + 2 + cost s.len todo
        < s.len - k + s.len + 2 + cost s.len todo
      omega
  · -- everything is counted, and the other loop starts on the list as it is
    have htake : l.take k = l := by
      refine List.take_of_length_le ?_
      rw [hl.length]
      exact not_lt.mp hk
    rw [htake] at hc
    refine ⟨m, ⟨s, answers, .filter c 0 0, todo⟩, ?_,
      ⟨l, mid, hl, ⟨l, hc, Nat.zero_le _, .start _ l, hopts, hans⟩, hout⟩, .refl m s, ?_⟩
    · simp only [Task.step, if_neg hk]
    · show s.len - 0 + 1 + cost s.len todo < s.len - k + s.len + 2 + cost s.len todo
      omega

/-- The end of `DeleteSplitOptions`: the written part of the slice is returned. -/
theorem cut_written {n : ℕ} {l₀ : List DHCPOption} (hl : Holds m s l) (hn : n ≤ l.length)
    (htake : l.take n = select (splitVerdict (optionCount l₀)) l₀) :
    ∃ s', s.cut n = some s' ∧ Holds m s' (deleteSplitOptions l₀) ∧ Confined m m s s' ∧
      s'.len ≤ s.len := by
  obtain ⟨s', hcut, hs', hconf⟩ := hl.cut hn
  have hlen : s'.len ≤ s.len := by
    rw [← hs'.length, ← hl.length, List.length_take]
    exact min_le_right ..
  rw [htake, ← take_scanInPlace] at hs'
  exact ⟨s', hcut, hs', hconf, hlen⟩

/-- A round of the loop that filters, or its end. -/
theorem advances_filter {c : UInt8 → ℕ} {k i : ℕ} (hl : Holds m s l)
    (hmid : (Pc.filter c k i).Ends S l answers mid) (hout : calls S mid todo = out) :
    Task.Advances S grow m out ⟨s, answers, .filter c k i, todo⟩ := by
  obtain ⟨l₀, rfl, hkl, hscan, hopts, hans⟩ := hmid
  have hik : i ≤ k := hscan.le
  -- whichever way the loop ends, it has a step more than the calls to come
  have hend : ∀ s' : Slice, s'.len ≤ s.len →
      cost s'.len todo < s.len - k + 1 + cost s.len todo := by
    intro s' hs'
    have hcost := cost_mono hs' todo
    omega
  by_cases hk : k < s.len
  · obtain ⟨option, hget, hat⟩ := Holds.get_of_lt hl hk
    have hkl' : k + 1 ≤ l.length := by
      rw [hl.length]
      exact hk
    have hi : i < l.length := lt_of_le_of_lt hik hkl'
    obtain ⟨m', hset, hl', hconf⟩ := hl.set hi option
    cases hv : splitVerdict (optionCount l₀) option with
    | last =>
      obtain ⟨s', hcut, hs', hconf', hlen⟩ := cut_written hl'
        (by rw [List.length_set]; exact hi) (hscan.last hat hv)
      refine ⟨m', ⟨s', answers, .ready, todo⟩, ?_, ⟨_, mid, hs', ⟨hopts, hans⟩, hout⟩,
        hconf.trans hconf', hend s' hlen⟩
      simp only [Task.step, if_pos hk, hget, Option.bind_eq_bind, Option.bind_some, hv, hset,
        hcut]
    | skip =>
      refine ⟨m, ⟨s, answers, .filter _ (k + 1) i, todo⟩, ?_,
        ⟨l, mid, hl, ⟨l₀, rfl, hkl', hscan.skip hat hv, hopts, hans⟩, hout⟩, .refl m s, ?_⟩
      · simp only [Task.step, if_pos hk, hget, Option.bind_eq_bind, Option.bind_some, hv]
      · show s.len - (k + 1) + 1 + cost s.len todo < s.len - k + 1 + cost s.len todo
        omega
    | keep =>
      refine ⟨m', ⟨s, answers, .filter _ (k + 1) (i + 1), todo⟩, ?_,
        ⟨_, mid, hl', ⟨l₀, rfl, ?_, hscan.keep hat hv, hopts, hans⟩, hout⟩, hconf, ?_⟩
      · simp only [Task.step, if_pos hk, hget, Option.bind_eq_bind, Option.bind_some, hv, hset]
      · rw [List.length_set]
        exact hkl'
      · show s.len - (k + 1) + 1 + cost s.len todo < s.len - k + 1 + cost s.len todo
        omega
  · have hat : l[k]? = none := by
      rw [List.getElem?_eq_none_iff, hl.length]
      exact not_lt.mp hk
    obtain ⟨s', hcut, hs', hconf, hlen⟩ := cut_written hl (le_trans hik hkl) (hscan.stop hat)
    refine ⟨m, ⟨s', answers, .ready, todo⟩, ?_, ⟨_, mid, hs', ⟨hopts, hans⟩, hout⟩, hconf,
      hend s' hlen⟩
    simp only [Task.step, if_neg hk, Option.bind_eq_bind, hcut, Option.bind_some]

/-- A round of the loop of `GetOption`, or its end. -/
theorem advances_find {type : UInt8} {k : ℕ} (hl : Holds m s l)
    (hmid : (Pc.find type k).Ends S l answers mid) (hout : calls S mid todo = out) :
    Task.Advances S grow m out ⟨s, answers, .find type k, todo⟩ := by
  obtain ⟨hbefore, hopts, hans⟩ := hmid
  have hnone : (l.take k).find? (fun opt => opt.type = type) = none :=
    List.find?_eq_none.mpr (fun x hx => by simpa using hbefore x hx)
  by_cases hk : k < s.len
  · obtain ⟨opt, hget, hat⟩ := Holds.get_of_lt hl hk
    have htake : l.take (k + 1) = l.take k ++ [opt] := by
      rw [List.take_add_one, hat]
      rfl
    by_cases ht : opt.type = type
    · have hsplit : l.take k ++ opt :: l.drop (k + 1) = l := by
        rw [← List.singleton_append, ← List.append_assoc, ← htake, List.take_append_drop]
      have hfind : (l.take k ++ opt :: l.drop (k + 1)).find? (fun opt => opt.type = type)
          = some opt := by
        rw [List.find?_append, hnone, Option.none_or, List.find?_cons_of_pos (by simpa using ht)]
      rw [hsplit] at hfind
      rw [hfind] at hans
      refine ⟨m, ⟨s, answers ++ [opt], .ready, todo⟩, ?_, ⟨l, mid, hl, ⟨hopts, hans⟩, hout⟩,
        .refl m s, ?_⟩
      · simp only [Task.step, if_pos hk, hget, Option.bind_eq_bind, Option.bind_some, if_pos ht]
      · show cost s.len todo < s.len - k + 1 + cost s.len todo
        omega
    · refine ⟨m, ⟨s, answers, .find type (k + 1), todo⟩, ?_,
        ⟨l, mid, hl, ⟨?_, hopts, hans⟩, hout⟩, .refl m s, ?_⟩
      · simp only [Task.step, if_pos hk, hget, Option.bind_eq_bind, Option.bind_some, if_neg ht]
      · intro x hx
        rw [htake, List.mem_append, List.mem_singleton] at hx
        rcases hx with hx | rfl
        · exact hbefore x hx
        · exact ht
      · show s.len - (k + 1) + 1 + cost s.len todo < s.len - k + 1 + cost s.len todo
        omega
  · rw [List.take_of_length_le (by rw [hl.length]; exact not_lt.mp hk)] at hnone
    rw [hnone] at hans
    refine ⟨m, ⟨s, answers ++ [({} : DHCPOption)], .ready, todo⟩, ?_,
      ⟨l, mid, hl, ⟨hopts, hans⟩, hout⟩, .refl m s, ?_⟩
    · simp only [Task.step, if_neg hk]
    · show cost s.len todo < s.len - k + 1 + cost s.len todo
      omega

theorem advances_append {newOption : DHCPOption} (hl : Holds m s l)
    (hmid : (Pc.append newOption).Ends S l answers mid) (hout : calls S mid todo = out) :
    Task.Advances S grow m out ⟨s, answers, .append newOption, todo⟩ := by
  obtain ⟨hholds, hconf⟩ :=
    hl.append (List.replicate (grow s.len) {}) newOption
  refine ⟨_, _, rfl, ⟨_, mid, hholds, hmid, hout⟩, hconf, ?_⟩
  have hlen := hholds.length
  rw [List.length_append, List.length_singleton, hl.length] at hlen
  show 1 + cost (m.append s _ newOption).2.len todo < 2 + cost (s.len + 1) todo
  rw [← hlen]
  omega

theorem advances_sort (hl : Holds m s l) (hmid : Pc.sort.Ends S l answers mid)
    (hout : calls S mid todo = out) :
    Task.Advances S grow m out ⟨s, answers, .sort, todo⟩ := by
  obtain ⟨hholds, hconf⟩ := hl.sortFunc (S.perm l).length_eq
  refine ⟨_, _, rfl, ⟨_, mid, hholds, hmid, hout⟩, hconf, ?_⟩
  show cost s.len todo < 1 + cost s.len todo
  omega

/-- **Every step of a task that is not done goes well.** -/
theorem Task.Leads.advances {t : Task} (h : t.Leads S m out) (grow : ℕ → ℕ)
    (hdone : ¬ t.Done) :
    t.Advances S grow m out := by
  obtain ⟨l, mid, hl, hmid, hout⟩ := h
  obtain ⟨s, answers, pc, todo⟩ := t
  cases pc with
  | ready =>
    cases todo with
    | nil => exact absurd ⟨rfl, rfl⟩ hdone
    | cons call todo => exact advances_ready call hl hmid hout
  | count k c => exact advances_count hl hmid hout
  | filter c k i => exact advances_filter hl hmid hout
  | find type k => exact advances_find hl hmid hout
  | append newOption => exact advances_append hl hmid hout
  | sort => exact advances_sort hl hmid hout

/-- What a task that is done has come to. -/
theorem Task.Leads.of_done {t : Task} (h : t.Leads S m out) (hdone : t.Done) :
    m.view t.options = out.layer.options ∧ t.answers = out.answers := by
  obtain ⟨l, mid, hl, hmid, rfl⟩ := h
  rw [hdone.1] at hmid
  rw [hdone.2]
  exact ⟨hl.view.trans hmid.1.symm, hmid.2.symm⟩

end Steps

/-! ## Any number of messages -/

/-- The memory, and the goroutines of the messages received so far. -/
structure State where
  memory : Memory DHCPOption := {}
  received : ℕ := 0
  task : ℕ → Task := fun _ => {}

/-- The state with another memory and another task `i`, and `n` messages. -/
def State.set (st : State) (m : Memory DHCPOption) (n i : ℕ) (t : Task) : State :=
  ⟨m, n, Function.update st.task i t⟩

@[simp] theorem State.set_task_self (st : State) (m : Memory DHCPOption) (n i : ℕ) (t : Task) :
    (st.set m n i t).task i = t :=
  Function.update_self ..

@[simp] theorem State.set_task_of_ne (st : State) (m : Memory DHCPOption) (n : ℕ) {i j : ℕ}
    (h : j ≠ i) (t : Task) : (st.set m n i t).task j = st.task j :=
  Function.update_of_ne h ..

/-- What can happen. -/
inductive Event where
  /-- A message is received. Its options are decoded into a new array, with some
  room at its end, and the calls are made on them. -/
  | receive (layer : DHCPv4) (spare : ℕ) (todo : List Call)
  /-- The goroutine of message `i` takes a step. -/
  | step (i : ℕ)
  deriving DecidableEq

/-- **What an event does**, `none` when a goroutine panics. -/
def next (S : OptionSort) (grow : ℕ → ℕ) (st : State) : Event → Option State
  | .receive layer spare todo =>
    let r := st.memory.alloc layer.options (List.replicate spare {})
    some (st.set r.1 (st.received + 1) st.received { options := r.2, todo := todo })
  | .step i =>
    if i < st.received then do
      let r ← (st.task i).step S grow st.memory
      some (st.set r.1 st.received i r.2)
    else some st

/-- One event after the other. -/
def run (S : OptionSort) (grow : ℕ → ℕ) (st : State) (events : List Event) : Option State :=
  events.foldlM (next S grow) st

/-- The number of messages received. -/
def arrivals (events : List Event) : ℕ := events.countP (fun e => e matches .receive ..)

/-- **The invariant**: the slices are on arrays of their own, and every task is
on its way. -/
structure Sound (S : OptionSort) (st : State) : Prop where
  apart : Apart st.memory st.received (fun i => (st.task i).options)
  leads : ∀ i < st.received, ∃ out, (st.task i).Leads S st.memory out

/-- **What is claimed of the events from `st` to `st'`**: a task is on its way to
where it was, and nearer to it by the steps that it took. -/
structure Follows (S : OptionSort) (st : State) (events : List Event) (st' : State) : Prop where
  sound : Sound S st'
  received : st'.received = st.received + arrivals events
  leads : ∀ i < st.received, ∀ out, (st.task i).Leads S st.memory out →
    (st'.task i).Leads S st'.memory out
  left : ∀ i < st.received,
    (st'.task i).left ≤ (st.task i).left - events.count (.step i)

section Run

variable {S : OptionSort} {grow : ℕ → ℕ} {st st' : State} {m' : Memory DHCPOption}

/-- What others do does not change where a task leads. -/
theorem Task.Leads.confined {m : Memory DHCPOption} {s s' : Slice} {out : Outcome} {t : Task}
    (h : t.Leads S m out) (hc : Confined m m' s s') (hne : t.options.array ≠ s.array) :
    t.Leads S m' out := by
  obtain ⟨l, mid, hl, hmid, hout⟩ := h
  exact ⟨l, mid, hl.confined hc hne, hmid, hout⟩

theorem Task.Leads.allocated {m : Memory DHCPOption} {out : Outcome} {t : Task}
    (h : t.Leads S m out) : t.options.array < m.next := by
  obtain ⟨_, _, hl, _, _⟩ := h
  exact hl.allocated

/-- The invariant after a step of task `i`, or after it has come in. -/
theorem Sound.set {n i : ℕ} {t : Task} (h : Sound S st)
    (hapart : Apart m' n (Function.update (fun j => (st.task j).options) i t.options))
    (hn : ∀ j < n, j ≠ i → j < st.received)
    (hothers : ∀ j < st.received, j ≠ i → ∀ out, (st.task j).Leads S st.memory out →
      (st.task j).Leads S m' out)
    (hown : ∃ out, t.Leads S m' out) : Sound S (st.set m' n i t) where
  apart := by
    have hopts : (fun j => ((st.set m' n i t).task j).options)
        = Function.update (fun j => (st.task j).options) i t.options :=
      Function.comp_update Task.options st.task i t
    rw [hopts]
    exact hapart
  leads := by
    intro j hj
    by_cases hji : j = i
    · rw [hji, State.set_task_self]
      exact hown
    · rw [State.set_task_of_ne st m' n hji]
      obtain ⟨out, hout⟩ := h.leads j (hn j hj hji)
      exact ⟨out, hothers j (hn j hj hji) hji out hout⟩

theorem Follows.refl (h : Sound S st) : Follows S st [] st :=
  ⟨h, rfl, fun _ _ _ h => h, fun _ _ => le_rfl⟩

theorem Follows.trans {st'' : State} {events events' : List Event}
    (h : Follows S st events st') (h' : Follows S st' events' st'') :
    Follows S st (events ++ events') st'' where
  sound := h'.sound
  received := by
    rw [h'.received, h.received, Nat.add_assoc]
    exact congrArg (st.received + ·) List.countP_append.symm
  leads := by
    intro i hi out hout
    have hi' : i < st'.received := by
      rw [h.received]
      exact Nat.lt_add_right _ hi
    exact h'.leads i hi' out (h.leads i hi out hout)
  left := by
    intro i hi
    have hi' : i < st'.received := by
      rw [h.received]
      exact Nat.lt_add_right _ hi
    have hleft := h.left i hi
    have hleft' := h'.left i hi'
    rw [List.count_append]
    omega

/-- A message is received. -/
theorem follows_receive (h : Sound S st) (grow : ℕ → ℕ) (layer : DHCPv4) (spare : ℕ)
    (todo : List Call) :
    ∃ st', next S grow st (.receive layer spare todo) = some st' ∧
      Follows S st [.receive layer spare todo] st' ∧
      (st'.task st.received).Leads S st'.memory (calls S ⟨layer, []⟩ todo) ∧
      (st'.task st.received).left = cost layer.options.length todo := by
  have hnew : Task.Leads S (st.memory.alloc layer.options (List.replicate spare {})).1
      (calls S ⟨layer, []⟩ todo)
      { options := (st.memory.alloc layer.options (List.replicate spare {})).2, todo := todo } :=
    ⟨layer.options, ⟨layer, []⟩, holds_alloc .., ⟨rfl, rfl⟩, rfl⟩
  have hothers : ∀ i < st.received, ∀ out, (st.task i).Leads S st.memory out →
      (st.task i).Leads S (st.memory.alloc layer.options (List.replicate spare {})).1 out := by
    intro i hi out hout
    exact hout.confined (confined_alloc _ { array := st.memory.next } _ _)
      (ne_of_lt hout.allocated)
  refine ⟨_, rfl, ⟨?_, rfl, ?_, ?_⟩, ?_, ?_⟩
  · refine h.set (h.apart.alloc _ _) ?_ (fun j hj _ => hothers j hj) ⟨_, hnew⟩
    intro j hj hne
    omega
  · intro i hi out hout
    rw [State.set_task_of_ne _ _ _ (ne_of_lt hi)]
    exact hothers i hi out hout
  · intro i hi
    rw [State.set_task_of_ne _ _ _ (ne_of_lt hi)]
    exact le_rfl
  · rw [State.set_task_self]
    exact hnew
  · rw [State.set_task_self]
    rfl

theorem count_step_of_ne {i j : ℕ} (h : j ≠ i) : [Event.step i].count (.step j) = 0 := by
  refine List.count_eq_zero_of_not_mem (fun hmem => h ?_)
  exact Event.step.inj (List.mem_singleton.mp hmem)

/-- Nothing happens. -/
theorem Follows.stay {i : ℕ} (h : Sound S st)
    (hi : i < st.received → (st.task i).left = 0) : Follows S st [.step i] st where
  sound := h
  received := rfl
  leads := fun _ _ _ hout => hout
  left := by
    intro j hj
    by_cases hji : j = i
    · subst hji
      rw [hi hj]
      exact Nat.zero_le _
    · rw [count_step_of_ne hji]
      exact le_rfl

/-- A goroutine that is not done takes a step. -/
theorem follows_step_of_not_done {i : ℕ} (h : Sound S st) (hi : i < st.received)
    (hdone : ¬ (st.task i).Done) :
    ∃ st', next S grow st (.step i) = some st' ∧ Follows S st [.step i] st' := by
  obtain ⟨out, hout⟩ := h.leads i hi
  obtain ⟨m', t', hstep, hlead, hconf, hleft⟩ := hout.advances grow hdone
  have hothers : ∀ j < st.received, j ≠ i → ∀ out, (st.task j).Leads S st.memory out →
      (st.task j).Leads S m' out :=
    fun j hj hji _ hj' => hj'.confined hconf (h.apart.ne j hj i hi hji)
  refine ⟨st.set m' st.received i t', ?_, ?_, rfl, ?_, ?_⟩
  · simp only [next, if_pos hi, hstep, Option.bind_eq_bind, Option.bind_some]
  · exact h.set (h.apart.update hi hconf hlead.allocated) (fun j hj _ => hj) hothers ⟨out, hlead⟩
  · intro j hj out' hout'
    by_cases hji : j = i
    · -- the step does not depend on where one says that it leads
      subst hji
      obtain ⟨m'', t'', hstep', hlead', -, -⟩ := hout'.advances grow hdone
      rw [hstep, Option.some.injEq, Prod.mk.injEq] at hstep'
      obtain ⟨rfl, rfl⟩ := hstep'
      rw [State.set_task_self]
      exact hlead'
    · rw [State.set_task_of_ne _ _ _ hji]
      exact hothers j hj hji out' hout'
  · intro j hj
    by_cases hji : j = i
    · subst hji
      rw [State.set_task_self, List.count_singleton_self]
      exact Nat.le_sub_one_of_lt hleft
    · rw [State.set_task_of_ne _ _ _ hji, count_step_of_ne hji]
      exact le_rfl

/-- A goroutine takes a step. -/
theorem follows_step (h : Sound S st) (i : ℕ) :
    ∃ st', next S grow st (.step i) = some st' ∧ Follows S st [.step i] st' := by
  by_cases hi : i < st.received
  · by_cases hdone : (st.task i).Done
    · have hstep : (st.task i).step S grow st.memory = some (st.memory, st.task i) := by
        simp only [Task.step, hdone.1, hdone.2]
      have hset : st.set st.memory st.received i (st.task i) = st := by
        rw [State.set, Function.update_eq_self]
      refine ⟨st, ?_, .stay h (fun _ => ?_)⟩
      · simp only [next, if_pos hi, hstep, Option.bind_eq_bind, Option.bind_some, hset]
      · simp only [Task.left, hdone.1, hdone.2, cost]
    · exact follows_step_of_not_done h hi hdone
  · exact ⟨st, if_neg hi, .stay h (fun hi' => absurd hi' hi)⟩

/-- **No run panics**, and each task goes its way. -/
theorem follows_run (h : Sound S st) (grow : ℕ → ℕ) (events : List Event) :
    ∃ st', run S grow st events = some st' ∧ Follows S st events st' := by
  induction events generalizing st with
  | nil => exact ⟨st, rfl, .refl h⟩
  | cons e events ih =>
    have hfirst : ∃ st', next S grow st e = some st' ∧ Follows S st [e] st' := by
      cases e with
      | receive layer spare todo =>
        obtain ⟨st', hnext, hfollows, -, -⟩ := follows_receive h grow layer spare todo
        exact ⟨st', hnext, hfollows⟩
      | step i => exact follows_step h i
    obtain ⟨st', hnext, hfollows⟩ := hfirst
    obtain ⟨st'', hrun, hfollows'⟩ := ih hfollows.sound
    refine ⟨st'', ?_, hfollows.trans hfollows'⟩
    rw [run, List.foldlM_cons, hnext]
    exact hrun

end Run

/-- At the start nothing is received. -/
theorem sound_start (S : OptionSort) : Sound S {} :=
  ⟨⟨fun _ hi => absurd hi (Nat.not_lt_zero _), fun _ hi => absurd hi (Nat.not_lt_zero _)⟩,
    fun _ hi => absurd hi (Nat.not_lt_zero _)⟩

/-- **Messages do not get into each other's way.** Whatever is received, before and
after, and whatever the order in which the goroutines take their steps, none of
them panics; and a goroutine that has had its steps has left the options, and has got
the answers, that the functions on lists give for its message alone. -/
theorem messages_isolated (S : OptionSort) (grow : ℕ → ℕ) (before after : List Event)
    (layer : DHCPv4) (spare : ℕ) (todo : List Call) :
    ∃ st, run S grow {} (before ++ .receive layer spare todo :: after) = some st ∧
      (cost layer.options.length todo ≤ after.count (.step (arrivals before)) →
        (st.task (arrivals before)).Done ∧
        st.memory.view (st.task (arrivals before)).options
          = (calls S ⟨layer, []⟩ todo).layer.options ∧
        (st.task (arrivals before)).answers = (calls S ⟨layer, []⟩ todo).answers) := by
  obtain ⟨st₀, hrun₀, hst₀⟩ := follows_run (sound_start S) grow before
  have hn : st₀.received = arrivals before := hst₀.received.trans (Nat.zero_add _)
  obtain ⟨st₁, hnext, hst₁, hlead, hcost⟩ := follows_receive hst₀.sound grow layer spare
    todo
  obtain ⟨st, hrun, hst⟩ := follows_run hst₁.sound grow after
  have hlt : st₀.received < st₁.received := by
    rw [hst₁.received]
    exact Nat.lt_succ_self _
  refine ⟨st, ?_, fun henough => ?_⟩
  · rw [run] at hrun₀ hrun ⊢
    rw [List.foldlM_append, hrun₀, Option.bind_eq_bind, Option.bind_some, List.foldlM_cons, hnext]
    exact hrun
  · rw [← hn] at henough ⊢
    have hleft := hst.left _ hlt
    have hdone : (st.task st₀.received).Done := Task.done_of_left (by omega)
    exact ⟨hdone, (hst.leads _ hlt _ hlead).of_done hdone⟩

end OptionSlices
