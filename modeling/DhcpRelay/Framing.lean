import DhcpRelay.Loops

/-!
# Lists of self-delimiting records

A record format writes a value as a non-empty string of symbols and reads one
value off the front of a longer string. Two laws tie the two together: what
was written is read back, whatever follows it, and whatever is read was
written. They are all that is needed for *lists* of records, written one
after the other with nothing between them and read until the string is
empty: reading is the inverse of writing on the strings that are
concatenations of records, and fails on all the others
(`RecordFormat.readAll_eq_some_iff`). In particular no string is read partly:
either every symbol belongs to a record that is returned, or none is.

The reader is the loop one writes in practice, with the records read so far
as an accumulator, and it ends on every string, since a record is at least
one symbol long.
-/

variable {α β : Type}

/-- **A self-delimiting record format** over the symbols `β`. -/
structure RecordFormat (α β : Type) where
  /-- The symbols of a record. -/
  write : α → List β
  /-- The record at the front of a string, and what follows it. -/
  read : List β → Option (α × List β)
  write_ne_nil : ∀ a, write a ≠ []
  read_write : ∀ a rest, read (write a ++ rest) = some (a, rest)
  write_of_read : ∀ d a rest, read d = some (a, rest) → write a ++ rest = d

namespace RecordFormat

variable (F : RecordFormat α β)

/-- The records of a list, one after the other. -/
def writeAll (l : List α) : List β := l.flatMap F.write

@[simp] theorem writeAll_nil : F.writeAll [] = [] := rfl

@[simp] theorem writeAll_cons (a : α) (l : List α) :
    F.writeAll (a :: l) = F.write a ++ F.writeAll l := List.flatMap_cons

theorem writeAll_eq_nil_iff (l : List α) : F.writeAll l = [] ↔ l = [] := by
  cases l with
  | nil => simp
  | cons a l => simp [F.write_ne_nil]

/-- One round of the reader, in the state (string left, records read). -/
def readStep : List β × List α → (List β × List α) ⊕ Option (List α)
  | (d, acc) =>
    if d = [] then .inr (some acc)
    else
      match F.read d with
      | none => .inr none
      | some (a, rest) => .inl (rest, acc ++ [a])

/-- **Read records until the string is empty**, or fail. -/
def readAll (d : List β) : Option (List α) :=
  (whileLoop F.readStep (d.length + 1) (d, [])).getD none

/-- Reading a record shortens the string. -/
theorem length_lt_of_read {d rest : List β} {a : α}
    (h : F.read d = some (a, rest)) : rest.length < d.length := by
  have hne := List.length_pos_of_ne_nil (F.write_ne_nil a)
  rw [← F.write_of_read d a rest h, List.length_append]
  omega

theorem readStep_measure (s s' : List β × List α)
    (h : F.readStep s = .inl s') : s'.1.length < s.1.length := by
  obtain ⟨d, acc⟩ := s
  simp only [readStep] at h
  split at h
  · cases h
  · cases hr : F.read d with
    | none => rw [hr] at h; cases h
    | some p =>
      rw [hr] at h
      cases h
      exact F.length_lt_of_read hr

/-- **The reader ends on every string**: it does at most one round per
symbol, and one more to notice that the string is empty. -/
theorem readStep_ends (d : List β) (acc : List α) :
    (whileLoop F.readStep (d.length + 1) (d, acc)).isSome = true :=
  whileLoop_isSome_of_measure (fun s => s.1.length) F.readStep_measure _ _
    (Nat.lt_succ_self _)

/-- What the reader returns with `acc` already read: nothing when the string
is not a concatenation of records, and `acc` followed by the records
otherwise. -/
theorem whileLoop_readStep (n : ℕ) (d : List β) (acc : List α)
    (hn : d.length < n) :
    (∃ l, F.writeAll l = d
        ∧ whileLoop F.readStep n (d, acc) = some (some (acc ++ l)))
      ∨ ((∀ l, F.writeAll l ≠ d)
        ∧ whileLoop F.readStep n (d, acc) = some none) := by
  induction n generalizing d acc with
  | zero => exact absurd hn (Nat.not_lt_zero _)
  | succ n ih =>
    by_cases hd : d = []
    · subst hd
      refine .inl ⟨[], rfl, ?_⟩
      rw [whileLoop_succ_of_inr n (r := some acc) (by simp [readStep]),
        List.append_nil]
    · cases hr : F.read d with
      | none =>
        refine .inr ⟨?_, whileLoop_succ_of_inr n (by simp [readStep, hd, hr])⟩
        rintro (_ | ⟨a, l⟩) rfl
        · exact hd rfl
        · rw [writeAll_cons, F.read_write] at hr
          cases hr
      | some p =>
        obtain ⟨a, rest⟩ := p
        have hw := F.write_of_read d a rest hr
        have hstep : F.readStep (d, acc) = .inl (rest, acc ++ [a]) := by
          simp [readStep, hd, hr]
        rw [whileLoop_succ_of_inl n hstep]
        have hlen := F.length_lt_of_read hr
        rcases ih rest (acc ++ [a]) (by omega) with ⟨l, hl, hloop⟩ | ⟨hno, hloop⟩
        · refine .inl ⟨a :: l, by rw [writeAll_cons, hl, hw], ?_⟩
          rw [hloop, List.append_assoc]
          rfl
        · refine .inr ⟨?_, hloop⟩
          -- a reading of `d` starts with the record just read, so the rest
          -- of it would be a reading of `rest`
          rintro (_ | ⟨a', l⟩) hl
          · exact hd hl.symm
          · rw [writeAll_cons] at hl
            have hr' := F.read_write a' (F.writeAll l)
            rw [hl, hr, Option.some.injEq, Prod.mk.injEq] at hr'
            exact hno l hr'.2.symm

/-- **A string is a concatenation of records in at most one way.** -/
theorem writeAll_injective : Function.Injective F.writeAll := by
  intro l l' h
  induction l generalizing l' with
  | nil => exact ((F.writeAll_eq_nil_iff l').mp h.symm).symm
  | cons a l ih =>
    cases l' with
    | nil => exact (F.writeAll_eq_nil_iff (a :: l)).mp h
    | cons a' l' =>
      rw [writeAll_cons, writeAll_cons] at h
      have hr := F.read_write a (F.writeAll l)
      rw [h, F.read_write, Option.some.injEq, Prod.mk.injEq] at hr
      rw [hr.1, ih hr.2.symm]

/-- **Reading inverts writing**: the reader returns a list of records exactly
on the string that writes it. -/
theorem readAll_eq_some_iff (d : List β) (l : List α) :
    F.readAll d = some l ↔ F.writeAll l = d := by
  rcases F.whileLoop_readStep _ d [] (Nat.lt_succ_self _) with
    ⟨m, hm, hloop⟩ | ⟨hno, hloop⟩
  · rw [readAll, hloop, Option.getD_some, List.nil_append, Option.some.injEq]
    constructor
    · rintro rfl
      exact hm
    · intro hl
      exact F.writeAll_injective (hm.trans hl.symm)
  · rw [readAll, hloop, Option.getD_some]
    exact ⟨fun h => (Option.some_ne_none l h.symm).elim, fun h => absurd h (hno l)⟩

theorem readAll_writeAll (l : List α) : F.readAll (F.writeAll l) = some l :=
  (F.readAll_eq_some_iff _ l).mpr rfl

end RecordFormat
