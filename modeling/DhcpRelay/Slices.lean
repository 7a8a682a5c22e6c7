import DhcpRelay.Loops

/-!
# Slices of arrays in a shared memory

A slice is a window on a backing array: where it starts, how much of the array
it shows, and how much of it it may grow into. Several slices can be windows on
one array, and an operation through one of them is then seen through the others.
Reading, writing and cutting a slice are checked against its bounds, and a failed
check is `none`, the panic. Appending writes into the spare room behind the slice
if there is any, and otherwise moves everything to a new array.

Whoever works with a slice wants to see a list. `Holds` says that a slice shows a
list and lies within its array, and there is a rule for each operation: on a
slice that holds a list it does not panic, and the slice that it gives back holds
the list one expects. The other half is what the operation does *not* touch.
`Confined` says that the arrays of others are as they were, and that the slice is
on its old array still, or on one that nobody had. Slices that are on different
arrays (`Apart`) therefore stay so, and what one of them holds is not changed by
what is done through another (`Holds.confined`): the owners can be reasoned
about one at a time, whatever the order in which they take their steps.
-/

namespace Slices

variable {α : Type}

/-- A memory of arrays. Those from `next` on are not allocated. -/
structure Memory (α : Type) where
  array : ℕ → List α := fun _ => []
  next : ℕ := 0

/-- A window on a backing array. -/
structure Slice where
  array : ℕ := 0
  off : ℕ := 0
  len : ℕ := 0
  /-- How long the slice may become without leaving its array. -/
  cap : ℕ := 0
  deriving DecidableEq, Repr

namespace Memory

variable (m : Memory α) (s : Slice)

/-- Replace an array. -/
def put (a : ℕ) (l : List α) : Memory α :=
  { m with array := Function.update m.array a l }

/-- What is in the array from the start of the slice on. -/
def cells : List α := (m.array s.array).drop s.off

/-- What the slice shows. -/
def view : List α := (m.cells s).take s.len

/-- `s[i]`. -/
def get (i : ℕ) : Option α := if i < s.len then (m.cells s)[i]? else none

/-- The cell `i` of the slice, without a check. -/
def write (i : ℕ) (a : α) : Memory α :=
  m.put s.array ((m.array s.array).set (s.off + i) a)

/-- `s[i] = a`. -/
def set (i : ℕ) (a : α) : Option (Memory α) := if i < s.len then some (m.write s i a) else none

/-- Write a list over the array from the start of the slice on. -/
def splice (l : List α) : Memory α :=
  m.put s.array
    ((m.array s.array).take s.off ++ (l ++ (m.array s.array).drop (s.off + l.length)))

/-- A new array, and the slice that shows it up to the `spare` cells at its
end. -/
def alloc (l spare : List α) : Memory α × Slice :=
  ({ m.put m.next (l ++ spare) with next := m.next + 1 },
    { array := m.next, len := l.length, cap := l.length + spare.length })

/-- `append(s, a)`: into the room behind the slice, or, when there is none, into
a new array that has `spare` more cells at its end. -/
def append (spare : List α) (a : α) : Memory α × Slice :=
  if s.len < s.cap then (m.write s s.len a, { s with len := s.len + 1 })
  else m.alloc (m.view s ++ [a]) spare

/-- `slices.DeleteFunc`: what is kept moves to the front, and the cells that
become free are cleared. -/
def deleteFunc (zero : α) (del : α → Bool) : Memory α × Slice :=
  let kept := (m.view s).filter (fun a => !del a)
  (m.splice s (kept ++ List.replicate (s.len - kept.length) zero), { s with len := kept.length })

/-- `slices.SortFunc`, by the given way to sort. -/
def sortFunc (sort : List α → List α) : Memory α := m.splice s (sort (m.view s))

end Memory

/-- `s[:n]`, which may be longer than `s`. -/
def Slice.cut (s : Slice) (n : ℕ) : Option Slice :=
  if n ≤ s.cap then some { s with len := n } else none

/-! ## What a slice holds -/

/-- **The slice holds the list**: it lies within an array that is allocated, and
the list is what it shows. -/
structure Holds (m : Memory α) (s : Slice) (l : List α) : Prop where
  allocated : s.array < m.next
  room : s.off + s.cap ≤ (m.array s.array).length
  len_le : s.len ≤ s.cap
  view : m.view s = l

/-- **An operation on the slice `s` that gives back `s'`** has left the other
arrays as they were, and `s'` is on the array of `s` or on a new one. -/
structure Confined (m m' : Memory α) (s s' : Slice) : Prop where
  next_le : m.next ≤ m'.next
  same : ∀ b < m.next, b ≠ s.array → m'.array b = m.array b
  array : s'.array = s.array ∨ m.next ≤ s'.array

variable {m m' : Memory α} {s s' t : Slice} {l : List α}

theorem Confined.refl (m : Memory α) (s : Slice) : Confined m m s s :=
  ⟨le_rfl, fun _ _ _ => rfl, .inl rfl⟩

theorem Confined.trans {m'' : Memory α} {s'' : Slice} (h : Confined m m' s s')
    (h' : Confined m' m'' s' s'') : Confined m m'' s s'' where
  next_le := le_trans h.next_le h'.next_le
  same := by
    intro b hb hne
    have hne' : b ≠ s'.array := by
      rcases h.array with harr | hfresh
      · rwa [harr]
      · exact ne_of_lt (lt_of_lt_of_le hb hfresh)
    rw [h'.same b (lt_of_lt_of_le hb h.next_le) hne', h.same b hb hne]
  array := by
    rcases h'.array with harr | hfresh
    · rw [harr]
      exact h.array
    · exact .inr (le_trans h.next_le hfresh)

/-- What another slice holds is not touched. -/
theorem Holds.confined (h : Holds m t l) (hc : Confined m m' s s')
    (hne : t.array ≠ s.array) : Holds m' t l where
  allocated := lt_of_lt_of_le h.allocated hc.next_le
  room := by
    rw [hc.same _ h.allocated hne]
    exact h.room
  len_le := h.len_le
  view := by
    rw [← h.view]
    unfold Memory.view Memory.cells
    rw [hc.same _ h.allocated hne]

theorem Holds.le_length_cells (h : Holds m s l) : s.cap ≤ (m.cells s).length := by
  have hroom := h.room
  rw [Memory.cells, List.length_drop]
  omega

theorem Holds.length (h : Holds m s l) : l.length = s.len := by
  have hle := h.le_length_cells
  rw [← h.view, Memory.view, List.length_take]
  exact Nat.min_eq_left (le_trans h.len_le hle)

/-! ### Replacing the array of a slice -/

@[simp] theorem put_array_self (m : Memory α) (a : ℕ) (l : List α) : (m.put a l).array a = l :=
  Function.update_self ..

theorem confined_put (m : Memory α) (s : Slice) (l : List α) (n : ℕ) :
    Confined m (m.put s.array l) s { s with len := n } :=
  ⟨le_rfl, fun _ _ hb => Function.update_of_ne hb .., .inl rfl⟩

/-- **The rule for all that happens on the slice's own array**: an array of the
same length takes the place of the old one, and the slice shows `n` cells of
it. -/
theorem Holds.put {l' arr : List α} {n : ℕ} (h : Holds m s l)
    (hlen : arr.length = (m.array s.array).length) (hn : n ≤ s.cap)
    (hview : (arr.drop s.off).take n = l') :
    Holds (m.put s.array arr) { s with len := n } l' where
  allocated := h.allocated
  room := by
    rw [put_array_self, hlen]
    exact h.room
  len_le := hn
  view := by
    show (((m.put s.array arr).array s.array).drop s.off).take n = l'
    rw [put_array_self]
    exact hview

theorem Holds.write {l' : List α} {i n : ℕ} {a : α} (h : Holds m s l) (hn : n ≤ s.cap)
    (hview : ((m.cells s).set i a).take n = l') :
    Holds (m.write s i a) { s with len := n } l' := by
  refine h.put List.length_set hn ?_
  rw [List.drop_set, if_neg (by omega), Nat.add_sub_cancel_left]
  exact hview

theorem Holds.splice (h : Holds m s l) (l' : List α) {n : ℕ} (hl' : l'.length ≤ s.cap)
    (hn : n ≤ l'.length) : Holds (m.splice s l') { s with len := n } (l'.take n) := by
  have hroom := h.room
  have hfront : ((m.array s.array).take s.off).length = s.off := by
    rw [List.length_take]
    omega
  refine h.put ?_ (le_trans hn hl') ?_
  · simp only [List.length_append, List.length_take, List.length_drop]
    omega
  · rw [List.drop_left' hfront, List.take_append_of_le_length hn]

/-! ### One rule for each operation -/

theorem Holds.get (h : Holds m s l) (i : ℕ) : m.get s i = l[i]? := by
  unfold Memory.get
  rw [← h.view, Memory.view]
  split
  · next hi => rw [List.getElem?_take_of_lt hi]
  · next hi =>
    rw [List.getElem?_eq_none]
    rw [List.length_take]
    omega

/-- Writing within the bounds does not panic. -/
theorem Holds.set {i : ℕ} (h : Holds m s l) (hi : i < l.length) (a : α) :
    ∃ m', m.set s i a = some m' ∧ Holds m' s (l.set i a) ∧ Confined m m' s s := by
  rw [h.length] at hi
  refine ⟨m.write s i a, if_pos hi, ?_, confined_put m s _ s.len⟩
  refine h.write h.len_le ?_
  rw [List.take_set]
  exact congrArg (List.set · i a) h.view

/-- Cutting a slice shorter does not panic. -/
theorem Holds.cut {n : ℕ} (h : Holds m s l) (hn : n ≤ l.length) :
    ∃ s', s.cut n = some s' ∧ Holds m s' (l.take n) ∧ Confined m m s s' := by
  rw [h.length] at hn
  have hcap : n ≤ s.cap := le_trans hn h.len_le
  refine ⟨{ s with len := n }, if_pos hcap, ⟨h.allocated, h.room, hcap, ?_⟩,
    ⟨le_rfl, fun _ _ _ => rfl, .inl rfl⟩⟩
  show (m.cells s).take n = l.take n
  rw [← h.view, Memory.view, List.take_take, Nat.min_eq_left hn]

theorem holds_alloc (m : Memory α) (l spare : List α) :
    Holds (m.alloc l spare).1 (m.alloc l spare).2 l where
  allocated := Nat.lt_succ_self m.next
  room := by
    show 0 + (l.length + spare.length) ≤ ((m.put m.next (l ++ spare)).array m.next).length
    rw [put_array_self, List.length_append, Nat.zero_add]
  len_le := Nat.le_add_right ..
  view := by
    show (((m.put m.next (l ++ spare)).array m.next).drop 0).take l.length = l
    rw [put_array_self, List.drop_zero, List.take_left]

/-- An allocation leaves every array alone. -/
theorem confined_alloc (m : Memory α) (s : Slice) (l spare : List α) :
    Confined m (m.alloc l spare).1 s (m.alloc l spare).2 :=
  ⟨Nat.le_succ m.next, fun _ hb _ => Function.update_of_ne (ne_of_lt hb) .., .inr le_rfl⟩

/-- **Appending**, in the room behind the slice or in a new array. -/
theorem Holds.append (h : Holds m s l) (spare : List α) (a : α) :
    Holds (m.append s spare a).1 (m.append s spare a).2 (l ++ [a]) ∧
      Confined m (m.append s spare a).1 s (m.append s spare a).2 := by
  unfold Memory.append
  split
  · next hlt =>
    refine ⟨h.write hlt ?_, confined_put m s _ _⟩
    rw [take_succ_set a (lt_of_lt_of_le hlt h.le_length_cells)]
    exact congrArg (· ++ [a]) h.view
  · rw [h.view]
    exact ⟨holds_alloc m _ spare, confined_alloc m s _ spare⟩

theorem Holds.deleteFunc (h : Holds m s l) (zero : α) (del : α → Bool) :
    Holds (m.deleteFunc s zero del).1 (m.deleteFunc s zero del).2 (l.filter (fun a => !del a)) ∧
      Confined m (m.deleteFunc s zero del).1 s (m.deleteFunc s zero del).2 := by
  unfold Memory.deleteFunc
  rw [h.view]
  have hkept : (l.filter (fun a => !del a)).length ≤ s.len := by
    rw [← h.length]
    exact List.length_filter_le ..
  generalize l.filter (fun a => !del a) = kept at hkept ⊢
  have hcap : (kept ++ List.replicate (s.len - kept.length) zero).length ≤ s.cap := by
    have hle := h.len_le
    rw [List.length_append, List.length_replicate]
    omega
  have hsplice := h.splice _ hcap (List.sublist_append_left kept _).length_le
  rw [List.take_left] at hsplice
  exact ⟨hsplice, confined_put m s _ _⟩

theorem Holds.sortFunc (h : Holds m s l) {sort : List α → List α}
    (hsort : (sort l).length = l.length) :
    Holds (m.sortFunc s sort) s (sort l) ∧ Confined m (m.sortFunc s sort) s s := by
  unfold Memory.sortFunc
  rw [h.view]
  rw [h.length] at hsort
  have hcap : (sort l).length ≤ s.cap := by
    rw [hsort]
    exact h.len_le
  have hsplice := h.splice (sort l) hcap (le_of_eq hsort.symm)
  rw [List.take_of_length_le (le_of_eq hsort)] at hsplice
  exact ⟨hsplice, confined_put m s _ s.len⟩

/-! ## Slices of different owners -/

/-- **The first `n` slices are on arrays of their own.** -/
structure Apart (m : Memory α) (n : ℕ) (s : ℕ → Slice) : Prop where
  allocated : ∀ i < n, (s i).array < m.next
  ne : ∀ i < n, ∀ j < n, i ≠ j → (s i).array ≠ (s j).array

/-- The array of a slice after an operation is not the array of another. -/
theorem Apart.ne_array {n i j : ℕ} {s : ℕ → Slice} (h : Apart m n s)
    (hc : Confined m m' (s i) s') (hi : i < n) (hj : j < n) (hne : j ≠ i) :
    (s j).array ≠ s'.array := by
  rcases hc.array with harr | hfresh
  · rw [harr]
    exact h.ne j hj i hi hne
  · exact ne_of_lt (lt_of_lt_of_le (h.allocated j hj) hfresh)

/-- **Working through one of them keeps them apart.** -/
theorem Apart.update {n i : ℕ} {s : ℕ → Slice} (h : Apart m n s) (hi : i < n)
    (hc : Confined m m' (s i) s') (hs' : s'.array < m'.next) :
    Apart m' n (Function.update s i s') where
  allocated := by
    intro j hj
    by_cases hji : j = i
    · rw [hji, Function.update_self]
      exact hs'
    · rw [Function.update_of_ne hji]
      exact lt_of_lt_of_le (h.allocated j hj) hc.next_le
  ne := by
    intro j hj k hk hjk
    by_cases hji : j = i
    · have hki : k ≠ i := fun hki => hjk (hji.trans hki.symm)
      rw [hji, Function.update_self, Function.update_of_ne hki]
      exact (h.ne_array hc hi hk hki).symm
    · rw [Function.update_of_ne hji]
      by_cases hki : k = i
      · rw [hki, Function.update_self]
        exact h.ne_array hc hi hj hji
      · rw [Function.update_of_ne hki]
        exact h.ne j hj k hk hjk

/-- **A new owner gets an array of its own.** -/
theorem Apart.alloc {n : ℕ} {s : ℕ → Slice} (h : Apart m n s) (l spare : List α) :
    Apart (m.alloc l spare).1 (n + 1) (Function.update s n (m.alloc l spare).2) where
  allocated := by
    intro j hj
    by_cases hjn : j = n
    · rw [hjn, Function.update_self]
      exact Nat.lt_succ_self m.next
    · rw [Function.update_of_ne hjn]
      exact Nat.lt_succ_of_lt (h.allocated j (by omega))
  ne := by
    intro j hj k hk hjk
    have hfresh : ∀ i, i < n → (s i).array ≠ (m.alloc l spare).2.array :=
      fun i hi => ne_of_lt (h.allocated i hi)
    by_cases hjn : j = n
    · have hkn : k ≠ n := fun hkn => hjk (hjn.trans hkn.symm)
      rw [hjn, Function.update_self, Function.update_of_ne hkn]
      exact (hfresh k (by omega)).symm
    · rw [Function.update_of_ne hjn]
      by_cases hkn : k = n
      · rw [hkn, Function.update_self]
        exact hfresh j (by omega)
      · rw [Function.update_of_ne hkn]
        exact h.ne j (by omega) k (by omega) hjk

end Slices
