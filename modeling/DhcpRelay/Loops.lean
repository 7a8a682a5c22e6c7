import Mathlib

/-!
# Loops as step functions

An imperative loop is a step function: from a state it either goes on with
another state or stops with a result. `whileLoop` runs such a step for at
most a given number of rounds, so a loop that never stops is a loop that
runs out of rounds whatever their number, and *the loop ends* is a statement
one can make: some number of rounds is enough.

The second half is one loop in particular, the in-place filter with a read
and a write index. It reads and writes the same array, and what it leaves in
the written part is what a filter over the array as it was at the start
would leave (`take_scanInPlace`). The reason is the usual one – the write
index never overtakes the read index – and it is proved once here, for any
verdict on the elements.
-/

variable {σ τ ρ κ : Type}

/-- **Run a loop for at most `n` rounds**: `none` when it has not stopped by
then. -/
def whileLoop (step : σ → σ ⊕ ρ) : ℕ → σ → Option ρ
  | 0, _ => none
  | n + 1, s =>
    match step s with
    | .inl s' => whileLoop step n s'
    | .inr r => some r

theorem whileLoop_succ_of_inl {step : σ → σ ⊕ ρ} {s s' : σ} (n : ℕ)
    (h : step s = .inl s') : whileLoop step (n + 1) s = whileLoop step n s' := by
  rw [whileLoop, h]

theorem whileLoop_succ_of_inr {step : σ → σ ⊕ ρ} {s : σ} {r : ρ} (n : ℕ)
    (h : step s = .inr r) : whileLoop step (n + 1) s = some r := by
  rw [whileLoop, h]

/-- **A loop that makes something smaller ends**: one round more than the
measure of the start state is enough. -/
theorem whileLoop_isSome_of_measure {step : σ → σ ⊕ ρ} (μ : σ → ℕ)
    (hμ : ∀ s s', step s = .inl s' → μ s' < μ s) (n : ℕ) (s : σ)
    (hs : μ s < n) : (whileLoop step n s).isSome = true := by
  induction n generalizing s with
  | zero => exact absurd hs (Nat.not_lt_zero _)
  | succ n ih =>
    cases h : step s with
    | inl s' =>
      rw [whileLoop_succ_of_inl n h]
      exact ih s' (by have := hμ s s' h; omega)
    | inr r => rw [whileLoop_succ_of_inr n h]; rfl

/-- **Two loops in step give the same result.** If `f` carries the states of
one loop to the states of another so that the steps correspond, with the
results corresponding under `g`, the loops do the same rounds. -/
theorem whileLoop_map {step : σ → σ ⊕ ρ} {step' : τ → τ ⊕ κ} (f : σ → τ)
    (g : ρ → κ) (hf : ∀ s, step' (f s) = (step s).map f g) (n : ℕ) (s : σ) :
    whileLoop step' n (f s) = (whileLoop step n s).map g := by
  induction n generalizing s with
  | zero => rfl
  | succ n ih =>
    have h' := hf s
    cases h : step s with
    | inl s' =>
      rw [h] at h'
      rw [whileLoop_succ_of_inl n h, whileLoop_succ_of_inl n h']
      exact ih s'
    | inr r =>
      rw [h] at h'
      rw [whileLoop_succ_of_inr n h, whileLoop_succ_of_inr n h']
      rfl

/-- **The invariant rule**: what the start state satisfies, every round
preserves and every stop turns into a fact about the result, is a fact about
the result. -/
theorem whileLoop_induction {step : σ → σ ⊕ ρ} {I : σ → Prop} {Q : ρ → Prop}
    (hstep : ∀ s s', I s → step s = .inl s' → I s')
    (hstop : ∀ s r, I s → step s = .inr r → Q r) (n : ℕ) (s : σ) (r : ρ)
    (hs : I s) (h : whileLoop step n s = some r) : Q r := by
  induction n generalizing s with
  | zero => cases h
  | succ n ih =>
    cases hst : step s with
    | inl s' =>
      rw [whileLoop_succ_of_inl n hst] at h
      exact ih s' (hstep s s' hs hst) h
    | inr r' =>
      rw [whileLoop_succ_of_inr n hst, Option.some.injEq] at h
      exact hstop s r hs (by rw [hst, h])

/-! ## Filtering an array in place -/

/-- What a filter does with an element: keep it, skip it, or keep it and
look no further. -/
inductive Verdict where
  | keep
  | skip
  | last
  deriving DecidableEq, Repr

variable {α : Type}

/-- **The pure filter**: the elements kept, up to and including the first one
that ends the scan. -/
def select (verdict : α → Verdict) : List α → List α
  | [] => []
  | a :: l =>
    match verdict a with
    | .keep => a :: select verdict l
    | .skip => select verdict l
    | .last => [a]

/-- The pure filter, read as one: what is kept before the element that ends
the scan, and that element. -/
theorem select_eq_filter (verdict : α → Verdict) (l : List α) :
    select verdict l
      = (l.takeWhile (fun a => verdict a ≠ .last)).filter
          (fun a => verdict a = .keep)
        ++ (l.find? (fun a => verdict a = .last)).toList := by
  induction l with
  | nil => rfl
  | cons a l ih =>
    cases hv : verdict a <;> simp [select, hv, ih]

/-- What comes up to and including the first element that satisfies `p`. -/
theorem take_findIdx_succ (p : α → Bool) (l : List α) :
    l.take (l.findIdx p + 1) = l.takeWhile (fun a => !p a) ++ (l.find? p).toList := by
  induction l with
  | nil => rfl
  | cons a l ih =>
    cases ha : p a with
    | true => simp [List.findIdx_cons, ha]
    | false => simp [List.findIdx_cons, ha, ih]

/-- One round of the in-place filter, in the state (array, read index, write
index): the element under the read index is looked at *in the array as it is
now*, and written back at the write index when it is kept. -/
def scanStep (verdict : α → Verdict) :
    List α × ℕ × ℕ → (List α × ℕ × ℕ) ⊕ (List α × ℕ)
  | (arr, k, i) =>
    match arr[k]? with
    | none => .inr (arr, i)
    | some a =>
      match verdict a with
      | .last => .inr (arr.set i a, i + 1)
      | .skip => .inl (arr, k + 1, i)
      | .keep => .inl (arr.set i a, k + 1, i + 1)

/-- **The in-place filter**: scan the array from both indices at zero, and
return the array it leaves together with the length of the written part. -/
def scanInPlace (verdict : α → Verdict) (arr : List α) : List α × ℕ :=
  (whileLoop (scanStep verdict) (arr.length + 1) (arr, 0, 0)).getD (arr, 0)

/-- **The loop invariant of the in-place filter**: the write index is behind
the read index, what is not read yet is as it was at the start, and the
written part followed by the filter of the unread part is the filter of the
whole. -/
structure ScanInv (verdict : α → Verdict) (l : List α)
    (s : List α × ℕ × ℕ) : Prop where
  le : s.2.2 ≤ s.2.1
  unread : s.1.drop s.2.1 = l.drop s.2.1
  length : s.1.length = l.length
  written : s.1.take s.2.2 ++ select verdict (l.drop s.2.1) = select verdict l

theorem ScanInv.start (verdict : α → Verdict) (l : List α) :
    ScanInv verdict l (l, 0, 0) :=
  ⟨le_rfl, rfl, rfl, rfl⟩

/-- An element written at the write index extends the written part by
itself. -/
theorem take_succ_set {l : List α} {i : ℕ} (a : α) (h : i < l.length) :
    (l.set i a).take (i + 1) = l.take i ++ [a] := by
  rw [List.take_set, List.set_eq_take_append_cons_drop,
    if_pos (by rw [List.length_take]; omega), List.take_take,
    Nat.min_eq_left (Nat.le_succ i), List.drop_eq_nil_of_le]
  rw [List.length_take]
  omega

/-- A write behind the read index leaves the unread part alone. -/
theorem drop_set_of_lt {l : List α} {i k : ℕ} (a : α) (h : i < k) :
    (l.set i a).drop k = l.drop k := by
  rw [List.drop_set, if_pos h]

section ScanStep

variable {verdict : α → Verdict} {l arr : List α} {k i : ℕ} {a : α}

/-- The element under the read index is the next element of the array as it
was at the start. -/
theorem ScanInv.drop_eq_cons (h : ScanInv verdict l (arr, k, i))
    (ha : arr[k]? = some a) : l.drop k = a :: l.drop (k + 1) := by
  obtain ⟨hk, hak⟩ := List.getElem?_eq_some_iff.mp ha
  rw [← h.unread, List.drop_eq_getElem_cons hk]
  refine congrArg₂ List.cons hak ?_
  have hd := congrArg (List.drop 1) h.unread
  rwa [List.drop_drop, List.drop_drop] at hd

theorem ScanInv.skip (h : ScanInv verdict l (arr, k, i))
    (ha : arr[k]? = some a) (hv : verdict a = .skip) :
    ScanInv verdict l (arr, k + 1, i) where
  le := Nat.le_succ_of_le h.le
  unread := by
    have hd := congrArg (List.drop 1) h.unread
    rwa [List.drop_drop, List.drop_drop] at hd
  length := h.length
  written := by
    have hw := h.written
    simp only [h.drop_eq_cons ha, select, hv] at hw
    exact hw

theorem ScanInv.keep (h : ScanInv verdict l (arr, k, i))
    (ha : arr[k]? = some a) (hv : verdict a = .keep) :
    ScanInv verdict l (arr.set i a, k + 1, i + 1) where
  le := Nat.succ_le_succ h.le
  unread := by
    have hd := congrArg (List.drop 1) h.unread
    rw [List.drop_drop, List.drop_drop] at hd
    rw [drop_set_of_lt a (Nat.lt_succ_of_le h.le)]
    exact hd
  length := (List.length_set).trans h.length
  written := by
    obtain ⟨hk, -⟩ := List.getElem?_eq_some_iff.mp ha
    have hw := h.written
    simp only [h.drop_eq_cons ha, select, hv] at hw
    rw [take_succ_set a (lt_of_le_of_lt h.le hk), List.append_assoc]
    exact hw

theorem ScanInv.last (h : ScanInv verdict l (arr, k, i))
    (ha : arr[k]? = some a) (hv : verdict a = .last) :
    (arr.set i a).take (i + 1) = select verdict l := by
  obtain ⟨hk, -⟩ := List.getElem?_eq_some_iff.mp ha
  have hw := h.written
  simp only [h.drop_eq_cons ha, select, hv] at hw
  rw [take_succ_set a (lt_of_le_of_lt h.le hk)]
  exact hw

theorem ScanInv.stop (h : ScanInv verdict l (arr, k, i))
    (ha : arr[k]? = none) : arr.take i = select verdict l := by
  have hlen : l.length ≤ k := by
    rw [← h.length]
    exact List.getElem?_eq_none_iff.mp ha
  have hw := h.written
  simp only [List.drop_eq_nil_of_le hlen, select, List.append_nil] at hw
  exact hw

end ScanStep

/-- Every round of the in-place filter moves the read index forward, so the
filter ends. -/
theorem scanStep_measure (verdict : α → Verdict) (s s' : List α × ℕ × ℕ)
    (h : scanStep verdict s = .inl s') :
    s'.1.length - s'.2.1 < s.1.length - s.2.1 := by
  obtain ⟨arr, k, i⟩ := s
  simp only [scanStep] at h
  cases ha : arr[k]? with
  | none => rw [ha] at h; cases h
  | some a =>
    obtain ⟨hk, -⟩ := List.getElem?_eq_some_iff.mp ha
    rw [ha] at h
    cases hv : verdict a <;> simp only [hv] at h <;> cases h <;>
      simp only [List.length_set] <;> omega

/-- **Filtering in place is filtering.** The written part of the array is the
pure filter of the array as it was at the start, although every round after
the first reads an array that the filter has already written to. -/
theorem take_scanInPlace (verdict : α → Verdict) (l : List α) :
    (scanInPlace verdict l).1.take (scanInPlace verdict l).2
      = select verdict l := by
  have hend : (whileLoop (scanStep verdict) (l.length + 1) (l, 0, 0)).isSome = true :=
    whileLoop_isSome_of_measure (fun s => s.1.length - s.2.1)
      (scanStep_measure verdict) (l.length + 1) (l, 0, 0) (Nat.lt_succ_self _)
  obtain ⟨r, hr⟩ := Option.isSome_iff_exists.mp hend
  have hres : r.1.take r.2 = select verdict l := by
    refine whileLoop_induction (I := ScanInv verdict l)
      (Q := fun r => r.1.take r.2 = select verdict l) ?_ ?_ _ _ _
      (ScanInv.start verdict l) hr
    · rintro ⟨arr, k, i⟩ s' hI hs
      simp only [scanStep] at hs
      cases ha : arr[k]? with
      | none => rw [ha] at hs; cases hs
      | some a =>
        rw [ha] at hs
        cases hv : verdict a <;> simp only [hv] at hs <;> cases hs
        · exact hI.keep ha hv
        · exact hI.skip ha hv
    · rintro ⟨arr, k, i⟩ r' hI hs
      simp only [scanStep] at hs
      cases ha : arr[k]? with
      | none => rw [ha] at hs; cases hs; exact hI.stop ha
      | some a =>
        rw [ha] at hs
        cases hv : verdict a <;> simp only [hv] at hs <;> cases hs
        exact hI.last ha hv
  rw [scanInPlace, hr]
  exact hres
