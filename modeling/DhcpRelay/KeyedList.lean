import Mathlib

/-!
# Lists read by key

A list whose elements carry a key is read by looking a key up, and the first
element that carries it answers. When no key occurs twice, first, last and
concatenation of the occurrences are one and the same
(`filter_key_eq_toList_find?`). One way of getting there is to drop every
element whose key is not unique (`nodup_keys_filter_once`). Where later elements
overwrite earlier ones it is the last element that answers (`lastBy`), and only
the order within a key matters (`lastBy_congr`). Where it is the first one with some
property that answers (`First`), nothing after it matters (`first_append`).

Sorting by the key comes with order but without stability, as library sorts
do: `SortBy` is any function that returns a sorted rearrangement. With unique
keys there is only one of them (`SortBy.sort_eq_of_perm`).
-/

variable {α κ : Type}

/-- With unique keys, the occurrences of a key are the one found, or none. -/
theorem filter_key_eq_toList_find? [DecidableEq κ] {key : α → κ} {l : List α}
    (hnd : (l.map key).Nodup) (k : κ) :
    l.filter (fun x => key x = k) = (l.find? (fun x => key x = k)).toList := by
  induction l with
  | nil => rfl
  | cons b l ih =>
    rw [List.map_cons, List.nodup_cons] at hnd
    by_cases hb : key b = k
    · have hl : l.filter (fun x => key x = k) = [] := by
        refine List.filter_eq_nil_iff.mpr (fun a ha hk => hnd.1 ?_)
        exact List.mem_map.mpr ⟨a, ha, (of_decide_eq_true hk).trans hb.symm⟩
      rw [List.filter_cons_of_pos (by simpa using hb), hl,
        List.find?_cons_of_pos (by simpa using hb)]
      rfl
    · rw [List.filter_cons_of_neg (by simpa using hb), ih hnd.2,
        List.find?_cons_of_neg (by simpa using hb)]

/-- **Elements whose key is unique have unique keys**, whatever else is asked
of them. -/
theorem nodup_keys_filter_once [DecidableEq κ] (key : α → κ) (p : α → Bool)
    (l : List α)
    (hp : ∀ a, p a = true → l.countP (fun x => key x = key a) = 1) :
    ((l.filter p).map key).Nodup := by
  rw [List.nodup_iff_count_le_one]
  intro k
  rw [List.count_eq_countP, List.countP_map]
  by_cases h : ∃ a ∈ l.filter p, key a = k
  · obtain ⟨a, ha, rfl⟩ := h
    have hone := hp a (List.of_mem_filter ha)
    calc (l.filter p).countP ((fun x => x == key a) ∘ key)
        ≤ l.countP ((fun x => x == key a) ∘ key) :=
          List.Sublist.countP_le List.filter_sublist
      _ = l.countP (fun x => key x = key a) := by
          refine List.countP_congr (fun x _ => ?_)
          simp
      _ = 1 := hone
  · push Not at h
    rw [List.countP_eq_zero.mpr]
    · exact Nat.zero_le 1
    · intro a ha hk
      exact h a ha (by simpa using hk)

/-- With unique keys, the key of an element occurs once. -/
theorem countP_key_eq_one [DecidableEq κ] {key : α → κ} {l : List α}
    (hnd : (l.map key).Nodup) {a : α} (ha : a ∈ l) :
    l.countP (fun x => key x = key a) = 1 := by
  have hsome : (l.find? (fun x => key x = key a)).isSome = true :=
    List.find?_isSome.mpr ⟨a, ha, by simp⟩
  rw [List.countP_eq_length_filter, filter_key_eq_toList_find? hnd]
  obtain ⟨b, hb⟩ := Option.isSome_iff_exists.mp hsome
  rw [hb]
  rfl

/-- Of at most one element there is one arrangement. -/
theorem eq_of_perm_of_length_le_one {l l' : List α} (hp : l.Perm l')
    (h : l'.length ≤ 1) : l = l' := by
  rcases Nat.le_one_iff_eq_zero_or_eq_one.mp h with h0 | h1
  · rw [List.length_eq_zero_iff.mp h0] at hp ⊢
    exact hp.eq_nil
  · obtain ⟨a, rfl⟩ := List.length_eq_one_iff.mp h1
    exact List.perm_singleton.mp hp

/-! ## The last element with a key -/

section Last

variable [DecidableEq κ] {key : α → κ}

/-- The last element that carries a key: the one that decides, where later
elements overwrite earlier ones. -/
def lastBy (key : α → κ) (l : List α) (k : κ) : Option α :=
  l.reverse.find? (fun a => key a = k)

theorem lastBy_cons (a : α) (l : List α) (k : κ) :
    lastBy key (a :: l) k = (lastBy key l k).or (if key a = k then some a else none) := by
  rw [lastBy, lastBy, List.reverse_cons, List.find?_append]
  congr 1
  by_cases h : key a = k
  · rw [if_pos h, List.find?_cons_of_pos (by simpa using h)]
  · rw [if_neg h, List.find?_cons_of_neg (by simpa using h), List.find?_nil]

theorem isSome_lastBy {l : List α} {k : κ} :
    (lastBy key l k).isSome = true ↔ ∃ a ∈ l, key a = k := by
  simp [lastBy]

/-- **Only the order within a key matters.** -/
theorem lastBy_congr {l l' : List α} {k : κ}
    (h : l.filter (fun a => key a = k) = l'.filter (fun a => key a = k)) :
    lastBy key l k = lastBy key l' k := by
  rw [lastBy, lastBy, ← List.head?_filter, ← List.head?_filter, List.filter_reverse,
    List.filter_reverse, h]

end Last

/-! ## The first element that answers -/

/-- **The first element that satisfies `P`, and that it satisfies `R`.** -/
def First (P R : α → Prop) (l : List α) : Prop :=
  ∃ before a after, l = before ++ a :: after ∧ (∀ x ∈ before, ¬ P x) ∧ P a ∧ R a

theorem not_first_nil {P R : α → Prop} : ¬ First P R [] := by
  rintro ⟨before, a, after, h, -⟩
  exact List.append_ne_nil_of_right_ne_nil before (List.cons_ne_nil a after) h.symm

theorem first_cons {P R : α → Prop} {a : α} {l : List α} :
    First P R (a :: l) ↔ P a ∧ R a ∨ ¬ P a ∧ First P R l := by
  constructor
  · rintro ⟨before, x, after, h, hbefore, hx, hr⟩
    cases before with
    | nil =>
      cases h
      exact .inl ⟨hx, hr⟩
    | cons b before =>
      cases h
      exact .inr ⟨hbefore a List.mem_cons_self, before, x, after, rfl,
        fun y hy => hbefore y (List.mem_cons_of_mem a hy), hx, hr⟩
  · rintro (⟨ha, hr⟩ | ⟨ha, before, x, after, rfl, hbefore, hx, hr⟩)
    · exact ⟨[], a, l, rfl, fun x hx => absurd hx List.not_mem_nil, ha, hr⟩
    · exact ⟨a :: before, x, after, rfl, List.forall_mem_cons.mpr ⟨ha, hbefore⟩, hx, hr⟩

/-- **What comes after the first element that answers does not matter.** -/
theorem first_append {P R : α → Prop} {l : List α} (h : ∃ a ∈ l, P a) (l' : List α) :
    First P R (l ++ l') ↔ First P R l := by
  induction l with
  | nil =>
    obtain ⟨a, ha, -⟩ := h
    exact absurd ha List.not_mem_nil
  | cons b l ih =>
    rw [List.cons_append, first_cons, first_cons]
    by_cases hb : P b
    · simp [hb]
    · have hl : ∃ a ∈ l, P a := by
        obtain ⟨a, ha, hpa⟩ := h
        rcases List.mem_cons.mp ha with rfl | ha
        · exact absurd hpa hb
        · exact ⟨a, ha, hpa⟩
      rw [ih hl]

/-! ## Sorting without stability -/

/-- **A sort by a key**: order is promised, stability is not. -/
structure SortBy [LinearOrder κ] (key : α → κ) where
  /-- The sorted list. -/
  sort : List α → List α
  perm : ∀ l, (sort l).Perm l
  sorted : ∀ l, (sort l).Pairwise (fun a b => key a ≤ key b)

namespace SortBy

variable [LinearOrder κ]

/-- Insertion sort is one such sort. -/
def insertion (key : α → κ) : SortBy key where
  sort l := l.insertionSort (fun a b => key a ≤ key b)
  perm l := List.perm_insertionSort _ l
  sorted l := by
    have : Std.Total (fun a b : α => key a ≤ key b) := ⟨fun a b => le_total _ _⟩
    have : IsTrans α (fun a b : α => key a ≤ key b) := ⟨fun a b c => le_trans⟩
    exact List.pairwise_insertionSort _ l

variable {key : α → κ} (S : SortBy key)

theorem mem_sort {a : α} {l : List α} : a ∈ S.sort l ↔ a ∈ l := (S.perm l).mem_iff

/-- **With unique keys there is one sorted rearrangement**, so two sorts of
the same elements agree as lists although neither is stable. -/
theorem sort_eq_of_perm (S' : SortBy key) {l l' : List α} (hp : l.Perm l')
    (hnd : (l.map key).Nodup) : S.sort l = S'.sort l' := by
  have hperm : (S.sort l).Perm (S'.sort l') :=
    (S.perm l).trans (hp.trans (S'.perm l').symm)
  -- equal keys in a list of unique keys belong to one element
  have hanti : ∀ a b, a ∈ S.sort l → b ∈ S'.sort l' → key a ≤ key b →
      key b ≤ key a → a = b := by
    intro a b ha hb hab hba
    refine List.inj_on_of_nodup_map hnd ?_ ?_ (le_antisymm hab hba)
    · exact S.mem_sort.mp ha
    · exact hp.mem_iff.mpr (S'.mem_sort.mp hb)
  exact hperm.eq_of_pairwise hanti (S.sorted l) (S'.sorted l')

end SortBy
