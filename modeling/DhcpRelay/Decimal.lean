import Mathlib

/-!
# Decimal numerals over an alphabet

A number is written in decimal as the list of its digits, most significant
first, each digit as a symbol of some alphabet – ASCII bytes on the wire,
characters in a text. Reading takes the symbols back to digits, fails on a
symbol that is no digit, and sums them up from the left. The alphabet enters
through two functions only, and the round trip
(`Decimal.parse_render`) asks of them that reading a digit's symbol gives the
digit.

The digits themselves are Mathlib's `Nat.digits`, reversed, with the one
convention of writing that Mathlib does not have: zero is the numeral `0`,
not the empty list.
-/

namespace Decimal

variable {γ : Type}

/-- The digits of a number, most significant first. Zero has one digit. -/
def digits (n : ℕ) : List ℕ :=
  if n = 0 then [0] else (Nat.digits 10 n).reverse

/-- The number a list of digits denotes, read from the left. -/
def value (l : List ℕ) : ℕ := l.foldl (fun v d => 10 * v + d) 0

theorem value_reverse (l : List ℕ) : value l.reverse = Nat.ofDigits 10 l := by
  induction l with
  | nil => rfl
  | cons d l ih =>
    rw [List.reverse_cons, value, List.foldl_append, List.foldl_cons,
      List.foldl_nil, Nat.ofDigits_cons, add_comm, ← ih]
    rfl

/-- **The digits of a number denote it.** -/
@[simp] theorem value_digits (n : ℕ) : value (digits n) = n := by
  unfold digits
  split
  · next h => rw [h]; rfl
  · rw [value_reverse, Nat.ofDigits_digits]

theorem digits_ne_nil (n : ℕ) : digits n ≠ [] := by
  unfold digits
  split
  · exact List.cons_ne_nil _ _
  · next h =>
    rw [ne_eq, List.reverse_eq_nil_iff]
    exact Nat.digits_ne_nil_iff_ne_zero.mpr h

theorem lt_ten_of_mem_digits {n d : ℕ} (h : d ∈ digits n) : d < 10 := by
  unfold digits at h
  split at h
  · rw [List.mem_singleton] at h
    omega
  · exact Nat.digits_lt_base (by norm_num) (List.mem_reverse.mp h)

/-- A number below a power of ten has no more digits than the exponent. -/
theorem length_digits_le {n k : ℕ} (hk : 0 < k) (h : n < 10 ^ k) :
    (digits n).length ≤ k := by
  unfold digits
  split
  · exact hk
  · rw [List.length_reverse]
    exact (Nat.digits_length_le_iff (by norm_num) n).mpr h

/-- A number in decimal, each digit written with `digit`. -/
def render (digit : ℕ → γ) (n : ℕ) : List γ := (digits n).map digit

theorem render_ne_nil (digit : ℕ → γ) (n : ℕ) : render digit n ≠ [] := by
  rw [render, ne_eq, List.map_eq_nil_iff]
  exact digits_ne_nil n

@[simp] theorem length_render (digit : ℕ → γ) (n : ℕ) :
    (render digit n).length = (digits n).length := List.length_map _

/-- The number a non-empty string of symbols denotes, `none` on a symbol that
is no digit and on the empty string. -/
def parse (val : γ → Option ℕ) (s : List γ) : Option ℕ :=
  if s = [] then none else (s.mapM val).map value

theorem mapM_map_of_forall {val : γ → Option ℕ} {digit : ℕ → γ} {l : List ℕ}
    (h : ∀ d ∈ l, val (digit d) = some d) :
    (l.map digit).mapM val = some l := by
  induction l with
  | nil => rfl
  | cons d l ih =>
    rw [List.map_cons, List.mapM_cons, h d (List.mem_cons_self ..),
      ih (fun e he => h e (List.mem_cons_of_mem d he))]
    rfl

/-- **What is written in decimal is read back**, over any alphabet whose
symbols for the ten digits are read as them. -/
theorem parse_render {val : γ → Option ℕ} {digit : ℕ → γ}
    (h : ∀ d < 10, val (digit d) = some d) (n : ℕ) :
    parse val (render digit n) = some n := by
  rw [parse, if_neg (render_ne_nil digit n), render,
    mapM_map_of_forall (fun d hd => h d (lt_ten_of_mem_digits hd)),
    Option.map_some, value_digits]

end Decimal
