import Mathlib

/-!
# Classic BPF

A socket filter is a program that the kernel runs on every packet (in the
classic instruction set of `linux/filter.h`). It has an accumulator and an index
register, reads the packet, jumps forward only, and returns how many bytes of the
packet to keep, zero to drop it. A load from outside the packet ends the program
with zero.

`SockFilter` is an instruction as it is given to the kernel, and
`SockFilter.decode` says what it means, for the part of the instruction set that
reads packets and branches on constants. `run` is what a program does. Since all
jumps are forward, a jump is a number of instructions to skip, and a program is
run by recursion on the list of its instructions. `none` is the run that falls
off the end of the program.

A number in a packet is written big endian, and `field` reads it.

What one instruction can do is said once (`run_cons_cases`), and from it follows
what holds of every program:

* A program whose instructions all go on to instructions of the program
  (`TargetsInside`) ends on every packet (`exists_run_eq_some`).
* A program that keeps a packet has loaded from inside the packet only
  (`loads_inside`).

A given program can be followed forwards, where the tests are known (`run_ldAbs`
and the like), and backwards, from the fact that the packet was kept
(`ldAbs_of_run` and the like).
-/

namespace Bpf

/-! ## Instructions -/

/-- `BPF_LD`, the class of loads into the accumulator. -/
def bpfLD : UInt16 := 0x00

/-- `BPF_LDX`, the class of loads into the index register. -/
def bpfLDX : UInt16 := 0x01

/-- `BPF_ALU`. -/
def bpfALU : UInt16 := 0x04

/-- `BPF_JMP`. -/
def bpfJMP : UInt16 := 0x05

/-- `BPF_RET`. -/
def bpfRET : UInt16 := 0x06

/-- `BPF_W`, four bytes. -/
def bpfW : UInt16 := 0x00

/-- `BPF_H`, two bytes. -/
def bpfH : UInt16 := 0x08

/-- `BPF_B`, one byte. -/
def bpfB : UInt16 := 0x10

/-- `BPF_ABS`, at a constant offset. -/
def bpfABS : UInt16 := 0x20

/-- `BPF_IND`, at a constant offset from the index register. -/
def bpfIND : UInt16 := 0x40

/-- `BPF_LEN`, the length of the packet. -/
def bpfLEN : UInt16 := 0x80

/-- `BPF_MSH`, four times the low nibble of a byte: the length of an IPv4
header. -/
def bpfMSH : UInt16 := 0xa0

/-- `BPF_AND`. -/
def bpfAND : UInt16 := 0x50

/-- `BPF_JEQ`. -/
def bpfJEQ : UInt16 := 0x10

/-- `BPF_JGT`. -/
def bpfJGT : UInt16 := 0x20

/-- `BPF_JGE`. -/
def bpfJGE : UInt16 := 0x30

/-- `BPF_JSET`. -/
def bpfJSET : UInt16 := 0x40

/-- `BPF_K`, with a constant operand. -/
def bpfK : UInt16 := 0x00

/-- **`sock_filter`**: an instruction as it is given to the kernel. -/
structure SockFilter where
  code : UInt16
  /-- The instructions to skip when the test holds. -/
  jt : UInt8 := 0
  /-- The instructions to skip when it does not. -/
  jf : UInt8 := 0
  k : UInt32 := 0
  deriving DecidableEq, Repr

/-- The tests of a jump, of the accumulator against a constant. -/
inductive Cond where
  | eq
  | gt
  | ge
  /-- They have a bit in common. -/
  | set
  deriving DecidableEq, Repr

def Cond.holds (c : Cond) (a k : UInt32) : Bool :=
  match c with
  | .eq => a = k
  | .gt => k < a
  | .ge => k ≤ a
  | .set => a &&& k ≠ 0

/-- **An instruction**, by what it does. -/
inductive Insn where
  | ldAbs (size : ℕ) (k : UInt32)
  | ldInd (size : ℕ) (k : UInt32)
  | ldLen
  | ldxMsh (k : UInt32)
  | and (k : UInt32)
  | jump (c : Cond) (k : UInt32) (jt jf : ℕ)
  | ret (k : UInt32)
  deriving DecidableEq, Repr

/-- The number of bytes that a load loads. -/
def SockFilter.size (f : SockFilter) : Option ℕ :=
  if f.code &&& 0x18 = bpfW then some 4
  else if f.code &&& 0x18 = bpfH then some 2
  else if f.code &&& 0x18 = bpfB then some 1
  else none

/-- The test of a jump. -/
def SockFilter.cond (f : SockFilter) : Option Cond :=
  if f.code &&& 0xf0 = bpfJEQ then some .eq
  else if f.code &&& 0xf0 = bpfJGT then some .gt
  else if f.code &&& 0xf0 = bpfJGE then some .ge
  else if f.code &&& 0xf0 = bpfJSET then some .set
  else none

/-- **What an instruction means**, `none` outside the part of the instruction set
that is modelled. -/
def SockFilter.decode (f : SockFilter) : Option Insn :=
  if f.code = bpfLD ||| bpfW ||| bpfLEN then some .ldLen
  else if f.code &&& 0xe7 = bpfLD ||| bpfABS then f.size.map (Insn.ldAbs · f.k)
  else if f.code &&& 0xe7 = bpfLD ||| bpfIND then f.size.map (Insn.ldInd · f.k)
  else if f.code = bpfLDX ||| bpfB ||| bpfMSH then some (.ldxMsh f.k)
  else if f.code = bpfALU ||| bpfAND ||| bpfK then some (.and f.k)
  else if f.code &&& 0x0f = bpfJMP ||| bpfK then
    f.cond.map (Insn.jump · f.k f.jt.toNat f.jf.toNat)
  else if f.code = bpfRET ||| bpfK then some (.ret f.k)
  else none

/-! ## Running a program -/

/-- The number that bytes denote, the most significant one first. -/
def beNat (l : List UInt8) : ℕ := l.foldl (fun n b => 256 * n + b.toNat) 0

/-- The number in `n` bytes of a packet, from the `k`-th on. -/
def field (p : List UInt8) (k n : ℕ) : ℕ := beNat ((p.drop k).take n)

/-- Loading `n` bytes from the `k`-th on, when the packet has them. -/
def load (p : List UInt8) (k n : ℕ) : Option UInt32 :=
  if k + n ≤ p.length then some (UInt32.ofNat (field p k n)) else none

/-- **What a program returns** for the packet `p`, after skipping so many of its
instructions and with the given accumulator and index register. -/
def run (p : List UInt8) : List Insn → ℕ → UInt32 → UInt32 → Option UInt32
  | [], _, _, _ => none
  | _ :: is, skip + 1, a, x => run p is skip a x
  | i :: is, 0, a, x =>
    match i with
    | .ldAbs size k =>
      match load p k.toNat size with
      | none => some 0
      | some v => run p is 0 v x
    | .ldInd size k =>
      match load p (x + k).toNat size with
      | none => some 0
      | some v => run p is 0 v x
    | .ldLen => run p is 0 (UInt32.ofNat p.length) x
    | .ldxMsh k =>
      match load p k.toNat 1 with
      | none => some 0
      | some v => run p is 0 a (4 * (v &&& 0xf))
    | .and k => run p is 0 (a &&& k) x
    | .jump c k jt jf => run p is (if c.holds a k then jt else jf) a x
    | .ret k => some k

/-- A program as it is given to the kernel, on a packet. -/
def runFilter (prog : List SockFilter) (p : List UInt8) : Option UInt32 :=
  (prog.mapM SockFilter.decode).bind (fun is => run p is 0 0 0)

/-! ## Where a program goes -/

/-- **Where an instruction goes on**, as the numbers of instructions it may
skip. -/
def Insn.targets : Insn → List ℕ
  | .jump _ _ jt jf => [jt, jf]
  | .ret _ => []
  | _ => [0]

/-- **Every instruction goes on inside the program.** -/
def TargetsInside (is : List Insn) : Prop :=
  ∀ n i, is[n]? = some i → ∀ t ∈ i.targets, n + 1 + t < is.length

theorem targetsInside_nil : TargetsInside [] := by
  intro n i h
  cases h

theorem targetsInside_cons {i : Insn} {is : List Insn} :
    TargetsInside (i :: is) ↔ (∀ t ∈ i.targets, t < is.length) ∧ TargetsInside is := by
  constructor
  · intro h
    refine ⟨fun t ht => ?_, fun n j hj t ht => ?_⟩
    · have := h 0 i rfl t ht
      rw [List.length_cons] at this
      omega
    · have := h (n + 1) j hj t ht
      rw [List.length_cons] at this
      omega
  · rintro ⟨hi, his⟩ n j hj t ht
    rw [List.length_cons]
    cases n with
    | zero =>
      cases hj
      have := hi t ht
      omega
    | succ n =>
      have := his n j hj t ht
      omega

/-! ## What a program loads -/

/-- **The loads of a run**, each as its offset and its size, with the one that ends
the run where it is outside the packet. -/
def loads (p : List UInt8) : List Insn → ℕ → UInt32 → UInt32 → List (ℕ × ℕ)
  | [], _, _, _ => []
  | _ :: is, skip + 1, a, x => loads p is skip a x
  | i :: is, 0, a, x =>
    match i with
    | .ldAbs size k =>
      (k.toNat, size) ::
        match load p k.toNat size with
        | none => []
        | some v => loads p is 0 v x
    | .ldInd size k =>
      ((x + k).toNat, size) ::
        match load p (x + k).toNat size with
        | none => []
        | some v => loads p is 0 v x
    | .ldLen => loads p is 0 (UInt32.ofNat p.length) x
    | .ldxMsh k =>
      (k.toNat, 1) ::
        match load p k.toNat 1 with
        | none => []
        | some v => loads p is 0 a (4 * (v &&& 0xf))
    | .and k => loads p is 0 (a &&& k) x
    | .jump c k jt jf => loads p is (if c.holds a k then jt else jf) a x
    | .ret _ => []

theorem load_eq_some_iff {p : List UInt8} {k n : ℕ} {v : UInt32} :
    load p k n = some v ↔ k + n ≤ p.length ∧ v = UInt32.ofNat (field p k n) := by
  unfold load
  split
  · next h => simp [h, eq_comm]
  · next h => simp [h]

/-! ## What holds of every program -/

/-- **What one instruction does.** It returns, or it loads from outside the packet,
which drops the packet, or it goes on at one of its targets and has loaded from
inside the packet only. -/
theorem run_cons_cases (p : List UInt8) (i : Insn) (is : List Insn) (a x : UInt32) :
    (∃ k, i = .ret k ∧ run p (i :: is) 0 a x = some k ∧ loads p (i :: is) 0 a x = [])
      ∨ run p (i :: is) 0 a x = some 0
      ∨ ∃ t ∈ i.targets, ∃ a' x' ls, run p (i :: is) 0 a x = run p is t a' x'
        ∧ loads p (i :: is) 0 a x = ls ++ loads p is t a' x'
        ∧ ∀ l ∈ ls, l.1 + l.2 ≤ p.length := by
  have hinside : ∀ {k n : ℕ} {v : UInt32}, load p k n = some v →
      ∀ l ∈ [(k, n)], l.1 + l.2 ≤ p.length := fun h =>
    List.forall_mem_singleton.mpr (load_eq_some_iff.mp h).1
  have hnothing : ∀ l ∈ ([] : List (ℕ × ℕ)), l.1 + l.2 ≤ p.length :=
    fun l hl => absurd hl List.not_mem_nil
  cases i with
  | ldAbs size k =>
    cases hload : load p k.toNat size with
    | none => exact .inr (.inl (by simp only [run, hload]))
    | some v =>
      exact .inr (.inr ⟨0, List.mem_cons_self, v, x, [(k.toNat, size)],
        by simp only [run, hload], by simp only [loads, hload, List.singleton_append],
        hinside hload⟩)
  | ldInd size k =>
    cases hload : load p (x + k).toNat size with
    | none => exact .inr (.inl (by simp only [run, hload]))
    | some v =>
      exact .inr (.inr ⟨0, List.mem_cons_self, v, x, [((x + k).toNat, size)],
        by simp only [run, hload], by simp only [loads, hload, List.singleton_append],
        hinside hload⟩)
  | ldLen => exact .inr (.inr ⟨0, List.mem_cons_self, _, x, [], rfl, rfl, hnothing⟩)
  | ldxMsh k =>
    cases hload : load p k.toNat 1 with
    | none => exact .inr (.inl (by simp only [run, hload]))
    | some v =>
      exact .inr (.inr ⟨0, List.mem_cons_self, a, 4 * (v &&& 0xf), [(k.toNat, 1)],
        by simp only [run, hload], by simp only [loads, hload, List.singleton_append],
        hinside hload⟩)
  | and k => exact .inr (.inr ⟨0, List.mem_cons_self, _, x, [], rfl, rfl, hnothing⟩)
  | jump c k jt jf =>
    refine .inr (.inr ⟨if c.holds a k then jt else jf, ?_, a, x, [], rfl, rfl, hnothing⟩)
    split
    · exact List.mem_cons_self
    · exact List.mem_cons_of_mem _ List.mem_cons_self
  | ret k => exact .inl ⟨k, rfl, rfl, rfl⟩

/-- **A program returns zero or one of its constants.** -/
theorem eq_zero_or_ret_of_run {p : List UInt8} {is : List Insn} {skip : ℕ} {a x v : UInt32}
    (h : run p is skip a x = some v) : v = 0 ∨ Insn.ret v ∈ is := by
  induction is generalizing skip a x with
  | nil => cases h
  | cons i is ih =>
    cases skip with
    | succ skip => exact (ih h).imp_right (List.mem_cons_of_mem i)
    | zero =>
      obtain ⟨k, rfl, hret, -⟩ | hdrop | ⟨t, -, a', x', -, hgo, -, -⟩ := run_cons_cases p i is a x
      · cases hret.symm.trans h
        exact .inr List.mem_cons_self
      · cases hdrop.symm.trans h
        exact .inl rfl
      · exact (ih (hgo.symm.trans h)).imp_right (List.mem_cons_of_mem i)

/-- **A program that stays inside itself ends**, on every packet. -/
theorem exists_run_eq_some {p : List UInt8} {is : List Insn} (h : TargetsInside is) {skip : ℕ}
    (hskip : skip < is.length) (a x : UInt32) : ∃ v, run p is skip a x = some v := by
  induction is generalizing skip a x with
  | nil => exact absurd hskip (Nat.not_lt_zero skip)
  | cons i is ih =>
    obtain ⟨hi, his⟩ := targetsInside_cons.mp h
    cases skip with
    | succ skip => exact ih his (Nat.lt_of_succ_lt_succ hskip) a x
    | zero =>
      obtain ⟨k, -, hret, -⟩ | hdrop | ⟨t, ht, a', x', -, hgo, -, -⟩ := run_cons_cases p i is a x
      · exact ⟨k, hret⟩
      · exact ⟨0, hdrop⟩
      · rw [hgo]
        exact ih his (hi t ht) a' x'

/-- **A packet that is kept was read inside only.** -/
theorem loads_inside {p : List UInt8} {is : List Insn} {skip : ℕ} {a x v : UInt32}
    (hv : v ≠ 0) (h : run p is skip a x = some v) :
    ∀ l ∈ loads p is skip a x, l.1 + l.2 ≤ p.length := by
  induction is generalizing skip a x with
  | nil => cases h
  | cons i is ih =>
    cases skip with
    | succ skip => exact ih h
    | zero =>
      obtain ⟨k, -, -, hnone⟩ | hdrop | ⟨t, -, a', x', ls, hgo, hloads, hls⟩ :=
        run_cons_cases p i is a x
      · rw [hnone]
        exact fun l hl => absurd hl List.not_mem_nil
      · cases hdrop.symm.trans h
        exact absurd rfl hv
      · rw [hloads]
        exact List.forall_mem_append.mpr ⟨hls, ih (hgo.symm.trans h)⟩

/-! ## Numbers in packets -/

theorem beNat_append_singleton (l : List UInt8) (b : UInt8) :
    beNat (l ++ [b]) = 256 * beNat l + b.toNat := by
  rw [beNat, List.foldl_append]
  rfl

theorem beNat_lt (l : List UInt8) : beNat l < 256 ^ l.length := by
  induction l using List.reverseRecOn with
  | nil => exact Nat.one_pos
  | append_singleton l b ih =>
    have hb := b.toNat_lt
    rw [beNat_append_singleton, List.length_append, List.length_singleton, pow_succ]
    omega

theorem field_lt (p : List UInt8) (k n : ℕ) : field p k n < 256 ^ n := by
  refine lt_of_lt_of_le (beNat_lt _) (Nat.pow_le_pow_right (by norm_num) ?_)
  exact List.length_take_le n _

theorem field_append_left {l r : List UInt8} {k n : ℕ} (h : k + n ≤ l.length) :
    field (l ++ r) k n = field l k n := by
  rw [field, field, List.drop_append_of_le_length (by omega),
    List.take_append_of_le_length (by rw [List.length_drop]; omega)]

/-- **Masking the low bits takes the remainder.** -/
theorem ofNat_and_mask {v j : ℕ} (hv : v < 2 ^ 32) (hj : j ≤ 32) :
    UInt32.ofNat v &&& UInt32.ofNat (2 ^ j - 1) = UInt32.ofNat (v % 2 ^ j) := by
  have hmask : 2 ^ j - 1 < 2 ^ 32 := by
    have hpos : 0 < 2 ^ j := Nat.two_pow_pos j
    have hle : 2 ^ j ≤ 2 ^ 32 := Nat.pow_le_pow_right (by norm_num) hj
    omega
  apply UInt32.toNat_inj.mp
  rw [UInt32.toNat_and, UInt32.toNat_ofNat_of_lt' hv, UInt32.toNat_ofNat_of_lt' hmask,
    Nat.and_two_pow_sub_one_eq_mod, UInt32.toNat_ofNat_of_lt' (lt_of_le_of_lt (Nat.mod_le _ _) hv)]

/-- **The length of a packet**, which the machine knows in 32 bits. -/
def packetLen (p : List UInt8) : UInt32 := UInt32.ofNat p.length

theorem packetLen_le_length (p : List UInt8) : (packetLen p).toNat ≤ p.length := by
  rw [packetLen, UInt32.toNat_ofNat']
  exact Nat.mod_le _ _

theorem toNat_packetLen {p : List UInt8} (h : p.length < 2 ^ 32) :
    (packetLen p).toNat = p.length := UInt32.toNat_ofNat_of_lt' h

/-- What fits into a register. -/
theorem field_lt_register (p : List UInt8) (k : ℕ) {n : ℕ} (hn : n ≤ 4) :
    field p k n < 2 ^ 32 :=
  lt_of_lt_of_le (field_lt p k n) (Nat.pow_le_pow_right (by norm_num) hn)

/-! ## Tests -/

theorem holds_eq_iff {n : ℕ} (hn : n < 2 ^ 32) {k : UInt32} :
    Cond.eq.holds (UInt32.ofNat n) k = true ↔ n = k.toNat := by
  rw [Cond.holds, decide_eq_true_eq, ← UInt32.toNat_inj, UInt32.toNat_ofNat_of_lt' hn]

theorem holds_ge_iff {a k : UInt32} : Cond.ge.holds a k = true ↔ k.toNat ≤ a.toNat := by
  rw [Cond.holds, decide_eq_true_eq, UInt32.le_iff_toNat_le]

theorem not_holds_gt_iff {a k : UInt32} : Cond.gt.holds a k = false ↔ a.toNat ≤ k.toNat := by
  rw [Cond.holds, decide_eq_false_iff_not, UInt32.lt_iff_toNat_lt, not_lt]

/-- None of the low bits is set. -/
theorem not_holds_set_iff {n j : ℕ} (hn : n < 2 ^ 32) (hj : j ≤ 32) :
    Cond.set.holds (UInt32.ofNat n) (UInt32.ofNat (2 ^ j - 1)) = false ↔ n % 2 ^ j = 0 := by
  have hlt : n % 2 ^ j < 2 ^ 32 := lt_of_le_of_lt (Nat.mod_le _ _) hn
  rw [Cond.holds, decide_eq_false_iff_not, not_not, ofNat_and_mask hn hj, ← UInt32.toNat_inj,
    UInt32.toNat_ofNat_of_lt' hlt]
  rfl

/-! ## Following a program -/

variable {p : List UInt8} {is : List Insn} {a x k : UInt32} {size jt jf : ℕ} {c : Cond}

/-- A load from inside the packet. -/
theorem load_eq {k n : ℕ} (h : k + n ≤ p.length) :
    load p k n = some (UInt32.ofNat (field p k n)) := if_pos h

theorem run_ldAbs (o : ℕ) (hk : k.toNat = o) (h : o + size ≤ p.length) :
    run p (.ldAbs size k :: is) 0 a x = run p is 0 (UInt32.ofNat (field p o size)) x := by
  simp only [run, hk, load_eq h]

theorem run_ldInd (o : ℕ) (hk : (x + k).toNat = o) (h : o + size ≤ p.length) :
    run p (.ldInd size k :: is) 0 a x = run p is 0 (UInt32.ofNat (field p o size)) x := by
  simp only [run, hk, load_eq h]

/-- The index register gets the length of the IPv4 header at `o`. -/
theorem run_ldxMsh (o : ℕ) (hk : k.toNat = o) (h : o + 1 ≤ p.length) :
    run p (.ldxMsh k :: is) 0 a x
      = run p is 0 a (4 * (UInt32.ofNat (field p o 1) &&& 0xf)) := by
  simp only [run, hk, load_eq h]

theorem run_ldLen : run p (.ldLen :: is) 0 a x = run p is 0 (packetLen p) x := rfl

theorem run_and : run p (.and k :: is) 0 a x = run p is 0 (a &&& k) x := rfl

theorem run_jump_of_holds (h : c.holds a k = true) :
    run p (.jump c k jt jf :: is) 0 a x = run p is jt a x := by
  simp only [run, h, if_true]

theorem run_jump_of_not_holds (h : c.holds a k = false) :
    run p (.jump c k jt jf :: is) 0 a x = run p is jf a x := by
  simp only [run, h, Bool.false_eq_true, if_false]

/-! ## Following a program backwards

From the fact that the packet is kept: a load was inside the packet, and a test
went the way that does not drop it. -/

section Backwards

variable {v : UInt32} (hv : v ≠ 0)

include hv

theorem ldAbs_of_run (o : ℕ) (hk : k.toNat = o)
    (h : run p (.ldAbs size k :: is) 0 a x = some v) :
    run p is 0 (UInt32.ofNat (field p o size)) x = some v := by
  by_cases hin : o + size ≤ p.length
  · rwa [run_ldAbs o hk hin] at h
  · simp only [run, hk, load, if_neg hin] at h
    exact absurd (Option.some.inj h).symm hv

theorem ldInd_of_run (o : ℕ) (hk : (x + k).toNat = o)
    (h : run p (.ldInd size k :: is) 0 a x = some v) :
    run p is 0 (UInt32.ofNat (field p o size)) x = some v := by
  by_cases hin : o + size ≤ p.length
  · rwa [run_ldInd o hk hin] at h
  · simp only [run, hk, load, if_neg hin] at h
    exact absurd (Option.some.inj h).symm hv

theorem ldxMsh_of_run (o : ℕ) (hk : k.toNat = o)
    (h : run p (.ldxMsh k :: is) 0 a x = some v) :
    run p is 0 a (4 * (UInt32.ofNat (field p o 1) &&& 0xf)) = some v := by
  by_cases hin : o + 1 ≤ p.length
  · rwa [run_ldxMsh o hk hin] at h
  · simp only [run, hk, load, if_neg hin] at h
    exact absurd (Option.some.inj h).symm hv

/-- The test held, where the other way drops the packet. -/
theorem holds_of_run_jump (hdrop : run p is jf a x = some 0)
    (h : run p (.jump c k jt jf :: is) 0 a x = some v) :
    c.holds a k = true ∧ run p is jt a x = some v := by
  cases hc : c.holds a k with
  | true => exact ⟨rfl, (run_jump_of_holds hc).symm.trans h⟩
  | false =>
    rw [run_jump_of_not_holds hc, hdrop] at h
    exact absurd (Option.some.inj h).symm hv

/-- The test did not hold, where the other way drops the packet. -/
theorem not_holds_of_run_jump (hdrop : run p is jt a x = some 0)
    (h : run p (.jump c k jt jf :: is) 0 a x = some v) :
    c.holds a k = false ∧ run p is jf a x = some v := by
  cases hc : c.holds a k with
  | false => exact ⟨rfl, (run_jump_of_not_holds hc).symm.trans h⟩
  | true =>
    rw [run_jump_of_holds hc, hdrop] at h
    exact absurd (Option.some.inj h).symm hv

end Backwards

end Bpf
