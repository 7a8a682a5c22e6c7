import DhcpRelay.Transition

/-!
# Programs that open, use and close handles

A handle, a file descriptor for one, is a name that a kernel gives out: whoever opens
something gets a handle that is free, and a handle that is closed is free again for the
next one who asks. The kernel does not remember who it was that got a handle. A program
that closes a handle twice, or goes on using one that it has closed, acts on whatever
somebody else has opened in the meantime.

`Prog` is a program that makes such calls and goes on by their answers, which may be
any. The discipline that keeps it out of trouble is that it calls upon handles which it
owns: it owns what it opens until it closes it. `Prog.wp` is this discipline, as the
precondition for a claim on what is owned at the end, with the usual rules: sequencing is
`wp_bind` and weakening is `wp_mono`.

`Threads` with such programs share one table of handles, with others beside them who
open and close handles of their own. `owns_of_reachable` is what the discipline is good
for: in every interleaving, what a thread owns by the rules is what it holds in the
table. So no call ever acts on a handle that is not the caller's own, and a thread that
has nothing to do holds no handle.

`Prog.Runs` is what a program does as a sequence of calls with their answers, for what is
to be said of its result.
-/

namespace Handles

/-- **The calls there are**: what may be opened, and what may be done to a handle, with
the answers. -/
structure Sig where
  Handle : Type
  Req : Type
  Op : Type
  Ans : Op → Type
  Err : Type

/-- **A program that makes calls** and returns an `α`. -/
inductive Prog (K : Sig) (α : Type) where
  | ret (a : α)
  /-- Open something. -/
  | acquire (r : K.Req) (k : Except K.Err K.Handle → Prog K α)
  | use (h : K.Handle) (o : K.Op) (k : K.Ans o → Prog K α)
  /-- Close a handle, which is then free whatever the answer. -/
  | release (h : K.Handle) (k : Option K.Err → Prog K α)

variable {K : Sig} {α β : Type}

namespace Prog

/-- Sequencing. -/
def bind : Prog K α → (α → Prog K β) → Prog K β
  | ret a, f => f a
  | acquire r k, f => acquire r (fun x => (k x).bind f)
  | use h o k, f => use h o (fun x => (k x).bind f)
  | release h k, f => release h (fun x => (k x).bind f)

instance : Monad (Prog K) where
  pure := ret
  bind := bind

/-! ## Owning handles -/

/-- **The discipline of a program** that owns the handles `own`: it calls upon no other
handle, and if it returns `a` and then owns `own'`, then `Q a own'`. A handle that is
opened is none of those that are owned already. -/
def wp : Prog K α → (α → Set K.Handle → Prop) → Set K.Handle → Prop
  | ret a, Q, own => Q a own
  | acquire _ k, Q, own =>
    (∀ e, (k (.error e)).wp Q own) ∧ ∀ h, h ∉ own → (k (.ok h)).wp Q (insert h own)
  | use h _ k, Q, own => h ∈ own ∧ ∀ a, (k a).wp Q own
  | release h k, Q, own => h ∈ own ∧ ∀ e, (k e).wp Q (own \ {h})

theorem wp_mono {p : Prog K α} {Q R : α → Set K.Handle → Prop} {own : Set K.Handle}
    (h : p.wp Q own) (hQR : ∀ a own', Q a own' → R a own') : p.wp R own := by
  induction p generalizing own with
  | ret a => exact hQR a own h
  | acquire r k ih => exact ⟨fun e => ih _ (h.1 e), fun x hx => ih _ (h.2 x hx)⟩
  | use x o k ih => exact ⟨h.1, fun a => ih a (h.2 a)⟩
  | release x k ih => exact ⟨h.1, fun e => ih e (h.2 e)⟩

/-- **One program after another.** -/
theorem wp_bind {p : Prog K α} {f : α → Prog K β} {Q : β → Set K.Handle → Prop}
    {own : Set K.Handle} (h : p.wp (fun a own' => (f a).wp Q own') own) :
    (p >>= f).wp Q own := by
  show (p.bind f).wp Q own
  induction p generalizing own with
  | ret a => exact h
  | acquire r k ih => exact ⟨fun e => ih _ (h.1 e), fun x hx => ih _ (h.2 x hx)⟩
  | use x o k ih => exact ⟨h.1, fun a => ih a (h.2 a)⟩
  | release x k ih => exact ⟨h.1, fun e => ih e (h.2 e)⟩

end Prog

/-! ## Runs -/

/-- A call and its answer. -/
inductive Event (K : Sig) where
  | acquired (r : K.Req) (x : Except K.Err K.Handle)
  | used (h : K.Handle) (o : K.Op) (a : K.Ans o)
  | released (h : K.Handle) (e : Option K.Err)

namespace Prog

/-- **What a program can do**: the calls it makes, with their answers, and its result. -/
inductive Runs : Prog K α → List (Event K) → α → Prop where
  | ret (a : α) : Runs (.ret a) [] a
  | acquire {r : K.Req} {k : Except K.Err K.Handle → Prog K α} {x : Except K.Err K.Handle}
      {l : List (Event K)} {a : α} :
      Runs (k x) l a → Runs (.acquire r k) (.acquired r x :: l) a
  | use {h : K.Handle} {o : K.Op} {k : K.Ans o → Prog K α} {x : K.Ans o}
      {l : List (Event K)} {a : α} :
      Runs (k x) l a → Runs (.use h o k) (.used h o x :: l) a
  | release {h : K.Handle} {k : Option K.Err → Prog K α} {e : Option K.Err}
      {l : List (Event K)} {a : α} :
      Runs (k e) l a → Runs (.release h k) (.released h e :: l) a

theorem Runs.of_ret {a b : α} {l : List (Event K)} (h : (Prog.ret b : Prog K α).Runs l a) :
    l = [] ∧ a = b := by
  cases h
  exact ⟨rfl, rfl⟩

theorem Runs.of_bind {p : Prog K α} {f : α → Prog K β} {l : List (Event K)} {b : β}
    (h : (p >>= f).Runs l b) :
    ∃ a l₁ l₂, l = l₁ ++ l₂ ∧ p.Runs l₁ a ∧ (f a).Runs l₂ b := by
  change (p.bind f).Runs l b at h
  induction p generalizing l with
  | ret a => exact ⟨a, [], l, rfl, .ret a, h⟩
  | acquire r k ih =>
    cases h with
    | acquire h =>
      obtain ⟨a, l₁, l₂, rfl, h₁, h₂⟩ := ih _ h
      exact ⟨a, _ :: l₁, l₂, rfl, .acquire h₁, h₂⟩
  | use x o k ih =>
    cases h with
    | use h =>
      obtain ⟨a, l₁, l₂, rfl, h₁, h₂⟩ := ih _ h
      exact ⟨a, _ :: l₁, l₂, rfl, .use h₁, h₂⟩
  | release x k ih =>
    cases h with
    | release h =>
      obtain ⟨a, l₁, l₂, rfl, h₁, h₂⟩ := ih _ h
      exact ⟨a, _ :: l₁, l₂, rfl, .release h₁, h₂⟩

end Prog

/-- Answers of a kernel that answers alike whenever it is called alike. -/
structure Oracle (K : Sig) where
  acquire : K.Req → Except K.Err K.Handle
  use : ∀ o, K.Ans o
  release : Option K.Err

namespace Prog

/-- What a program does by such answers. -/
def eval (w : Oracle K) : Prog K α → List (Event K) × α
  | ret a => ([], a)
  | acquire r k => (.acquired r (w.acquire r) :: ((k (w.acquire r)).eval w).1,
      ((k (w.acquire r)).eval w).2)
  | use h o k => (.used h o (w.use o) :: ((k (w.use o)).eval w).1, ((k (w.use o)).eval w).2)
  | release h k => (.released h w.release :: ((k w.release).eval w).1,
      ((k w.release).eval w).2)

theorem runs_eval (w : Oracle K) (p : Prog K α) : p.Runs (p.eval w).1 (p.eval w).2 := by
  induction p with
  | ret a => exact .ret a
  | acquire r k ih => exact .acquire (ih _)
  | use h o k ih => exact .use (ih _)
  | release h k ih => exact .release (ih _)

end Prog

/-! ## One table for all -/

/-- Who has a handle: nobody, a thread, or somebody else. -/
inductive Holder where
  | free
  | thread (i : ℕ)
  | other
  deriving DecidableEq, Repr

/-- The table of handles. -/
abbrev Table (K : Sig) := K.Handle → Holder

/-- The handles that a thread holds. -/
def Table.held (t : Table K) (i : ℕ) : Set K.Handle := {h | t h = .thread i}

variable [DecidableEq K.Handle]

/-- A handle changes hands. -/
def Table.set (t : Table K) (h : K.Handle) (x : Holder) : Table K := Function.update t h x

/-- **A step of thread `i`**, which has nothing to do or a program under way. A handle
that is opened was free. A call acts on whatever the handle stands for: whose it is is
not checked. -/
inductive Step (job : Prog K α → Prop) (i : ℕ) :
    Table K → Option (Prog K α) → Table K → Option (Prog K α) → Prop where
  | start {t : Table K} {p : Prog K α} : job p → Step job i t none t (some p)
  | acquire {t : Table K} {r : K.Req} {k : Except K.Err K.Handle → Prog K α}
      {h : K.Handle} : t h = .free →
      Step job i t (some (.acquire r k)) (t.set h (.thread i)) (some (k (.ok h)))
  | refuse {t : Table K} {r : K.Req} {k : Except K.Err K.Handle → Prog K α} {e : K.Err} :
      Step job i t (some (.acquire r k)) t (some (k (.error e)))
  | use {t : Table K} {h : K.Handle} {o : K.Op} {k : K.Ans o → Prog K α} (a : K.Ans o) :
      Step job i t (some (.use h o k)) t (some (k a))
  | release {t : Table K} {h : K.Handle} {k : Option K.Err → Prog K α} (e : Option K.Err) :
      Step job i t (some (.release h k)) (t.set h .free) (some (k e))
  | finish {t : Table K} {a : α} : Step job i t (some (.ret a)) t none

/-- The others open and close handles of their own. -/
def others (t t' : Table K) : Prop :=
  ∃ h, t h = .free ∧ t' = t.set h .other
    ∨ t h = .other ∧ t' = t.set h .free

/-- **Threads that run programs from `job`**, over one table of handles. -/
def threads (job : Prog K α → Prop) : Threads (Table K) (Option (Prog K α)) where
  init t := ∀ i, t.held i = ∅
  start := none
  env := others
  step := Step job

/-- **What a thread owns by the rules is what it holds**: nothing if it has nothing to
do, and in the end nothing. -/
def Owns (i : ℕ) (t : Table K) : Option (Prog K α) → Prop
  | none => t.held i = ∅
  | some p => p.wp (fun _ own => own = ∅) (t.held i)

theorem held_set_of_ne {t : Table K} {h : K.Handle} {x : Holder} {i : ℕ}
    (ht : t h ≠ .thread i) (hx : x ≠ .thread i) : (t.set h x).held i = t.held i := by
  ext h'
  by_cases hh : h' = h
  · subst hh
    simp [Table.held, Table.set, ht, hx]
  · simp [Table.held, Table.set, Function.update_of_ne hh]

theorem held_set_thread (t : Table K) (h : K.Handle) (i : ℕ) :
    (t.set h (.thread i)).held i = insert h (t.held i) := by
  ext h'
  by_cases hh : h' = h
  · subst hh
    simp [Table.held, Table.set]
  · simp [Table.held, Table.set, hh]

theorem held_set_free (t : Table K) (h : K.Handle) (i : ℕ) :
    (t.set h .free).held i = t.held i \ {h} := by
  ext h'
  by_cases hh : h' = h
  · subst hh
    simp [Table.held, Table.set]
  · simp [Table.held, Table.set, hh]

section Steps

variable {job : Prog K α → Prop} {i j : ℕ} {t t' : Table K} {p p' : Option (Prog K α)}

/-- A thread goes on by the rules. -/
theorem Step.owns (hjob : ∀ p, job p → p.wp (fun _ own => own = ∅) ∅)
    (h : Step job i t p t' p') (ho : Owns i t p) : Owns i t' p' := by
  cases h with
  | @start p hp =>
    have hnone : t.held i = ∅ := ho
    show p.wp _ (t.held i)
    rw [hnone]
    exact hjob p hp
  | @acquire r k h hfree =>
    have hnew : h ∉ t.held i := fun hmem => by cases hfree.symm.trans hmem
    show (k (.ok h)).wp _ ((t.set h (.thread i)).held i)
    rw [held_set_thread]
    exact ho.2 h hnew
  | refuse => exact ho.1 _
  | use a => exact ho.2 a
  | @release h k e =>
    show (k e).wp _ ((t.set h .free).held i)
    rw [held_set_free]
    exact ho.2 e
  | finish => exact ho

/-- A thread that keeps to the rules takes nothing from another. -/
theorem Step.held_other (h : Step job i t p t' p') (ho : Owns i t p) (hj : j ≠ i) :
    t'.held j = t.held j := by
  cases h with
  | start | refuse | use | finish => rfl
  | @acquire r k h hfree =>
    refine held_set_of_ne ?_ ?_
    · rw [hfree]
      exact fun h => by cases h
    · exact fun h => hj (by cases h; rfl)
  | @release h k e =>
    have hmine : t h = .thread i := ho.1
    refine held_set_of_ne ?_ (fun h => by cases h)
    rw [hmine]
    exact fun h => hj (by cases h; rfl)

/-- Nor do the others. -/
theorem others.held (h : others t t') (i : ℕ) : t'.held i = t.held i := by
  obtain ⟨x, ⟨hx, rfl⟩ | ⟨hx, rfl⟩⟩ := h
  · exact held_set_of_ne (by rw [hx]; exact fun h => by cases h) (fun h => by cases h)
  · exact held_set_of_ne (by rw [hx]; exact fun h => by cases h) (fun h => by cases h)

/-- **In every interleaving a thread owns what it holds**, if all programs keep to the
rules and give back in the end what they open. -/
theorem owns_of_reachable (hjob : ∀ p, job p → p.wp (fun _ own => own = ∅) ∅)
    {s : Threads.State (Table K) (Option (Prog K α))}
    (h : (threads job).system.Reachable s) (i : ℕ) : Owns i s.shared (s.thread i) := by
  have hcongr : ∀ (j : ℕ) (t t' : Table K) (p : Option (Prog K α)), t'.held j = t.held j →
      Owns j t p → Owns j t' p := by
    intro j t t' p heq ho
    cases p with
    | none => exact heq.trans ho
    | some p =>
      show p.wp _ (t'.held j)
      rw [heq]
      exact ho
  refine (Threads.invariant (G := fun _ => True) (P := Owns) ?_ ?_ ?_ ?_ h).2 i
  · exact fun t ht => ⟨trivial, ht⟩
  · exact fun t t' henv _ => ⟨trivial, fun i p => hcongr i t t' p (henv.held i)⟩
  · exact fun i t p t' p' hstep _ ho => ⟨trivial, hstep.owns hjob ho⟩
  · exact fun i t p t' p' hstep ho j m hj => hcongr j t t' m (hstep.held_other ho hj)

end Steps

end Handles
