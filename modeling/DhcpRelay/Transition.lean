import Mathlib

/-!
# Transition systems and their invariants

A system starts in one of its initial states and takes one step after another.
What holds of every reachable state is proved in two parts: it holds
initially, and a step keeps it. A step may be assumed to start in a reachable
state, so an invariant can be proved on top of others
(`System.Reachable.invariant`). A system *refines* another when an abstraction
takes its steps to steps of the other, and then it inherits the invariants of the
other (`System.Reachable.map`). That a system is never stuck is said with
`System.Can`: from every reachable state some run leads to where it should get.

`Threads` is the system of any number of threads that share a state, in the
presence of an environment that acts on it too. Any interleaving is a run.
What is claimed of it comes in two parts, a claim on the shared state and one
on each thread at the point where it is, and `Threads.invariant` is the rule
for proving both: a thread's own step establishes them, and keeps what the
other threads rely on.
-/

variable {σ τ S L : Type}

/-- **A transition system**: where it starts, and what a step can do. -/
structure System (σ : Type) where
  init : σ → Prop
  step : σ → σ → Prop

namespace System

/-- The states that a run can lead to. -/
inductive Reachable (T : System σ) : σ → Prop where
  | init {s : σ} : T.init s → T.Reachable s
  | step {s s' : σ} : T.Reachable s → T.step s s' → T.Reachable s'

/-- **What holds initially and is kept by every step holds always.** -/
theorem Reachable.invariant {T : System σ} {I : σ → Prop}
    (hinit : ∀ s, T.init s → I s)
    (hstep : ∀ s s', T.Reachable s → I s → T.step s s' → I s')
    {s : σ} (h : T.Reachable s) : I s := by
  induction h with
  | init h => exact hinit _ h
  | step hs hstep' ih => exact hstep _ _ hs ih hstep'

/-- **Refinement.** If an abstraction takes initial states to initial states, and
each step to a step or to nothing at all, it takes reachable states to reachable
states. -/
theorem Reachable.map {T : System σ} {T' : System τ} (f : σ → τ)
    (hinit : ∀ s, T.init s → T'.init (f s))
    (hstep : ∀ s s', T.Reachable s → T.step s s' → f s' = f s ∨ T'.step (f s) (f s'))
    {s : σ} (h : T.Reachable s) : T'.Reachable (f s) := by
  induction h with
  | init h => exact .init (hinit _ h)
  | @step s s' hs hstep' ih =>
    rcases hstep s s' hs hstep' with heq | hnext
    · rw [heq]
      exact ih
    · exact .step ih hnext

/-- Some steps in a row. -/
def Steps (T : System σ) : σ → σ → Prop := Relation.ReflTransGen T.step

theorem Reachable.steps {T : System σ} {s s' : σ} (h : T.Reachable s)
    (hs : T.Steps s s') : T.Reachable s' := by
  induction hs with
  | refl => exact h
  | tail _ hstep ih => exact .step ih hstep

/-- Every state of a run from a reachable state is reachable. -/
theorem Reachable.of_isChain {T : System σ} {s : σ} {l : List σ}
    (hs : T.Reachable s) (h : (s :: l).IsChain T.step) : ∀ x ∈ s :: l, T.Reachable x := by
  induction l generalizing s with
  | nil =>
    intro x hx
    rw [List.mem_singleton.mp hx]
    exact hs
  | cons s' l ih =>
    rw [List.isChain_cons_cons] at h
    intro x hx
    rcases List.mem_cons.mp hx with rfl | hx
    · exact hs
    · exact ih (hs.step h.1) h.2 x hx

/-- **Some run leads from here to a state with `Q`.** -/
def Can (T : System σ) (Q : σ → Prop) (s : σ) : Prop := ∃ s', T.Steps s s' ∧ Q s'

section Can

variable {T : System σ} {Q R : σ → Prop} {s s' : σ}

theorem Can.here (h : Q s) : T.Can Q s := ⟨s, .refl, h⟩

theorem Can.step (h : T.step s s') (hQ : T.Can Q s') : T.Can Q s := by
  obtain ⟨s'', hs, hq⟩ := hQ
  exact ⟨s'', .head h hs, hq⟩

theorem Can.mono (h : T.Can Q s) (hQR : ∀ s', Q s' → R s') : T.Can R s := by
  obtain ⟨s', hs, hq⟩ := h
  exact ⟨s', hs, hQR s' hq⟩

/-- What can be reached from wherever `Q` is reached. -/
theorem Can.trans (hr : T.Reachable s) (h : T.Can Q s)
    (hQR : ∀ s', T.Reachable s' → Q s' → T.Can R s') : T.Can R s := by
  obtain ⟨s', hs, hq⟩ := h
  obtain ⟨s'', hs', hr'⟩ := hQR s' (hr.steps hs) hq
  exact ⟨s'', hs.trans hs', hr'⟩

end Can

end System

/-! ## Threads over a shared state -/

/-- **Threads over a shared state.** A thread is where it is in its code, an
`L`; thread `i` moves by `step i`, and the environment by `env`. -/
structure Threads (S L : Type) where
  init : S → Prop
  /-- Where every thread starts. -/
  start : L
  env : S → S → Prop
  step : ℕ → S → L → S → L → Prop

namespace Threads

/-- The shared state, and where each thread is. -/
structure State (S L : Type) where
  shared : S
  thread : ℕ → L

/-- A step of the environment or of one of the threads. -/
inductive Step (T : Threads S L) : State S L → State S L → Prop where
  | env {s s' : S} {ls : ℕ → L} : T.env s s' → T.Step ⟨s, ls⟩ ⟨s', ls⟩
  | thread {s s' : S} {ls : ℕ → L} (i : ℕ) {l' : L} :
    T.step i s (ls i) s' l' → T.Step ⟨s, ls⟩ ⟨s', Function.update ls i l'⟩

/-- The interleavings, as a transition system. -/
def system (T : Threads S L) : System (State S L) where
  init s := T.init s.shared ∧ s.thread = fun _ => T.start
  step := T.Step

/-- **The invariant rule for threads.** The claim `G` on the shared state and
the claims `P` on the threads hold always, if they do initially, if the
environment keeps them, if the step of a thread establishes `G` and its own
`P`, and if it keeps the `P` of every other thread. -/
theorem invariant {T : Threads S L} {G : S → Prop} {P : ℕ → S → L → Prop}
    (hinit : ∀ s, T.init s → G s ∧ ∀ i, P i s T.start)
    (henv : ∀ s s', T.env s s' → G s → G s' ∧ ∀ i l, P i s l → P i s' l)
    (hstep : ∀ i s l s' l', T.step i s l s' l' → G s → P i s l → G s' ∧ P i s' l')
    (hother : ∀ i s l s' l', T.step i s l s' l' → P i s l →
      ∀ j m, j ≠ i → P j s m → P j s' m)
    {s : State S L} (h : T.system.Reachable s) :
    G s.shared ∧ ∀ i, P i s.shared (s.thread i) := by
  refine h.invariant (I := fun s => G s.shared ∧ ∀ i, P i s.shared (s.thread i)) ?_ ?_
  · rintro ⟨s, ls⟩ ⟨hs, hls⟩
    cases hls
    exact hinit s hs
  · rintro _ _ - ⟨hG, hP⟩ (⟨henv'⟩ | ⟨i, hi⟩)
    · exact ⟨(henv _ _ henv' hG).1, fun j => (henv _ _ henv' hG).2 j _ (hP j)⟩
    · refine ⟨(hstep _ _ _ _ _ hi hG (hP i)).1, fun j => ?_⟩
      dsimp only
      by_cases hj : j = i
      · subst hj
        rw [Function.update_self]
        exact (hstep _ _ _ _ _ hi hG (hP j)).2
      · rw [Function.update_of_ne hj]
        exact hother _ _ _ _ _ hi (hP i) j _ hj (hP j)

/-- Some steps of thread `i` in a row. -/
def Run (T : Threads S L) (i : ℕ) : S × L → S × L → Prop :=
  Relation.ReflTransGen (fun a b => T.step i a.1 a.2 b.1 b.2)

theorem Run.step {T : Threads S L} {i : ℕ} {s s' : S} {l l' : L} {b : S × L}
    (h : T.step i s l s' l') (hrun : T.Run i (s', l') b) : T.Run i (s, l) b :=
  .head h hrun

/-- A thread may be left to run on its own. -/
theorem reachable_of_run {T : Threads S L} {i : ℕ} {s : S} {ls : ℕ → L} {b : S × L}
    (h : T.system.Reachable ⟨s, ls⟩) (hrun : T.Run i (s, ls i) b) :
    T.system.Reachable ⟨b.1, Function.update ls i b.2⟩ := by
  induction hrun with
  | refl =>
    rw [Function.update_eq_self]
    exact h
  | @tail b c _ hstep ih =>
    have hnext : T.Step ⟨b.1, Function.update ls i b.2⟩
        ⟨c.1, Function.update (Function.update ls i b.2) i c.2⟩ :=
      .thread i (by rw [Function.update_self]; exact hstep)
    rw [Function.update_idem] at hnext
    exact .step ih hnext

/-- A step of one thread on the way to where the system can get. -/
theorem can_step {T : Threads S L} {i : ℕ} {s s' : S} {ls : ℕ → L} {l l' : L}
    {Q : State S L → Prop} (hl : ls i = l) (h : T.step i s l s' l')
    (hQ : T.system.Can Q ⟨s', Function.update ls i l'⟩) : T.system.Can Q ⟨s, ls⟩ := by
  subst hl
  exact .step (Step.thread i h) hQ

end Threads
