import Mathlib

/-!
# Calls that read a shared register

A call reads a shared register some number of times and returns a value,
while others store into the register whenever they like. `Call` is such a
computation, one constructor per load, and `Call.Runs` is what it can do: in
between any two of its steps the register may be stored to, any number of
times.

The question asked of a call is whether it takes *one snapshot*: whether
whatever it returns, it would have returned on one single value that the
register held at some moment during the call (`Call.SingleSnapshot`). A call
that loads once does. A call that loads twice does not by itself, and
`Call.runs_load` and `Call.runs_store_between` are the two sides of what it
does instead: every result comes from values the register held in that order,
and any two values can be loaded in turn. Calls that follow each other are taken
apart by `Call.Runs.of_bind`, and a call on one of several registers is a call on
all of them (`Call.zoom`).
-/

variable {σ α β : Type}

/-- **A call that loads a register holding a `σ`.** -/
inductive Call (σ α : Type) where
  /-- Return a value. -/
  | ret (a : α)
  /-- Load the register, and go on with what it held. -/
  | load (k : σ → Call σ α)

namespace Call

/-- One load, as a call of its own. -/
def read (f : σ → α) : Call σ α := load (fun s => ret (f s))

/-- Sequencing. -/
def bind : Call σ α → (α → Call σ β) → Call σ β
  | ret a, f => f a
  | load k, f => load (fun s => (k s).bind f)

instance : Monad (Call σ) where
  pure := ret
  bind := bind

/-- **The call on a register that nobody stores to.** -/
def eval (s : σ) : Call σ α → α
  | ret a => a
  | load k => (k s).eval s

@[simp] theorem eval_ret (s : σ) (a : α) : (ret a : Call σ α).eval s = a := rfl

@[simp] theorem eval_pure (s : σ) (a : α) : (pure a : Call σ α).eval s = a := rfl

@[simp] theorem eval_bind (s : σ) (c : Call σ α) (f : α → Call σ β) :
    (c >>= f).eval s = (f (c.eval s)).eval s := by
  induction c with
  | ret a => rfl
  | load k ih => exact ih s

theorem bind_bind {γ : Type} (c : Call σ α) (f : α → Call σ β) (g : β → Call σ γ) :
    (c >>= f) >>= g = c >>= fun a => f a >>= g := by
  induction c with
  | ret a => rfl
  | load k ih => exact congrArg load (funext ih)

/-- **The runs of a call.** `Runs c s held a`: started when the register holds
`s`, the call can return `a`, the register holding the values `held`, in this
order, from the start of the call to its return. -/
inductive Runs : Call σ α → σ → List σ → α → Prop where
  | ret (a : α) (s : σ) : Runs (.ret a) s [s] a
  | load {k : σ → Call σ α} {s : σ} {held : List σ} {a : α} :
      Runs (k s) s held a → Runs (.load k) s held a
  | store {c : Call σ α} {s s' : σ} {held : List σ} {a : α} :
      Runs c s' held a → Runs c s (s :: held) a

/-- **One snapshot per call**: whatever the call returns, it would have
returned on one value that the register held during the call. Only runs
during which the register holds values in `P` are asked about. -/
def SingleSnapshot (P : σ → Prop) (c : Call σ α) : Prop :=
  ∀ s held a, c.Runs s held a → (∀ t ∈ held, P t) → ∃ t ∈ held, a = c.eval t

/-- The register holds something at the start of a call. -/
theorem Runs.mem_held {c : Call σ α} {s : σ} {held : List σ} {a : α}
    (h : c.Runs s held a) : s ∈ held := by
  induction h with
  | ret a s => exact List.mem_singleton_self s
  | load _ ih => exact ih
  | store _ _ => exact List.mem_cons_self

theorem Runs.eq_of_ret {b a : α} {s : σ} {held : List σ}
    (h : (Call.ret b : Call σ α).Runs s held a) : a = b := by
  generalize hc : (Call.ret b : Call σ α) = c at h
  induction h with
  | ret a s => exact (Call.ret.inj hc).symm
  | load _ _ => cases hc
  | store _ ih => exact ih hc

/-- **What a load reads, the register held**: a run of a call that starts with
a load goes on from a value of the register, with what the register held from
then on. -/
theorem runs_load {k : σ → Call σ α} {s : σ} {held : List σ} {a : α}
    (h : (load k).Runs s held a) :
    ∃ t ∈ held, ∃ held', held' <:+ held ∧ (k t).Runs t held' a := by
  generalize hc : (load k : Call σ α) = c at h
  induction h with
  | ret a s => cases hc
  | @load k' s held a hrun _ =>
    cases hc
    exact ⟨s, hrun.mem_held, held, List.suffix_rfl, hrun⟩
  | @store c s s' held a _ ih =>
    obtain ⟨t, ht, held', hsuf, hrun⟩ := ih hc
    exact ⟨t, List.mem_cons_of_mem s ht, held', hsuf.trans (List.suffix_cons s held), hrun⟩

/-- A call may load all that it loads before the register is stored to. -/
theorem runs_eval_head (c : Call σ α) (s : σ) (after : List σ) :
    c.Runs s (s :: after) (c.eval s) := by
  induction c with
  | ret a =>
    induction after generalizing s with
    | nil => exact .ret a s
    | cons s' after ih => exact .store (ih s')
  | load k ih => exact .load (ih s)

/-- A call on a quiet register runs as it evaluates. -/
theorem runs_eval (c : Call σ α) (s : σ) : c.Runs s [s] (c.eval s) := c.runs_eval_head s []

/-- And it may load nothing before the last store. -/
theorem runs_eval_getLast (c : Call σ α) (s : σ) (after : List σ) :
    c.Runs s (s :: after) (c.eval ((s :: after).getLast (List.cons_ne_nil s after))) := by
  induction after generalizing s with
  | nil => exact c.runs_eval s
  | cons s' after ih => exact .store (ih s')

/-- And so it does when whatever is stored is what was there. -/
theorem Runs.eq_eval {c : Call σ α} {s v : σ} {held : List σ} {a : α}
    (h : c.Runs s held a) (hheld : ∀ t ∈ held, t = v) : a = c.eval v := by
  induction h with
  | ret a s => rfl
  | @load k s held a hrun ih =>
    rw [ih hheld, hheld s hrun.mem_held]
    rfl
  | store _ ih => exact ih (fun t ht => hheld t (List.mem_cons_of_mem _ ht))

/-- **Stores between two loads**: the first load reads `s`, and the rest of
the call runs on what was stored last. -/
theorem runs_store_between (k : σ → Call σ α) (s : σ) (after : List σ) :
    (load k).Runs s (s :: after)
      ((k s).eval ((s :: after).getLast (List.cons_ne_nil s after))) :=
  .load (runs_eval_getLast (k s) s after)

/-- **A call that loads once takes one snapshot.** -/
theorem singleSnapshot_read (P : σ → Prop) (f : σ → α) :
    (read f).SingleSnapshot P := by
  intro s held a h _
  obtain ⟨t, ht, held', -, hrun⟩ := runs_load h
  exact ⟨t, ht, hrun.eq_of_ret⟩

/-- A call that loads nothing takes one snapshot, any one. -/
theorem singleSnapshot_ret (P : σ → Prop) (b : α) :
    (ret b : Call σ α).SingleSnapshot P :=
  fun s _ _ h _ => ⟨s, h.mem_held, h.eq_of_ret⟩

theorem Runs.of_bind_ret {c : Call σ α} {g : α → β} {s : σ} {held : List σ}
    {b : β} (h : (c >>= fun a => Call.ret (g a)).Runs s held b) :
    ∃ a, c.Runs s held a ∧ b = g a := by
  generalize hd : (c >>= fun a => Call.ret (g a)) = d at h
  induction h generalizing c with
  | ret b s =>
    cases c with
    | ret a => exact ⟨a, .ret a s, (Call.ret.inj hd).symm⟩
    | load k => cases hd
  | load _ ih =>
    cases c with
    | ret a => cases hd
    | load k =>
      obtain ⟨a, hrun, hb⟩ := ih (c := k _) (congrFun (Call.load.inj hd) _)
      exact ⟨a, .load hrun, hb⟩
  | store _ ih =>
    obtain ⟨a, hrun, hb⟩ := ih hd
    exact ⟨a, .store hrun, hb⟩

theorem Runs.bind_ret {c : Call σ α} {s : σ} {held : List σ} {a : α} (h : c.Runs s held a)
    (g : α → β) : (c >>= fun a => Call.ret (g a)).Runs s held (g a) := by
  induction h with
  | ret a s => exact .ret (g a) s
  | load _ ih => exact .load ih
  | store _ ih => exact .store ih

/-- Computing with the result of a call adds no load. -/
theorem SingleSnapshot.bind_ret {P : σ → Prop} {c : Call σ α}
    (hc : c.SingleSnapshot P) (g : α → β) :
    (c >>= fun a => ret (g a)).SingleSnapshot P := by
  intro s held b h hP
  obtain ⟨a, hrun, rfl⟩ := h.of_bind_ret
  obtain ⟨t, ht, rfl⟩ := hc s held a hrun hP
  exact ⟨t, ht, by rw [eval_bind, eval_ret]⟩

/-- **Two snapshots at most**: a load followed by a call that takes one
snapshot returns what it would on two values that the register held, the
first for the load and the second for the rest. -/
theorem exists_snapshots_of_load {P : σ → Prop} {k : σ → Call σ α}
    (hk : ∀ t, P t → (k t).SingleSnapshot P) {s : σ} {held : List σ} {a : α}
    (h : (load k).Runs s held a) (hP : ∀ t ∈ held, P t) :
    ∃ t₁ ∈ held, ∃ t₂ ∈ held, a = (k t₁).eval t₂ := by
  obtain ⟨t₁, ht₁, held', hsuf, hrun⟩ := runs_load h
  obtain ⟨t₂, ht₂, ha⟩ := hk t₁ (hP t₁ ht₁) t₁ held' a hrun
    (fun t ht => hP t (hsuf.subset ht))
  exact ⟨t₁, ht₁, t₂, hsuf.subset ht₂, ha⟩

/-- The register holds its first value at the start of a call. -/
theorem Runs.held_eq_cons {c : Call σ α} {s : σ} {held : List σ} {a : α}
    (h : c.Runs s held a) : ∃ after, held = s :: after := by
  induction h with
  | ret a s => exact ⟨[], rfl⟩
  | load _ ih => exact ih
  | @store c s s' held a _ _ => exact ⟨held, rfl⟩

/-- **One call after another**: there is a moment at which the first one has returned
and the second one has loaded nothing yet. -/
theorem Runs.of_bind {c : Call σ α} {f : α → Call σ β} {s : σ} {held : List σ} {b : β}
    (h : (c >>= f).Runs s held b) :
    ∃ a before t after, held = before ++ t :: after ∧ c.Runs s (before ++ [t]) a
      ∧ (f a).Runs t (t :: after) b := by
  have hret : ∀ (a : α) {s : σ} {held : List σ} {b : β}, (f a).Runs s held b →
      ∃ a' before t after, held = before ++ t :: after
        ∧ (Call.ret a : Call σ α).Runs s (before ++ [t]) a' ∧ (f a').Runs t (t :: after) b := by
    intro a s held b hrun
    obtain ⟨after, rfl⟩ := hrun.held_eq_cons
    exact ⟨a, [], s, after, rfl, .ret a s, hrun⟩
  generalize hd : (c >>= f) = d at h
  induction h generalizing c with
  | ret b s =>
    cases c with
    | ret a =>
      have hf : f a = .ret b := hd
      refine hret a ?_
      rw [hf]
      exact .ret b s
    | load k => cases hd
  | @load k' s held b hrun ih =>
    cases c with
    | ret a =>
      have hf : f a = .load k' := hd
      refine hret a ?_
      rw [hf]
      exact hrun.load
    | load k =>
      cases hd
      obtain ⟨a, before, t, after, rfl, hc, hf⟩ := ih (c := k s) rfl
      exact ⟨a, before, t, after, rfl, hc.load, hf⟩
  | @store d s s' held b _ ih =>
    obtain ⟨a, before, t, after, rfl, hc, hf⟩ := ih hd
    exact ⟨a, s :: before, t, after, rfl, hc.store, hf⟩

/-- And such a moment is all it takes. -/
theorem Runs.bind {c : Call σ α} {f : α → Call σ β} {s t : σ} (before : List σ)
    {after : List σ} {a : α} {b : β} (hc : c.Runs s (before ++ [t]) a)
    (hf : (f a).Runs t (t :: after) b) :
    (c >>= f).Runs s (before ++ t :: after) b := by
  generalize hheld : before ++ [t] = held at hc
  induction hc generalizing before with
  | ret a s =>
    obtain ⟨rfl, rfl⟩ : before = [] ∧ t = s := by
      cases before with
      | nil => exact ⟨rfl, (List.cons.inj hheld).1⟩
      | cons x before => exact absurd (List.cons.inj hheld).2 (by simp)
    exact hf
  | load _ ih => exact .load (ih before hf hheld)
  | @store c s s' held a hrun ih =>
    cases before with
    | nil =>
      obtain ⟨after', rfl⟩ := hrun.held_eq_cons
      exact absurd (List.cons.inj hheld).2 (by simp)
    | cons x before =>
      obtain ⟨rfl, hrest⟩ := List.cons.inj hheld
      exact .store (ih before hf hrest)

/-- **A call on one of several registers**, as a call on all of them. -/
def zoom {τ : Type} (get : τ → σ) : Call σ α → Call τ α
  | ret a => ret a
  | load k => load (fun t => (k (get t)).zoom get)

/-- It sees what this register holds. -/
theorem Runs.of_zoom {τ : Type} {get : τ → σ} {c : Call σ α} {t : τ} {held : List τ} {a : α}
    (h : (c.zoom get).Runs t held a) : c.Runs (get t) (held.map get) a := by
  generalize hd : c.zoom get = d at h
  induction h generalizing c with
  | ret a t =>
    cases c with
    | ret a' =>
      cases hd
      exact .ret a (get t)
    | load k => cases hd
  | @load k' t held a _ ih =>
    cases c with
    | ret a' => cases hd
    | load k =>
      cases hd
      exact .load (ih rfl)
  | store _ ih => exact .store (ih hd)

/-- Whatever the call reads, what it returns is in `P`. -/
def Always (P : α → Prop) : Call σ α → Prop
  | ret a => P a
  | load k => ∀ s, (k s).Always P

theorem Runs.always {P : α → Prop} {c : Call σ α} {s : σ} {held : List σ} {a : α}
    (h : c.Runs s held a) (hc : c.Always P) : P a := by
  induction h with
  | ret a s => exact hc
  | @load k s held a _ ih => exact ih (hc s)
  | store _ ih => exact ih hc

theorem Always.bind {P : α → Prop} {Q : β → Prop} {c : Call σ α} {f : α → Call σ β}
    (hc : c.Always P) (hf : ∀ a, P a → (f a).Always Q) : (c >>= f).Always Q := by
  induction c with
  | ret a => exact hf a hc
  | load k ih => exact fun s => ih s (hc s)

theorem always_true (c : Call σ α) : c.Always (fun _ => True) := by
  induction c with
  | ret a => trivial
  | load k ih => exact fun s => ih s

/-- Whatever the call reads among the values in `S`, what it returns is in
`P`. -/
def AlwaysOn (S : σ → Prop) (P : α → Prop) : Call σ α → Prop
  | ret a => P a
  | load k => ∀ s, S s → (k s).AlwaysOn S P

theorem Runs.alwaysOn {S : σ → Prop} {P : α → Prop} {c : Call σ α} {s : σ}
    {held : List σ} {a : α} (h : c.Runs s held a) (hheld : ∀ t ∈ held, S t)
    (hc : c.AlwaysOn S P) : P a := by
  induction h with
  | ret a s => exact hc
  | @load k s held a hrun ih => exact ih hheld (hc s (hheld s hrun.mem_held))
  | store _ ih => exact ih (fun t ht => hheld t (List.mem_cons_of_mem _ ht)) hc

theorem AlwaysOn.bind {S : σ → Prop} {P : α → Prop} {Q : β → Prop} {c : Call σ α}
    {f : α → Call σ β} (hc : c.AlwaysOn S P) (hf : ∀ a, P a → (f a).AlwaysOn S Q) :
    (c >>= f).AlwaysOn S Q := by
  induction c with
  | ret a => exact hf a hc
  | load k ih => exact fun s hs => ih s (hc s hs)

end Call
