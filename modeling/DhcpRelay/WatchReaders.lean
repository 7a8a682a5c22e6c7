import DhcpRelay.WatchConverges
import DhcpRelay.Register

/-!
# Readers of a watched file

A reader loads the snapshot without a lock, as often as it likes and at any moment,
while the watcher goes on (`pkg/filewatch`, `Snapshot`). To a reader the watcher is a
register that others store to, and what the register holds during a call is read off
the states that the watcher goes through (`Reads`).

What a reader gets at any moment is what the parser makes of one whole content that
the file had, even while a reload is under way (`snapshot_whole`). `Reads.held` says
this of every value that is loaded during a call. Once the watcher has converged to the
file in place, a call is one on a fixed snapshot (`Reads.of_converged`).
-/

namespace FileWatch

variable {β T α : Type} {w : Config β T}

theorem Step.accepted_subset {i : ℕ} {sh sh' : Shared β T} {pc pc' : Pc β T}
    (h : Step w i sh pc sh' pc') : sh.accepted ⊆ sh'.accepted := by
  cases h with
  | accepts => exact List.subset_cons_self _ _
  | _ => exact List.Subset.refl _

/-- **What is loaded is whole at every moment.** The snapshot is what the parser
makes of a whole content that the file had, and it was validated where there is a
validation. -/
theorem snapshot_whole {s : Threads.State (Shared β T) (Pc β T)}
    (h : (watching w).system.Reachable s) {t : T} (ht : s.shared.snapshot = some t) :
    ∃ info, Whole w s.shared.disk info t ∧ (w.validate = true → t ∈ s.shared.accepted) := by
  revert t
  refine h.invariant (I := fun s => ∀ {t : T}, s.shared.snapshot = some t →
    ∃ info, Whole w s.shared.disk info t ∧ (w.validate = true → t ∈ s.shared.accepted)) ?_ ?_
  · rintro ⟨_, ls⟩ ⟨⟨disk, rfl⟩, -⟩ t ht
    cases ht
  · rintro _ _ hr hI (@⟨sh, sh', ls, disk', hd, rfl⟩ | @⟨sh, sh', ls, i, pc', hstep⟩) t ht
    · obtain ⟨info, hw, ha⟩ := hI ht
      exact ⟨info, hw.mono hd.history_subset, ha⟩
    · have hl := (sound_of_reachable hr).2 i
      dsimp only at hI ht hl ⊢
      rw [hstep.disk_eq]
      rcases hstep.snapshot with heq | ⟨job, info, t', warnings, hpc, ht'⟩
      · obtain ⟨info, hw, ha⟩ := hI (heq.symm.trans ht)
        exact ⟨info, hw, fun hv => hstep.accepted_subset (ha hv)⟩
      · cases ht'.symm.trans ht
        rw [hpc] at hl
        exact ⟨info, hl.2.1, fun hv => hstep.accepted_subset (hl.2.2 hv)⟩

/-- **A call that reads the snapshot beside the watcher**, which goes through the
states `s :: rest` from the start of the call to its return. -/
structure Reads (w : Config β T) (c : Call (Option T) α)
    (s : Threads.State (Shared β T) (Pc β T)) (rest : List (Threads.State (Shared β T) (Pc β T)))
    (a : α) : Prop where
  reachable : (watching w).system.Reachable s
  started : s.shared.started = true
  chain : (s :: rest).IsChain (watching w).system.step
  runs : c.Runs s.shared.snapshot ((s :: rest).map (fun s => s.shared.snapshot)) a

namespace Reads

variable {c : Call (Option T) α} {s : Threads.State (Shared β T) (Pc β T)}
  {rest : List (Threads.State (Shared β T) (Pc β T))} {a : α}

/-- A watcher that `New` has returned stays so. -/
theorem started_of_mem (h : Reads w c s rest a) :
    ∀ st ∈ s :: rest, st.shared.started = true := by
  have hstep : ∀ st st' : Threads.State (Shared β T) (Pc β T), (watching w).system.step st st' →
      st.shared.started = true → st'.shared.started = true := by
    rintro _ _ (⟨disk', -, rfl⟩ | ⟨i, hi⟩) hst
    · exact hst
    · exact hi.started_of hst
  exact h.chain.induction _ _ (fun {st st'} hs hst => hstep st st' hs hst) (fun _ => h.started)

/-- **Whatever is loaded during the call was read from the file as a whole.** -/
theorem held (h : Reads w c s rest a) {x : Option T}
    (hx : x ∈ (s :: rest).map (fun s => s.shared.snapshot)) :
    ∃ st ∈ s :: rest, ∃ t info, x = some t ∧ st.shared.snapshot = some t
      ∧ Whole w st.shared.disk info t ∧ (w.validate = true → t ∈ st.shared.accepted) := by
  obtain ⟨st, hst, rfl⟩ := List.mem_map.mp hx
  have hr := h.reachable.of_isChain h.chain st hst
  obtain ⟨t, ht⟩ := Option.ne_none_iff_exists'.mp
    ((sound_of_reachable hr).1.snap_of_started (h.started_of_mem st hst))
  obtain ⟨info, hw, ha⟩ := snapshot_whole hr ht
  exact ⟨st, hst, t, info, ht, ht, hw, ha⟩

/-- There is a snapshot throughout the call. -/
theorem isSome (h : Reads w c s rest a) :
    ∀ x ∈ (s :: rest).map (fun s => s.shared.snapshot), x.isSome = true := by
  intro x hx
  obtain ⟨st, -, t, info, rfl, -⟩ := h.held hx
  rfl

/-- **A call on a watcher that has converged** is a call on the snapshot of the file in
place, as long as the disk is quiet. -/
theorem of_converged {d : Disk β} {j : ℕ} {f : File β} {t : T} (h : Reads w c s rest a)
    (hd : InPlace w d j f t) (hc : Converged w d j f t s)
    (hquiet : (s :: rest).IsChain (Quiet w)) : a = c.eval (some t) := by
  have hall : ∀ st ∈ s :: rest, (watching w).system.Reachable st ∧ Converged w d j f t st :=
    hquiet.induction _ _ (fun {_ _} hq hst => ⟨hst.1.step hq.step, hq.converged hst.1 hd hst.2⟩)
      (fun _ => ⟨h.reachable, hc⟩)
  refine h.runs.eq_eval fun x hx => ?_
  obtain ⟨st, hst, rfl⟩ := List.mem_map.mp hx
  exact (hall st hst).2.snap

end Reads

/-! ## A watcher that is read -/

/-- A call while the watcher does nothing. -/
theorem reads_eval {s : Threads.State (Shared β T) (Pc β T)}
    (hr : (watching w).system.Reachable s) (hst : s.shared.started = true)
    (c : Call (Option T) α) : Reads w c s [] (c.eval s.shared.snapshot) :=
  ⟨hr, hst, List.isChain_singleton _, c.runs_eval _⟩

/-- **A call during a reload**: the watcher goes through states that have the one content
loaded or the other, at first the first one and in the end the second one. -/
theorem Reloading.exists_reads {w : Config Char T} {text₀ text₁ : Text} {t₀ t₁ : T}
    {s s' : Threads.State (Shared Char T) (Pc Char T)} (h : Reloading w text₀ text₁ t₀ t₁ s s') :
    ∃ rest : List (Threads.State (Shared Char T) (Pc Char T)),
      (∀ st ∈ s :: rest, st.shared.snapshot = some t₀ ∨ st.shared.snapshot = some t₁)
        ∧ (∃ st ∈ rest, st.shared.snapshot = some t₁)
        ∧ (some t₀ :: rest.map (fun st => st.shared.snapshot)).getLast (List.cons_ne_nil _ _)
          = some t₁
        ∧ ∀ {α : Type} {c : Call (Option T) α} {a : α},
          c.Runs (some t₀) (some t₀ :: rest.map (fun st => st.shared.snapshot)) a →
            Reads w c s rest a := by
  obtain ⟨rest, hquiet, hlast⟩ := List.exists_isChain_cons_of_relationReflTransGen h.poll.quiet
  have hmap : (s :: rest).map (fun st => st.shared.snapshot)
      = some t₀ :: rest.map (fun st => st.shared.snapshot) := by rw [List.map_cons, h.snap]
  have hreads : ∀ {α : Type} {c : Call (Option T) α} {a : α},
      c.Runs (some t₀) (some t₀ :: rest.map (fun st => st.shared.snapshot)) a →
        Reads w c s rest a := by
    intro α c a hrun
    refine ⟨h.reachable, h.started, hquiet.imp fun _ _ hq => hq.step, ?_⟩
    rw [hmap, h.snap]
    exact hrun
  have hsnap' : s'.shared.snapshot = some t₁ :=
    poll_converges w h.reachable h.place h.polled h.poll h.idle .refl
  refine ⟨rest, fun st hst => ?_, ⟨s', ?_, hsnap'⟩, ?_, hreads⟩
  · -- what is published was read from one of the two contents
    have hdisk : ∀ st ∈ s :: rest, st.shared.disk = s.shared.disk :=
      hquiet.induction _ _ (fun {_ _} hq hst => hq.disk_eq.trans hst) (fun _ => rfl)
    obtain ⟨st', hst', t, info, hsnap, -, ⟨c, hc, hparses⟩, -⟩ :=
      (hreads (Call.runs_eval_head (.ret ()) _ _)).held (List.mem_map_of_mem hst)
    rw [hdisk st' hst'] at hc
    rw [hsnap, Option.some.injEq, Option.some.injEq]
    rcases h.texts _ hc with rfl | rfl
    · exact .inl (hparses.unique h.parses)
    · exact .inr (hparses.unique h.place.parses)
  · -- the poll is over, so that some step was taken
    have hmem := List.getLast_mem (List.cons_ne_nil s rest)
    rw [hlast] at hmem
    refine (List.mem_cons.mp hmem).resolve_left fun heq => ?_
    have hidle := h.idle
    rw [heq, h.polled] at hidle
    cases hidle
  · simp only [← hmap, List.getLast_map, hlast, hsnap']

end FileWatch
