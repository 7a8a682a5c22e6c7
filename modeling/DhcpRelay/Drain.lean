import DhcpRelay.Pool

/-!
# The shutdown ends

`Pool` says what the shutdown never does: the socket is not closed under a handler.
This module says that it comes to an end (`main.go`, the drain of the main loop and
`waitForHandlers`).

Once the context is cancelled, whatever the main loop is at and whatever the handlers
are doing, the process can get to where every handler is done, the socket is closed
and the loop has returned, with no help from outside (`Own`): no further packet, no
second signal and no grace timer is needed, and nothing has to panic. What it needs is
that no goroutine waits for something that does not come: a handler that has ended finds
its token in the channel, and the wait group counts it.

Nor can it go on for ever. `State.rank` bounds what is left to do from the moment the
loop waits for the handlers: each step of the process takes it down, and only signals
and the timer, which the process does not make itself, leave it as it is.
-/

namespace Pool

open Dhcp

variable {P α : Type} {max : ℕ} {judge : P → Option α → Prop} {s s' : State P α}

/-! ## What is left to do -/

/-- The steps that a handler has before it, at most. -/
def Phase.rank : Phase → ℕ
  | .ready => 5
  | .running => 4
  | .panicked => 3
  | .returned => 2
  | .released => 1
  | .done => 0

/-- The steps of the goroutine of `waitForHandlers`. -/
def Waiter.rank : Waiter → ℕ
  | .none => 2
  | .waiting => 1
  | .done => 0

/-- The steps of the main goroutine, once it has left the loop. -/
def MainPc.rank : MainPc P α → ℕ
  | .draining => 2
  | .drained _ => 1
  | _ => 0

/-- What all handlers together have before them. -/
def State.work (s : State P α) : ℕ := (s.handlers.map (fun h => h.phase.rank)).sum

/-- **What is left to do** once the loop is left. -/
def State.rank (s : State P α) : ℕ := s.work + s.waiter.rank + s.pc.rank

/-- **What comes from outside**: the signals, and the end of the grace period. -/
inductive Event : State P α → State P α → Prop where
  | signal {s : State P α} : Event s { s with ctxDone := true }
  | secondSignal {s : State P α} : Event s { s with forceQuit := true }
  | expire {s : State P α} : Event s { s with expired := true }

/-- **A run with `n` steps of the process itself**, among any number of events from
outside. -/
inductive Takes (max : ℕ) (judge : P → Option α → Prop) (s : State P α) :
    ℕ → State P α → Prop where
  | refl : Takes max judge s 0 s
  | event {n : ℕ} {s' s'' : State P α} : Takes max judge s n s' → Event s' s'' →
      Takes max judge s n s''
  | step {n : ℕ} {s' s'' : State P α} : Takes max judge s n s' → Step max judge s' s'' →
      ¬ Event s' s'' → Takes max judge s (n + 1) s''

theorem Phase.Moves.rank_lt {a b : Phase} (h : a.Moves b) : b.rank < a.rank := by
  cases h
  all_goals exact Nat.lt_of_sub_eq_succ rfl

/-- One handler has less before it. -/
theorem work_move {l r : List (Handler α)} {h : Handler α} {ph : Phase}
    (hlt : ph.rank < h.phase.rank) (hs : s.handlers = l ++ h :: r)
    (hs' : s'.handlers = l ++ { h with phase := ph } :: r) : s'.work < s.work := by
  unfold State.work
  rw [hs, hs']
  simp only [List.map_append, List.map_cons, List.sum_append, List.sum_cons]
  omega

/-- **A step after the loop**: it is made from outside, or there is less to do after
it. -/
theorem Step.rank_lt (h : Step max judge s s') (hl : s.pc.leaving) :
    s'.pc.leaving ∧ (Event s s' ∨ s'.rank < s.rank) := by
  cases h with
  | signal => exact ⟨hl, .inl .signal⟩
  | secondSignal => exact ⟨hl, .inl .secondSignal⟩
  | expire => exact ⟨hl, .inl .expire⟩
  | @move l r h ph heq hmove =>
    have hlt : State.work { s with handlers := l ++ { h with phase := ph } :: r } < s.work :=
      work_move hmove.rank_lt heq rfl
    refine ⟨hl, .inr ?_⟩
    unfold State.rank
    exact Nat.add_lt_add_right (Nat.add_lt_add_right hlt _) _
  | @release l r h heq hph hpos =>
    have hlt : State.work { s with
        sem := s.sem - 1, handlers := l ++ { h with phase := .released } :: r } < s.work :=
      work_move (by rw [hph]; decide) heq rfl
    refine ⟨hl, .inr ?_⟩
    unfold State.rank
    exact Nat.add_lt_add_right (Nat.add_lt_add_right hlt _) _
  | @finish l r h heq hph hpos =>
    have hlt : State.work { s with
        wg := s.wg - 1, handlers := l ++ { h with phase := .done } :: r } < s.work :=
      work_move (by rw [hph]; decide) heq rfl
    refine ⟨hl, .inr ?_⟩
    unfold State.rank
    exact Nat.add_lt_add_right (Nat.add_lt_add_right hlt _) _
  | waited hw hwg =>
    refine ⟨hl, .inr ?_⟩
    simp only [State.rank, hw]
    exact Nat.add_lt_add_right (Nat.add_lt_add_left (by decide) _) _
  | completed hpc | forced hpc | timedOut hpc =>
    refine ⟨trivial, .inr ?_⟩
    simp only [State.rank, hpc]
    exact Nat.add_lt_add_left Nat.one_lt_two _
  | close hpc | leave hpc =>
    refine ⟨trivial, .inr ?_⟩
    simp only [State.rank, hpc]
    exact Nat.add_lt_add_left Nat.zero_lt_one _
  | receive _ hpc | readError hpc | shutdown hpc | refuse hpc | panic hpc | pass hpc | acquire hpc
  | drop hpc | logged hpc | add hpc | go hpc =>
    rw [hpc] at hl
    exact hl.elim

/-- Events from outside leave what is left to do as it is. -/
theorem Event.rank_eq (h : Event s s') : s'.rank = s.rank ∧ s'.pc = s.pc := by
  cases h
  all_goals exact ⟨rfl, rfl⟩

/-- **There is an end to it**: by induction on the run. -/
theorem Takes.rank_le {n : ℕ} (h : Takes max judge s n s') (hl : s.pc.leaving) :
    s'.pc.leaving ∧ n + s'.rank ≤ s.rank := by
  induction h with
  | refl => exact ⟨hl, (Nat.zero_add _).le⟩
  | event _ he ih =>
    obtain ⟨hrank, hpc⟩ := he.rank_eq
    rw [hrank, hpc]
    exact ih
  | step _ hstep hne ih =>
    obtain ⟨hl', hev | hlt⟩ := hstep.rank_lt ih.1
    · exact absurd hev hne
    · exact ⟨hl', by omega⟩

/-! ## Nobody waits in vain -/

/-- **A step of the process itself**: it is not made from outside, no packet is received,
and a packet that is dropped before it is admitted is one that was refused. -/
structure Own (max : ℕ) (judge : P → Option α → Prop) (s s' : State P α) : Prop where
  step : Step max judge s s'
  inside : ¬ Event s s'
  receives : ∀ p, s'.pc ≠ .received p ∨ s.pc = .received p
  refused : ∀ p, s.pc = .received p → s'.pc = .receiving → judge p none

/-- The process left to itself, from any moment on. -/
def winding (max : ℕ) (judge : P → Option α → Prop) : System (State P α) where
  init := (pool max judge).Reachable
  step := Own max judge

theorem reachable_of_winding (h : (winding max judge).Reachable s) :
    (pool max judge).Reachable s := by
  induction h with
  | init h => exact h
  | step _ hown ih => exact ih.step hown.step

/-- A step of the main goroutine is one of the process itself, unless it receives a
packet or drops one that was not refused. -/
theorem own_of_pc_ne (h : Step max judge s s') (hne : s'.pc ≠ s.pc)
    (hreceives : ∀ p, s'.pc ≠ .received p)
    (hrefused : ∀ p, s.pc = .received p → s'.pc = .receiving → judge p none) :
    Own max judge s s' :=
  ⟨h, fun hev => hne hev.rank_eq.2, fun p => .inl (hreceives p), hrefused⟩

/-- A step of a handler or of the waiting goroutine is one of the process itself. -/
theorem own_of_rank_lt (h : Step max judge s s') (hpc : s'.pc = s.pc)
    (hlt : s'.rank < s.rank) : Own max judge s s' where
  step := h
  inside := fun hev => absurd hev.rank_eq.1 (ne_of_lt hlt)
  receives := by
    intro p
    rw [hpc]
    exact (ne_or_eq _ _)
  refused := by
    intro p hp hp'
    rw [hpc, hp] at hp'
    cases hp'

/-- Whoever has left the loop has somebody wait for the handlers. -/
theorem waiter_of_leaving (h : (pool max judge).Reachable s) :
    s.pc.leaving → s.waiter ≠ .none := by
  refine h.invariant (I := fun s => s.pc.leaving → s.waiter ≠ .none) ?_ ?_
  · rintro s rfl hl
    exact hl.elim
  · intro s s' _ hI hstep
    cases hstep with
    | shutdown => simp
    | waited => simp
    | completed hpc | forced hpc | timedOut hpc | close hpc | leave hpc =>
      rw [hpc] at hI
      exact fun _ => hI trivial
    | _ => simp_all [MainPc.leaving]

/-- The handlers go on, and everything else stays. -/
structure Onward (s s' : State P α) : Prop where
  pc : s'.pc = s.pc
  waiter : s'.waiter = s.waiter
  ctxDone : s'.ctxDone = s.ctxDone

theorem Onward.rank_lt (h : Onward s s') (hlt : s'.work < s.work) : s'.rank < s.rank := by
  unfold State.rank
  rw [h.waiter, h.pc]
  exact Nat.add_lt_add_right (Nat.add_lt_add_right hlt _) _

/-- **A handler that is not done has a step to take.** -/
theorem exists_handler_step (hs : Sound max judge s) {h : Handler α} (hmem : h ∈ s.handlers)
    (hne : h.phase ≠ .done) :
    ∃ s', Own max judge s s' ∧ Onward s s' ∧ s'.work < s.work := by
  obtain ⟨l, r, heq⟩ := List.append_of_mem hmem
  have hown : ∀ s', Step max judge s s' → Onward s s' → s'.work < s.work →
      ∃ s', Own max judge s s' ∧ Onward s s' ∧ s'.work < s.work := fun s' hstep hon hlt =>
    ⟨s', own_of_rank_lt hstep hon.pc (hon.rank_lt hlt), hon, hlt⟩
  have hmove : ∀ {ph : Phase}, h.phase.Moves ph →
      ∃ s', Own max judge s s' ∧ Onward s s' ∧ s'.work < s.work := fun hm =>
    hown _ (.move heq hm) ⟨rfl, rfl, rfl⟩ (work_move hm.rank_lt heq rfl)
  cases hph : h.phase with
  | ready => exact hmove (by rw [hph]; exact .starts)
  | running => exact hmove (by rw [hph]; exact .returns)
  | panicked => exact hmove (by rw [hph]; exact .recovers)
  | returned =>
    have hpos := hs.sem_pos hmem (by rw [hph]; rfl)
    exact hown _ (.release heq hph hpos) ⟨rfl, rfl, rfl⟩ (work_move (by rw [hph]; decide) heq rfl)
  | released =>
    have hpos := hs.wg_pos hmem (by rw [hph]; rfl)
    exact hown _ (.finish heq hph hpos) ⟨rfl, rfl, rfl⟩ (work_move (by rw [hph]; decide) heq rfl)
  | done => exact absurd hph hne

/-- **The handlers can all finish**: by induction on what they have before them. -/
theorem can_finish (hr : (winding max judge).Reachable s) :
    (winding max judge).Can (fun s' => Onward s s' ∧ ∀ h ∈ s'.handlers, h.phase = .done) s := by
  induction hn : s.work using Nat.strong_induction_on generalizing s with
  | _ n ih =>
    by_cases hdone : ∀ h ∈ s.handlers, h.phase = .done
    · exact .here ⟨⟨rfl, rfl, rfl⟩, hdone⟩
    · simp only [not_forall] at hdone
      obtain ⟨h, hmem, hne⟩ := hdone
      obtain ⟨s', hstep, hon, hlt⟩ :=
        exists_handler_step (sound_of_reachable (reachable_of_winding hr)) hmem hne
      refine .step hstep ((ih _ (hn ▸ hlt) (hr.step hstep) rfl).mono ?_)
      rintro s'' ⟨hon', hdone'⟩
      exact ⟨⟨hon'.pc.trans hon.pc, hon'.waiter.trans hon.waiter,
        hon'.ctxDone.trans hon.ctxDone⟩, hdone'⟩

/-- **From the drain on**: the handlers finish, the wait is over, and the socket is
closed. -/
theorem can_close (hr : (winding max judge).Reachable s) (hpc : s.pc = .draining) :
    (winding max judge).Can (fun s' => s'.pc = .exited ∧ s'.pconnClosed = true
      ∧ ∀ h ∈ s'.handlers, h.phase = .done) s := by
  refine System.Can.trans hr (can_finish hr) ?_
  rintro s₁ hr₁ ⟨hon, hdone⟩
  have hpc₁ : s₁.pc = .draining := hon.pc.trans hpc
  have hwg : s₁.wg = 0 := by
    have hnone : s₁.handlers.countP (fun h => h.phase.counted) = 0 := by
      rw [List.countP_eq_zero]
      intro h hmem
      rw [hdone h hmem]
      exact Bool.false_ne_true
    rw [(sound_of_reachable (reachable_of_winding hr₁)).counter, State.unfinished, hnone, hpc₁]
    rfl
  have hcompleted : ∀ s₂ : State P α, s₂.pc = .draining → s₂.waiter = .done →
      s₂.handlers = s₁.handlers → (winding max judge).Can (fun s' => s'.pc = .exited
        ∧ s'.pconnClosed = true ∧ ∀ h ∈ s'.handlers, h.phase = .done) s₂ := by
    intro s₂ hpc₂ hw₂ hh₂
    have hdrained : Own max judge s₂ { s₂ with pc := .drained .completed } :=
      own_of_pc_ne (.completed hpc₂ hw₂) (by simp [hpc₂]) (by simp) (by simp [hpc₂])
    refine .step hdrained (.step (own_of_pc_ne (.close rfl) (by simp) (by simp) (by simp))
      (.here ⟨rfl, rfl, ?_⟩))
    show ∀ h ∈ s₂.handlers, h.phase = .done
    rw [hh₂]
    exact hdone
  cases hw : s₁.waiter with
  | none =>
    exact absurd hw (waiter_of_leaving (reachable_of_winding hr₁) (by rw [hpc₁]; trivial))
  | waiting =>
    have hlt : State.rank { s₁ with waiter := .done } < s₁.rank := by
      simp only [State.rank, hw]
      exact Nat.add_lt_add_right (Nat.add_lt_add_left (by decide) _) _
    exact .step (own_of_rank_lt (.waited hw hwg) rfl hlt) (hcompleted _ hpc₁ rfl rfl)
  | done => exact hcompleted _ hpc₁ hw rfl

/-- **The main loop gets back to `Receive`**, from wherever it is in it: a packet in its
hands is refused, dropped or handed to a handler. -/
theorem can_receive (hjudge : ∀ p, ∃ r, judge p r) (hl : ¬ s.pc.leaving) :
    (winding max judge).Can (fun s' => s'.pc = .receiving ∧ s'.ctxDone = s.ctxDone) s := by
  have hadded : ∀ (j : Job α) (s₁ : State P α), s₁.pc = .added j →
      (winding max judge).Can (fun s' => s'.pc = .receiving ∧ s'.ctxDone = s₁.ctxDone) s₁ :=
    fun j s₁ hpc => .step (own_of_pc_ne (.go hpc) (by simp [hpc]) (by simp) (by simp [hpc]))
      (.here ⟨rfl, rfl⟩)
  have hacquired : ∀ (j : Job α) (s₁ : State P α), s₁.pc = .acquired j →
      (winding max judge).Can (fun s' => s'.pc = .receiving ∧ s'.ctxDone = s₁.ctxDone) s₁ :=
    fun j s₁ hpc => .step (own_of_pc_ne (.add hpc) (by simp [hpc]) (by simp) (by simp))
      (hadded j _ rfl)
  have hdropping : ∀ s₁ : State P α, s₁.pc = .dropping →
      (winding max judge).Can (fun s' => s'.pc = .receiving ∧ s'.ctxDone = s₁.ctxDone) s₁ :=
    fun s₁ hpc => .step (own_of_pc_ne (.logged hpc) (by simp [hpc]) (by simp) (by simp [hpc]))
      (.here ⟨rfl, rfl⟩)
  have hadmitted : ∀ (j : Job α) (s₁ : State P α), s₁.pc = .admitted j →
      (winding max judge).Can (fun s' => s'.pc = .receiving ∧ s'.ctxDone = s₁.ctxDone) s₁ := by
    intro j s₁ hpc
    by_cases hlt : s₁.sem < max
    · exact .step (own_of_pc_ne (.acquire hpc hlt) (by simp [hpc]) (by simp) (by simp))
        (hacquired j _ rfl)
    · exact .step (own_of_pc_ne (.drop hpc hlt) (by simp [hpc]) (by simp) (by simp))
        (hdropping _ rfl)
  cases hpc : s.pc with
  | receiving => exact .here ⟨hpc, rfl⟩
  | received p =>
    obtain ⟨r, hr⟩ := hjudge p
    cases r with
    | none =>
      refine .step (own_of_pc_ne (.refuse hpc hr) (by simp [hpc]) (by simp) ?_) (.here ⟨rfl, rfl⟩)
      intro p' hp' _
      cases hpc.symm.trans hp'
      exact hr
    | some a =>
      exact .step (own_of_pc_ne (.pass hpc hr) (by simp [hpc]) (by simp) (by simp))
        (hadmitted _ _ rfl)
  | admitted j => exact hadmitted j s hpc
  | acquired j => exact hacquired j s hpc
  | added j => exact hadded j s hpc
  | dropping => exact hdropping s hpc
  | draining | drained | exited =>
    rw [hpc] at hl
    exact absurd trivial hl

/-- **The shutdown ends.** In every interleaving: once the context is cancelled, and
unless the drain was cut short by a second signal or by the grace timer, the process
can get by steps of its own, without any further packet or signal, to where all handlers
are done, the socket is closed and the main loop has returned; and a process that waits
for its handlers takes a bounded number of steps of its own, whatever else goes on and in
whatever order. -/
theorem shutdown_completes (max : ℕ) (judge : P → Option α → Prop)
    (hjudge : ∀ p, ∃ r, judge p r) {s : State P α} (h : (pool max judge).Reachable s) :
    (s.ctxDone = true → s.pc = .draining ∨ ¬ s.pc.leaving →
        ∃ s', Relation.ReflTransGen (Own max judge) s s' ∧ s'.pc = .exited
          ∧ s'.pconnClosed = true ∧ ∀ h ∈ s'.handlers, h.phase = .done)
      ∧ (s.pc = .draining → ∀ n s', Takes max judge s n s' → n ≤ s.rank) := by
  have hw : (winding max judge).Reachable s := .init h
  refine ⟨fun hctx hpc => ?_, fun hpc n s' hrun => ?_⟩
  · rcases hpc with hpc | hl
    · exact can_close hw hpc
    · refine System.Can.trans hw (can_receive hjudge hl) ?_
      rintro s₁ hr₁ ⟨hpc₁, hctx₁⟩
      have hstep : Own max judge s₁ { s₁ with pc := .draining, waiter := .waiting } :=
        own_of_pc_ne (.shutdown hpc₁ (hctx₁.trans hctx)) (by simp [hpc₁]) (by simp) (by simp)
      exact .step hstep (can_close (hr₁.step hstep) rfl)
  · have hl : s.pc.leaving := by
      rw [hpc]
      trivial
    exact Nat.le_of_add_right_le (hrun.rank_le hl).2

/-- `handlePacket` comes to some result about every frame. -/
theorem exists_judges (lib : GoLib) (opts : ValidateOptions) (policy : Bool)
    (frame : ℤ × Decoding) : ∃ r, judges lib opts policy frame r :=
  ⟨_, none, [none], (admitPacket lib opts policy frame.1 frame.2).runs_eval none⟩

/-- A DISCOVER is being handled and another one has just been received when the signal
comes; and seven steps are left to do when the loop waits for its handlers. -/
theorem shutdown_completes_discover :
    ∃ s s' : State (ℤ × Decoding) (DHCPv4 × Option Decision),
      Relation.ReflTransGen (Own 1 (judges .literal ⟨1500, false⟩ false)) s s'
        ∧ s.handlers.map (fun h => h.phase) = [.running] ∧ s.pconnClosed = false
        ∧ s.pc = .received (2, .complete (discoverPacket [0xaa] (by decide)))
        ∧ s'.pc = .exited ∧ s'.pconnClosed = true ∧ (∀ h ∈ s'.handlers, h.phase = .done)
        ∧ ∃ s₁ : State (ℤ × Decoding) (DHCPv4 × Option Decision), s₁.pc = .draining
          ∧ s₁.handlers.map (fun h => h.phase) = [.running]
          ∧ ∀ n s₂, Takes 1 (judges .literal ⟨1500, false⟩ false) s₁ n s₂ → n ≤ 7 := by
  let R := (pool 1 (judges .literal ⟨1500, false⟩ false)).Reachable
  let frame : ℤ × Decoding := (2, .complete (discoverPacket [0xaa] (by decide)))
  let a : Job (DHCPv4 × Option Decision) :=
    ⟨0, (discoverPacket [0xaa] (by decide)).filtered, none⟩
  have h₀ : R {} := .init rfl
  have h₁ : R { pc := .received frame } := h₀.step (Step.receive frame rfl)
  have h₂ : R { pc := .admitted a, admitted := [a] } := h₁.step (Step.pass rfl judges_discover)
  have h₃ : R { pc := .acquired a, sem := 1, admitted := [a] } :=
    h₂.step (Step.acquire rfl (by decide))
  have h₄ : R { pc := .added a, sem := 1, wg := 1, admitted := [a] } := h₃.step (Step.add rfl)
  have h₅ : R { sem := 1, wg := 1, handlers := [⟨a, .ready⟩], admitted := [a] } :=
    h₄.step (Step.go rfl)
  have h₆ : R { sem := 1, wg := 1, handlers := [⟨a, .running⟩], admitted := [a] } :=
    h₅.step (Step.move (l := []) (h := ⟨a, .ready⟩) rfl .starts)
  -- the signal comes between two packets, or while the second one is looked at
  have h₇ : R { pc := .received frame, sem := 1, wg := 1, handlers := [⟨a, .running⟩],
                ctxDone := true, admitted := [a] } :=
    (h₆.step (Step.receive frame rfl)).step Step.signal
  have h₈ : R { pc := .draining, sem := 1, wg := 1, handlers := [⟨a, .running⟩],
                waiter := .waiting, ctxDone := true, admitted := [a] } :=
    (h₆.step Step.signal).step (Step.shutdown rfl rfl)
  have hjudge := exists_judges .literal ⟨1500, false⟩ false
  obtain ⟨s', hsteps, hpc, hclosed, hdone⟩ := (shutdown_completes 1 _ hjudge h₇).1 rfl (.inr id)
  exact ⟨_, s', hsteps, rfl, rfl, rfl, hpc, hclosed, hdone, _, rfl, rfl,
    (shutdown_completes 1 _ hjudge h₈).2 rfl⟩

end Pool
