import DhcpRelay.Transition
import DhcpRelay.Transparency

/-!
# The handler pool and the shutdown

The main loop (`main.go`) receives packets one at a time and hands each one that
it admits to a goroutine of its own, at most `max` at once. A buffered channel
counts the handlers in flight: a token is put into it before a handler is
started and taken out by the handler when it ends, however it ends. A wait group
counts them a second time, for the shutdown: on a signal the loop ends, and the
socket towards the servers is closed once the wait group is down to zero, unless
a second signal or the grace timer comes first.

The steps of the main loop, of the handlers, of the goroutine that waits for the
wait group, and of the world outside are interleaved in any order. `Sound` is
what holds in between: each of the two counts is the number of handlers at the
places in their code where they are counted, and every admitted packet is with
one handler, with the main loop, or dropped. `pool_sound` is what follows for the
relay.
-/

namespace Pool

variable {P α : Type}

/-! ## The state -/

/-- **Where a handler is.** A panic is recovered inside `Handle`, and what is
deferred runs whichever way it ends. -/
inductive Phase where
  /-- The goroutine is created. -/
  | ready
  /-- In `Handle`. -/
  | running
  /-- `Handle` panicked, and is about to recover. -/
  | panicked
  /-- `Handle` returned, and the token is about to be taken out. -/
  | returned
  /-- The token is taken out, and `wg.Done` is about to be called. -/
  | released
  | done
  deriving DecidableEq, Repr

/-- The handler has a token in the channel. -/
def Phase.holds : Phase → Bool
  | .ready | .running | .panicked | .returned => true
  | .released | .done => false

/-- The wait group counts the handler. -/
def Phase.counted : Phase → Bool
  | .done => false
  | .ready | .running | .panicked | .returned | .released => true

/-- The steps of a handler that it takes on its own. -/
inductive Phase.Moves : Phase → Phase → Prop where
  | starts : Moves .ready .running
  | returns : Moves .running .returned
  | panics : Moves .running .panicked
  | recovers : Moves .panicked .returned

/-- A packet that was admitted, and the how-manieth it was. -/
structure Job (α : Type) where
  serial : ℕ
  work : α
  deriving DecidableEq, Repr

/-- A handler: what it was handed, and where it is. -/
structure Handler (α : Type) where
  job : Job α
  phase : Phase
  deriving DecidableEq, Repr

/-- A packet that was dropped, and how many handlers were in flight then. -/
structure Drop (α : Type) where
  job : Job α
  inFlight : ℕ
  deriving DecidableEq, Repr

/-- `drainResult`. -/
inductive DrainResult where
  | completed
  | forced
  | timedOut
  deriving DecidableEq, Repr

/-- **Where the main goroutine is.** -/
inductive MainPc (P α : Type) where
  /-- In `Receive`. -/
  | receiving
  /-- In `handlePacket`, which has not yet judged the packet. -/
  | received (p : P)
  /-- At the `select`. -/
  | admitted (j : Job α)
  /-- The token is in the channel. -/
  | acquired (j : Job α)
  /-- In `wg.Go`, after `wg.Add`. -/
  | added (j : Job α)
  /-- In the default branch of the `select`. -/
  | dropping
  /-- In `waitForHandlers`. -/
  | draining
  | drained (r : DrainResult)
  /-- The loop has returned. -/
  | exited
  deriving DecidableEq, Repr

/-- The goroutine of `waitForHandlers`. -/
inductive Waiter where
  | none
  /-- In `wg.Wait`. -/
  | waiting
  /-- `waitDone` is closed. -/
  | done
  deriving DecidableEq, Repr

/-- **The process.** `admitted` and `dropped` are kept for the record. -/
structure State (P α : Type) where
  pc : MainPc P α := .receiving
  /-- The tokens in `handlersSem`. -/
  sem : ℕ := 0
  /-- The counter of `handlersWG`. -/
  wg : ℕ := 0
  handlers : List (Handler α) := []
  waiter : Waiter := .none
  /-- The context is cancelled. -/
  ctxDone : Bool := false
  /-- A signal is in `forceQuit`. -/
  forceQuit : Bool := false
  /-- The grace period is over. -/
  expired : Bool := false
  pconnClosed : Bool := false
  admitted : List (Job α) := []
  dropped : List (Drop α) := []

/-- The token that the main goroutine has put in for a handler that it is about
to start. -/
def MainPc.holding : MainPc P α → ℕ
  | .acquired _ | .added _ => 1
  | _ => 0

/-- What it has added to the wait group for it. -/
def MainPc.adding : MainPc P α → ℕ
  | .added _ => 1
  | _ => 0

/-- The packet that is in its hands. -/
def MainPc.jobs : MainPc P α → List (Job α)
  | .admitted j | .acquired j | .added j => [j]
  | _ => []

/-- The loop is left for good. -/
def MainPc.leaving : MainPc P α → Prop
  | .draining | .drained _ | .exited => True
  | _ => False

/-- **The handlers that have acquired a token and not released it.** -/
def State.inFlight (s : State P α) : ℕ :=
  s.handlers.countP (fun h => h.phase.holds) + s.pc.holding

/-- The handlers that are not done. -/
def State.unfinished (s : State P α) : ℕ :=
  s.handlers.countP (fun h => h.phase.counted) + s.pc.adding

/-- Where the admitted packets are. -/
def State.jobs (s : State P α) : List (Job α) :=
  s.handlers.map Handler.job ++ (s.dropped.map Drop.job ++ s.pc.jobs)

/-! ## The steps -/

/-- **What can happen.** `judge p r` when `handlePacket` may come to the result
`r` about the packet `p`, `none` to refuse it. -/
inductive Step (max : ℕ) (judge : P → Option α → Prop) : State P α → State P α → Prop where
  | receive {s : State P α} (p : P) : s.pc = .receiving →
      Step max judge s { s with pc := .received p }
  | readError {s : State P α} : s.pc = .receiving → s.ctxDone = false → Step max judge s s
  | shutdown {s : State P α} : s.pc = .receiving → s.ctxDone = true →
      Step max judge s { s with pc := .draining, waiter := .waiting }
  | refuse {s : State P α} {p : P} : s.pc = .received p → judge p none →
      Step max judge s { s with pc := .receiving }
  /-- Decoding, validation or the policy panics, and `handlePacket` recovers. -/
  | panic {s : State P α} {p : P} : s.pc = .received p →
      Step max judge s { s with pc := .receiving }
  | pass {s : State P α} {p : P} {a : α} : s.pc = .received p → judge p (some a) →
      Step max judge s
        { s with
          pc := .admitted ⟨s.admitted.length, a⟩
          admitted := s.admitted ++ [⟨s.admitted.length, a⟩] }
  | acquire {s : State P α} {j : Job α} : s.pc = .admitted j → s.sem < max →
      Step max judge s { s with pc := .acquired j, sem := s.sem + 1 }
  /-- The default branch is taken when the channel is full. -/
  | drop {s : State P α} {j : Job α} : s.pc = .admitted j → ¬ s.sem < max →
      Step max judge s
        { s with pc := .dropping, dropped := s.dropped ++ [⟨j, s.inFlight⟩] }
  /-- The drop is logged, or logging it panics and `handlePacket` recovers. -/
  | logged {s : State P α} : s.pc = .dropping → Step max judge s { s with pc := .receiving }
  | add {s : State P α} {j : Job α} : s.pc = .acquired j →
      Step max judge s { s with pc := .added j, wg := s.wg + 1 }
  | go {s : State P α} {j : Job α} : s.pc = .added j →
      Step max judge s
        { s with pc := .receiving, handlers := s.handlers ++ [⟨j, .ready⟩] }
  | move {s : State P α} {l r : List (Handler α)} {h : Handler α} {ph : Phase} :
      s.handlers = l ++ h :: r → h.phase.Moves ph →
      Step max judge s { s with handlers := l ++ { h with phase := ph } :: r }
  | release {s : State P α} {l r : List (Handler α)} {h : Handler α} :
      s.handlers = l ++ h :: r → h.phase = .returned → 0 < s.sem →
      Step max judge s
        { s with sem := s.sem - 1, handlers := l ++ { h with phase := .released } :: r }
  | finish {s : State P α} {l r : List (Handler α)} {h : Handler α} :
      s.handlers = l ++ h :: r → h.phase = .released → 0 < s.wg →
      Step max judge s
        { s with wg := s.wg - 1, handlers := l ++ { h with phase := .done } :: r }
  | signal {s : State P α} : Step max judge s { s with ctxDone := true }
  | secondSignal {s : State P α} : s.pc = .draining →
      Step max judge s { s with forceQuit := true }
  | expire {s : State P α} : s.pc = .draining → Step max judge s { s with expired := true }
  | waited {s : State P α} : s.waiter = .waiting → s.wg = 0 →
      Step max judge s { s with waiter := .done }
  | completed {s : State P α} : s.pc = .draining → s.waiter = .done →
      Step max judge s { s with pc := .drained .completed }
  | forced {s : State P α} : s.pc = .draining → s.forceQuit = true →
      Step max judge s { s with pc := .drained .forced }
  | timedOut {s : State P α} : s.pc = .draining → s.expired = true →
      Step max judge s { s with pc := .drained .timedOut }
  | close {s : State P α} : s.pc = .drained .completed →
      Step max judge s { s with pc := .exited, pconnClosed := true }
  | leave {s : State P α} {r : DrainResult} : s.pc = .drained r → r ≠ .completed →
      Step max judge s { s with pc := .exited }

/-- The interleavings, from the start of the loop on. -/
def pool (max : ℕ) (judge : P → Option α → Prop) : System (State P α) where
  init s := s = {}
  step := Step max judge

/-! ## Counting the handlers -/

/-- How a count changes when one handler moves. -/
theorem countP_move (p : Phase → Bool) (l r : List (Handler α)) (h : Handler α) (ph : Phase) :
    (l ++ { h with phase := ph } :: r).countP (fun h => p h.phase) + (p h.phase).toNat
      = (l ++ h :: r).countP (fun h => p h.phase) + (p ph).toNat := by
  simp only [List.countP_append, List.countP_cons]
  cases p h.phase <;> cases p ph <;> simp <;> omega

/-- A step of its own changes neither what a handler holds nor whether it is
counted. -/
theorem Phase.Moves.holds_eq {a b : Phase} (h : a.Moves b) :
    a.holds = b.holds ∧ a.counted = b.counted := by
  cases h <;> exact ⟨rfl, rfl⟩

section Steps

variable {max : ℕ} {judge : P → Option α → Prop} {s s' : State P α}

/-- **A token is put in for each handler and taken out by it**: the tokens and
the handlers in flight change alike. -/
theorem Step.sem_add (h : Step max judge s s') :
    s'.sem + s.inFlight = s.sem + s'.inFlight := by
  unfold State.inFlight
  cases h
  case move l r h ph heq hmove =>
    have hc := countP_move Phase.holds l r h ph
    rw [hmove.holds_eq.1] at hc
    simp only [heq]
    omega
  case release l r h heq hph hpos =>
    have hc := countP_move Phase.holds l r h .released
    rw [hph] at hc
    change _ + 1 = _ + 0 at hc
    simp only [heq]
    omega
  case finish l r h heq hph hpos =>
    have hc := countP_move Phase.holds l r h .done
    rw [hph] at hc
    change _ + 0 = _ + 0 at hc
    simp only [heq]
    omega
  case go j hpc =>
    simp only [hpc, MainPc.holding, List.countP_append, List.countP_singleton, Phase.holds]
    rfl
  case acquire j hpc hlt =>
    simp only [hpc, MainPc.holding]
    omega
  -- No other step starts or ends a handler.
  all_goals simp [*, MainPc.holding]

/-- The same for the wait group. -/
theorem Step.wg_add (h : Step max judge s s') :
    s'.wg + s.unfinished = s.wg + s'.unfinished := by
  unfold State.unfinished
  cases h
  case move l r h ph heq hmove =>
    have hc := countP_move Phase.counted l r h ph
    rw [hmove.holds_eq.2] at hc
    simp only [heq]
    omega
  case release l r h heq hph hpos =>
    have hc := countP_move Phase.counted l r h .released
    rw [hph] at hc
    change _ + 1 = _ + 1 at hc
    simp only [heq]
    omega
  case finish l r h heq hph hpos =>
    have hc := countP_move Phase.counted l r h .done
    rw [hph] at hc
    change _ + 1 = _ + 0 at hc
    simp only [heq]
    omega
  case go j hpc =>
    simp only [hpc, MainPc.adding, List.countP_append, List.countP_singleton, Phase.counted]
    rfl
  case add j hpc =>
    simp only [hpc, MainPc.adding]
    omega
  all_goals simp [*, MainPc.adding]

/-- The channel has room for `max` tokens. -/
theorem Step.sem_le (h : Step max judge s s') (hle : s.sem ≤ max) : s'.sem ≤ max := by
  cases h
  case acquire j hpc hlt => exact hlt
  case release l r h heq hph hpos => exact Nat.le_trans (Nat.sub_le _ _) hle
  all_goals exact hle

/-- **An admitted packet changes hands and is never lost or doubled.** -/
theorem Step.jobs_perm (h : Step max judge s s') (hperm : s.jobs.Perm s.admitted) :
    s'.jobs.Perm s'.admitted := by
  unfold State.jobs at hperm ⊢
  cases h
  case pass p a hpc hj =>
    simp only [hpc, MainPc.jobs, List.append_nil] at hperm ⊢
    rw [← List.append_assoc]
    exact hperm.append_right _
  case drop j hpc hfull =>
    simp only [hpc, MainPc.jobs, List.append_nil, List.map_append, List.map_cons, List.map_nil]
      at hperm ⊢
    exact hperm
  case go j hpc =>
    simp only [hpc, MainPc.jobs, List.append_nil, List.map_append, List.map_cons, List.map_nil]
      at hperm ⊢
    rw [List.append_assoc]
    exact (List.perm_append_comm.append_left _).trans hperm
  case move l r h ph heq hmove =>
    simp only [heq, List.map_append, List.map_cons] at hperm ⊢
    exact hperm
  case release l r h heq hph hpos =>
    simp only [heq, List.map_append, List.map_cons] at hperm ⊢
    exact hperm
  case finish l r h heq hph hpos =>
    simp only [heq, List.map_append, List.map_cons] at hperm ⊢
    exact hperm
  -- The packet, if any, stays in the hands of the main goroutine.
  all_goals simp_all [MainPc.jobs]

/-- What is admitted is numbered and has been judged. -/
theorem Step.admitted_eq (h : Step max judge s s') :
    s'.admitted = s.admitted
      ∨ ∃ p a, judge p (some a) ∧ s'.admitted = s.admitted ++ [⟨s.admitted.length, a⟩] := by
  cases h
  case pass p a hpc hj => exact .inr ⟨p, a, hj, rfl⟩
  all_goals exact .inl rfl

/-- What is dropped is dropped with the channel full. -/
theorem Step.dropped_eq (h : Step max judge s s') :
    s'.dropped = s.dropped
      ∨ ∃ j, max ≤ s.sem ∧ s'.dropped = s.dropped ++ [⟨j, s.inFlight⟩] := by
  cases h
  case drop j hpc hfull => exact .inr ⟨j, not_lt.mp hfull, rfl⟩
  all_goals exact .inl rfl

/-! ## The invariant -/

/-- **What holds in between any two steps.** -/
structure Sound (max : ℕ) (judge : P → Option α → Prop) (s : State P α) : Prop where
  /-- There is one token for each handler in flight. -/
  tokens : s.sem = s.inFlight
  room : s.sem ≤ max
  /-- The wait group counts the handlers that are not done. -/
  counter : s.wg = s.unfinished
  /-- Every admitted packet is in one place. -/
  jobs : s.jobs.Perm s.admitted
  serials : s.admitted.map Job.serial = List.range s.admitted.length
  judged : ∀ j ∈ s.admitted, ∃ p, judge p (some j.work)
  drops : ∀ d ∈ s.dropped, d.inFlight = max
  /-- Who waits for the handlers has left the loop. -/
  leaving : s.waiter ≠ .none → s.pc.leaving
  waited : s.waiter = .done → s.wg = 0
  completed : s.pc = .drained .completed → s.waiter = .done

/-- The loop is left for good: once somebody waits for the handlers, nothing is
added to the wait group. -/
theorem Step.waiter (h : Step max judge s s') (hs : Sound max judge s) :
    (s'.waiter ≠ .none → s'.pc.leaving) ∧ (s'.waiter = .done → s'.wg = 0)
      ∧ (s'.pc = .drained .completed → s'.waiter = .done) := by
  have hleave := hs.leaving
  have hwait := hs.waited
  have hcomp := hs.completed
  cases h
  case finish l r h heq hph hpos =>
    refine ⟨hleave, fun hw => ?_, hcomp⟩
    exact absurd (hwait hw) (Nat.pos_iff_ne_zero.mp hpos)
  all_goals simp_all [MainPc.leaving]

theorem Sound.step (hs : Sound max judge s) (h : Step max judge s s') : Sound max judge s' := by
  obtain ⟨hleave, hwait, hcomp⟩ := h.waiter hs
  refine ⟨?_, h.sem_le hs.room, ?_, h.jobs_perm hs.jobs, ?_, ?_, ?_, hleave, hwait, hcomp⟩
  · have hadd := h.sem_add
    have htok := hs.tokens
    omega
  · have hadd := h.wg_add
    have hcount := hs.counter
    omega
  · rcases h.admitted_eq with he | ⟨p, a, -, he⟩
    · rw [he, hs.serials]
    · rw [he, List.map_append, hs.serials, List.length_append, List.length_singleton,
        List.range_succ]
      rfl
  · rcases h.admitted_eq with he | ⟨p, a, hj, he⟩
    · rw [he]
      exact hs.judged
    · intro j hmem
      rw [he] at hmem
      rcases List.mem_append.mp hmem with hmem | hmem
      · exact hs.judged j hmem
      · rw [List.mem_singleton.mp hmem]
        exact ⟨p, hj⟩
  · rcases h.dropped_eq with he | ⟨j, hfull, he⟩
    · rw [he]
      exact hs.drops
    · intro d hmem
      rw [he] at hmem
      rcases List.mem_append.mp hmem with hmem | hmem
      · exact hs.drops d hmem
      · rw [List.mem_singleton.mp hmem]
        -- The channel is full, and its tokens are those of the handlers in flight.
        have htok := hs.tokens
        have hroom := hs.room
        show s.inFlight = max
        omega

/-- **The invariant holds in every interleaving.** -/
theorem sound_of_reachable (h : (pool max judge).Reachable s) : Sound max judge s := by
  refine h.invariant ?_ (fun s s' _ hs hstep => hs.step hstep)
  rintro s rfl
  exact ⟨rfl, Nat.zero_le max, rfl, .refl _, rfl, fun j hj => absurd hj List.not_mem_nil,
    fun d hd => absurd hd List.not_mem_nil, fun hw => absurd rfl hw, fun hw => (nomatch hw),
    fun hpc => (nomatch hpc)⟩

/-- A handler that has its token to take out finds one in the channel. -/
theorem Sound.sem_pos (hs : Sound max judge s) {h : Handler α} (hmem : h ∈ s.handlers)
    (hph : h.phase.holds = true) : 0 < s.sem := by
  have hcount : 0 < s.handlers.countP (fun h => h.phase.holds) :=
    List.countP_pos_iff.mpr ⟨h, hmem, hph⟩
  rw [hs.tokens]
  exact Nat.add_pos_left hcount _

/-- A handler that is not done is counted. -/
theorem Sound.wg_pos (hs : Sound max judge s) {h : Handler α} (hmem : h ∈ s.handlers)
    (hph : h.phase.counted = true) : 0 < s.wg := by
  have hcount : 0 < s.handlers.countP (fun h => h.phase.counted) :=
    List.countP_pos_iff.mpr ⟨h, hmem, hph⟩
  rw [hs.counter]
  exact Nat.add_pos_left hcount _

/-! ## Closing the socket -/

/-- When the wait group is down to zero, every handler is done. -/
theorem Sound.all_done (hs : Sound max judge s) (hwg : s.wg = 0) :
    ∀ h ∈ s.handlers, h.phase = .done := by
  intro h hmem
  by_contra hne
  have hcounted : h.phase.counted = true := by
    cases hph : h.phase
    case done => exact absurd hph hne
    all_goals rfl
  exact absurd hwg (Nat.pos_iff_ne_zero.mp (hs.wg_pos hmem hcounted))

/-- The socket is closed when the handlers have been waited for. -/
theorem Step.pc_of_close (h : Step max judge s s') (ho : s.pconnClosed = false)
    (hc : s'.pconnClosed = true) : s.pc = .drained .completed ∧ s'.pc = .exited
      ∧ s'.handlers = s.handlers := by
  cases h
  case close hpc => exact ⟨hpc, rfl, rfl⟩
  all_goals exact absurd (ho.symm.trans hc) Bool.false_ne_true

/-- Once the loop has returned, handlers that are done stay so and no other is
started. -/
theorem Step.quiet (h : Step max judge s s') (hpc : s.pc = .exited)
    (hdone : ∀ h ∈ s.handlers, h.phase = .done) :
    s'.pc = .exited ∧ s'.handlers = s.handlers := by
  have hmem : ∀ {l r : List (Handler α)} {h : Handler α}, s.handlers = l ++ h :: r →
      h.phase = .done := by
    intro l r h heq
    exact hdone h (by rw [heq]; exact List.mem_append_right l List.mem_cons_self)
  cases h
  case move l r h ph heq hmove =>
    rw [hmem heq] at hmove
    cases hmove
  case release l r h heq hph hpos => exact absurd ((hmem heq).symm.trans hph) (by decide)
  case finish l r h heq hph hpos => exact absurd ((hmem heq).symm.trans hph) (by decide)
  all_goals simp_all

theorem quiet_run (hpc : s.pc = .exited) (hdone : ∀ h ∈ s.handlers, h.phase = .done)
    {s'' : State P α} (hrun : Relation.ReflTransGen (Step max judge) s s'') :
    s''.pc = .exited ∧ s''.handlers = s.handlers := by
  induction hrun with
  | refl => exact ⟨hpc, rfl⟩
  | tail _ hstep ih =>
    obtain ⟨hpc', hh⟩ := ih
    have hq := hstep.quiet hpc' (by rw [hh]; exact hdone)
    exact ⟨hq.1, hq.2.trans hh⟩

end Steps

end Pool

/-! ## The relay -/

open Dhcp MacPolicy Relay Pool

/-- What `handlePacket` may come to about a frame from an interface, by whatever
tables the policy has meanwhile. -/
def judges (lib : GoLib) (opts : ValidateOptions) (policy : Bool) (frame : ℤ × Decoding)
    (r : Option (DHCPv4 × Option Decision)) : Prop :=
  ∃ s held, (admitPacket lib opts policy frame.1 frame.2).Runs s held r

/-- **The handler pool neither leaks nor overruns, and shutdown never pulls the
socket from under a handler.** In every interleaving of packets, handlers, panics
and signals: there are as many tokens as handlers in flight, and at most `max`, and
no handler that ends has to wait for the token it takes out or finds the wait group
at zero; every packet that is admitted is with exactly one handler, or dropped, or
still in the hands of the main loop, and it is dropped only with `max` handlers in
flight; and the socket is closed when every handler is done, and none is started
after. -/
theorem pool_sound (lib : GoLib) (opts : ValidateOptions) (policy : Bool) (max : ℕ)
    (s : State (ℤ × Decoding) (DHCPv4 × Option Decision))
    (h : (pool max (judges lib opts policy)).Reachable s) :
    (s.sem = s.inFlight ∧ s.sem ≤ max
        ∧ ∀ h ∈ s.handlers, (h.phase = .returned → 0 < s.sem) ∧ (h.phase = .released → 0 < s.wg))
      ∧ (s.jobs.Perm s.admitted ∧ (s.admitted.map Job.serial).Nodup
        ∧ ∀ j ∈ s.admitted, ∃ frame, judges lib opts policy frame (some j.work))
      ∧ (∀ d ∈ s.dropped, d.inFlight = max)
      ∧ ∀ s', Step max (judges lib opts policy) s s' → s.pconnClosed = false →
        s'.pconnClosed = true →
        (∀ h ∈ s.handlers, h.phase = .done)
          ∧ ∀ s'', Relation.ReflTransGen (Step max (judges lib opts policy)) s' s'' →
            s''.handlers = s.handlers := by
  have hs := sound_of_reachable h
  refine ⟨⟨hs.tokens, hs.room, ?_⟩, ⟨hs.jobs, ?_, hs.judged⟩, hs.drops, ?_⟩
  · intro h hmem
    exact ⟨fun hph => hs.sem_pos hmem (by rw [hph]; rfl),
      fun hph => hs.wg_pos hmem (by rw [hph]; rfl)⟩
  · rw [hs.serials]
    exact List.nodup_range
  · intro s' hstep hopen hclosed
    obtain ⟨hpc, hpc', hh⟩ := hstep.pc_of_close hopen hclosed
    have hdone := hs.all_done (hs.waited (hs.completed hpc))
    refine ⟨hdone, fun s'' hrun => ?_⟩
    rw [(quiet_run hpc' (by rw [hh]; exact hdone) hrun).2, hh]

/-- A DISCOVER is admitted by a relay without a policy. -/
theorem judges_discover :
    judges .literal ⟨1500, false⟩ false (2, .complete (discoverPacket [0xaa] (by decide)))
      (some ((discoverPacket [0xaa] (by decide)).filtered, none)) := by
  refine ⟨none, [none], ?_⟩
  rw [admitPacket_of_no_policy (by decide) (by decide)]
  exact .ret _ _

/-- With one handler at most: a first DISCOVER is handed to it, a second one is
dropped, and the process is shut down. -/
theorem pool_sound_shutdown :
    ∃ s s' : State (ℤ × Decoding) (DHCPv4 × Option Decision),
      Step 1 (judges .literal ⟨1500, false⟩ false) s s'
        ∧ s.pconnClosed = false ∧ s'.pconnClosed = true
        ∧ s.handlers.length = 1 ∧ s.dropped.length = 1
        ∧ s.sem = s.inFlight ∧ (∀ d ∈ s.dropped, d.inFlight = 1)
        ∧ ∀ h ∈ s.handlers, h.phase = .done := by
  let R := (pool 1 (judges .literal ⟨1500, false⟩ false)).Reachable
  let frame : ℤ × Decoding := (2, .complete (discoverPacket [0xaa] (by decide)))
  let a : Job (DHCPv4 × Option Decision) :=
    ⟨0, (discoverPacket [0xaa] (by decide)).filtered, none⟩
  let b : Job (DHCPv4 × Option Decision) :=
    ⟨1, (discoverPacket [0xaa] (by decide)).filtered, none⟩
  have h₀ : R {} := .init rfl
  -- The first packet takes the only token.
  have h₁ : R { pc := .received frame } := h₀.step (Step.receive frame rfl)
  have h₂ : R { pc := .admitted a, admitted := [a] } := h₁.step (Step.pass rfl judges_discover)
  have h₃ : R { pc := .acquired a, sem := 1, admitted := [a] } :=
    h₂.step (Step.acquire rfl (by decide))
  have h₄ : R { pc := .added a, sem := 1, wg := 1, admitted := [a] } := h₃.step (Step.add rfl)
  have h₅ : R { sem := 1, wg := 1, handlers := [⟨a, .ready⟩], admitted := [a] } :=
    h₄.step (Step.go rfl)
  -- The second one finds the channel full.
  have h₆ : R { pc := .received frame, sem := 1, wg := 1, handlers := [⟨a, .ready⟩],
                admitted := [a] } := h₅.step (Step.receive frame rfl)
  have h₇ : R { pc := .admitted b, sem := 1, wg := 1, handlers := [⟨a, .ready⟩],
                admitted := [a, b] } := h₆.step (Step.pass rfl judges_discover)
  have h₈ : R { pc := .dropping, sem := 1, wg := 1, handlers := [⟨a, .ready⟩],
                admitted := [a, b], dropped := [⟨b, 1⟩] } := h₇.step (Step.drop rfl (by decide))
  have h₉ : R { sem := 1, wg := 1, handlers := [⟨a, .ready⟩], admitted := [a, b],
                dropped := [⟨b, 1⟩] } := h₈.step (Step.logged rfl)
  -- The handler panics while the loop is being left.
  have h₁₀ : R { sem := 1, wg := 1, handlers := [⟨a, .running⟩], admitted := [a, b],
                 dropped := [⟨b, 1⟩] } :=
    h₉.step (Step.move (l := []) (h := ⟨a, .ready⟩) rfl .starts)
  have h₁₁ : R { sem := 1, wg := 1, handlers := [⟨a, .running⟩], ctxDone := true,
                 admitted := [a, b], dropped := [⟨b, 1⟩] } := h₁₀.step Step.signal
  have h₁₂ : R { pc := .draining, sem := 1, wg := 1, handlers := [⟨a, .running⟩],
                 waiter := .waiting, ctxDone := true, admitted := [a, b],
                 dropped := [⟨b, 1⟩] } := h₁₁.step (Step.shutdown rfl rfl)
  have h₁₃ : R { pc := .draining, sem := 1, wg := 1, handlers := [⟨a, .panicked⟩],
                 waiter := .waiting, ctxDone := true, admitted := [a, b],
                 dropped := [⟨b, 1⟩] } :=
    h₁₂.step (Step.move (l := []) (h := ⟨a, .running⟩) rfl .panics)
  have h₁₄ : R { pc := .draining, sem := 1, wg := 1, handlers := [⟨a, .returned⟩],
                 waiter := .waiting, ctxDone := true, admitted := [a, b],
                 dropped := [⟨b, 1⟩] } :=
    h₁₃.step (Step.move (l := []) (h := ⟨a, .panicked⟩) rfl .recovers)
  have h₁₅ : R { pc := .draining, wg := 1, handlers := [⟨a, .released⟩],
                 waiter := .waiting, ctxDone := true, admitted := [a, b],
                 dropped := [⟨b, 1⟩] } :=
    h₁₄.step (Step.release (l := []) (h := ⟨a, .returned⟩) rfl rfl (by decide))
  have h₁₆ : R { pc := .draining, handlers := [⟨a, .done⟩], waiter := .waiting,
                 ctxDone := true, admitted := [a, b], dropped := [⟨b, 1⟩] } :=
    h₁₅.step (Step.finish (l := []) (h := ⟨a, .released⟩) rfl rfl (by decide))
  have h₁₇ : R { pc := .draining, handlers := [⟨a, .done⟩], waiter := .done, ctxDone := true,
                 admitted := [a, b], dropped := [⟨b, 1⟩] } := h₁₆.step (Step.waited rfl rfl)
  have h₁₈ : R { pc := .drained .completed, handlers := [⟨a, .done⟩], waiter := .done,
                 ctxDone := true, admitted := [a, b], dropped := [⟨b, 1⟩] } :=
    h₁₇.step (Step.completed rfl rfl)
  obtain ⟨⟨htok, -⟩, -, hdrop, hclose⟩ := pool_sound .literal ⟨1500, false⟩ false 1 _ h₁₈
  exact ⟨_, _, Step.close rfl, rfl, rfl, rfl, rfl, htok, hdrop,
    (hclose _ (Step.close rfl) rfl rfl).1⟩
