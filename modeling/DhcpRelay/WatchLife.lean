import DhcpRelay.FileWatch

/-!
# The life of a file watcher

`New` loads the file, starts the poller and returns the watcher. From then on the
watcher is closed, by any number of threads and any number of times, while others
reload it and the poller polls (`pkg/filewatch`, `New`, `watch`, `CloseContext` and
`Close`). Three things of the runtime take part:

* the channel `done`, which must not be closed twice, and the `sync.Once` that
  guards it;
* the wait group, whose counter must not go below zero, and on which `Close` waits
  for the poller;
* the context that `CloseContext` makes for a validation, with a goroutine of its
  own, the *bridge*, that waits for `done` or for the end of the context.

`living` is the interleaving of all of them over the watcher of `watching`, which it
refines (`watching_of_living`): a thread that is in `poll` or `Reload` takes the
steps it takes there, except that a validation answers only while it has a context,
and that `Reload` cancels this context before it returns. A validation may be as
slow as its context allows: a *patient* one answers only once it is cancelled.

* `closing_sound` is safety: `done` is closed at most once, the counter is never
  negative, and once some `Close` has returned there is no poller any more, so that
  only an explicit reload changes the snapshot.
* `contexts_sound` says that no context outlives its reload and no bridge waits for
  good.
* `close_returns` is progress: whatever else is going on, and however patient the
  validation, a `Close` can return.
-/

namespace FileWatch

variable {β T : Type}

/-! ## The model -/

/-- `sync.Once`, and who runs its function. -/
inductive Once where
  | fresh
  | running (i : ℕ)
  | finished
  deriving DecidableEq, Repr

/-- The life of the poller: `New` has not got to it, it is counted in the wait
group, it is there, it has left. -/
inductive Poller where
  | unborn
  | added
  | running
  | stopped
  deriving DecidableEq, Repr

/-- A context of `CloseContext`, and whether its bridge still waits. -/
structure CloseContext where
  cancelled : Bool := false
  bridge : Bool := true
  deriving DecidableEq, Repr

/-- **The watcher with all it takes to stop it.** The last three fields are no part
of the program and record what happened: who called `New`, how often `done` was
closed, and whether a call of `Close` has returned. -/
structure Life (β T : Type) where
  watcher : Shared β T
  /-- The channel is closed. -/
  done : Bool := false
  closeOnce : Once := .fresh
  /-- The counter of the wait group. -/
  wg : ℕ := 0
  poller : Poller := .unborn
  /-- The context of each reload, by its number. -/
  contexts : ℕ → Option CloseContext := fun _ => none
  /-- `New` has returned the watcher. -/
  returned : Bool := false
  creator : Option ℕ := none
  closes : ℕ := 0
  closed : Bool := false

/-- **Where a thread is.** -/
inductive LifePc (β T : Type) where
  /-- In none of the functions below. -/
  | outside
  /-- In `poll` or `Reload`, called from `New`, from `watch` or by a user. -/
  | within (caller : Caller) (pc : Pc β T)
  /-- In `New`, before `wg.Add`. -/
  | adding
  /-- In `New`, before the `go` statement. -/
  | spawning
  /-- In `watch`, at the `select`. -/
  | selecting
  /-- In `watch`, before `wg.Done`. -/
  | stopping
  /-- The poller has left. -/
  | stopped
  /-- In `Close`, at `closeOnce.Do`. -/
  | closing
  /-- In the function given to it, before `close`. -/
  | inOnce
  /-- After `close`. -/
  | onceClosed
  /-- In `Close`, at `wg.Wait`. -/
  | waitingWg

/-- The thread that runs `watch`. -/
def pollerThread : ℕ := 0

/-- Where a thread is in `poll` and `Reload`. -/
def LifePc.pc : LifePc β T → Pc β T
  | .within _ pc => pc
  | _ => .idle

/-- Where a thread goes on when `poll` or `Reload` has got to `pc`: `New` goes on
with the poller if the file was loaded. -/
def resume (sh : Shared β T) (caller : Caller) : Pc β T → LifePc β T
  | .idle =>
    match caller with
    | .new => if sh.started then .adding else .outside
    | .reload => .outside
    | .poll => .selecting
  | pc => .within caller pc

/-- The reload that a thread is in, once it has the lock. -/
def Pc.job : Pc β T → Option (Job T)
  | .idle | .polling | .polled _ | .waiting _ => none
  | .locked job | .opened job _ | .reading job _ _ _ | .parsed job _ _ _ _
  | .checked job _ _ _ | .validated job _ _ _ | .stored job _ _ | .returning job _ => some job

/-- On whose behalf a thread is in `poll` or `Reload`. -/
def Pc.caller : Pc β T → Option Caller
  | .idle => none
  | .polling | .polled _ => some .poll
  | .waiting caller => some caller
  | .locked job | .opened job _ | .reading job _ _ _ | .parsed job _ _ _ _
  | .checked job _ _ _ | .validated job _ _ _ | .stored job _ _ | .returning job _ =>
    some job.caller

/-- What a step of `Reload` waits for: a validation has a context, and a patient one
answers only when it is cancelled; the deferred `cancel` comes before the unlock. -/
def May (w : Config β T) (patient : Bool) (l : Life β T) : Pc β T → Prop
  | .checked job _ _ _ =>
    w.validate = true →
      ∃ c, l.contexts job.number = some c ∧ (patient = true → c.cancelled = true)
  | .returning job _ => ∀ c, l.contexts job.number = some c → c.cancelled = true
  | _ => True

/-- The context of reload `n` becomes `c`. -/
def Life.setContext (l : Life β T) (n : ℕ) (c : CloseContext) : Life β T :=
  { l with contexts := Function.update l.contexts n (some c) }

@[simp]
theorem Life.setContext_self (l : Life β T) (n : ℕ) (c : CloseContext) :
    (l.setContext n c).contexts n = some c :=
  Function.update_self ..

@[simp]
theorem Life.setContext_of_ne (l : Life β T) {n m : ℕ} (h : m ≠ n) (c : CloseContext) :
    (l.setContext n c).contexts m = l.contexts m :=
  Function.update_of_ne h ..

/-- **One step of thread `i`.** -/
inductive Life.Step (w : Config β T) (patient : Bool) (i : ℕ) :
    Life β T → LifePc β T → Life β T → LifePc β T → Prop where
  | callNew {l} (hi : i ≠ pollerThread) (h : l.creator = none) :
    Step w patient i l .outside { l with creator := some i } (.within .new (.waiting .new))
  | callReload {l} (hi : i ≠ pollerThread) (h : l.returned = true) :
    Step w patient i l .outside l (.within .reload (.waiting .reload))
  | callClose {l} (hi : i ≠ pollerThread) (h : l.returned = true) :
    Step w patient i l .outside l .closing
  | inner {l} {sh' : Shared β T} {caller : Caller} {pc pc' : Pc β T} (hpc : pc ≠ .idle)
    (hmay : May w patient l pc) (h : FileWatch.Step w i l.watcher pc sh' pc') :
    Step w patient i l (.within caller pc) { l with watcher := sh' } (resume sh' caller pc')
  | openContext {l} {caller : Caller} {job : Job T} {info : FileInfo} {t : T}
    {warnings : List String} (hv : w.validate = true) (h : l.contexts job.number = none) :
    Step w patient i l (.within caller (.checked job info t warnings))
      (l.setContext job.number {}) (.within caller (.checked job info t warnings))
  | cancel {l} {caller : Caller} {job : Job T} {err : Option String} {c : CloseContext}
    (h : l.contexts job.number = some c) :
    Step w patient i l (.within caller (.returning job err))
      (l.setContext job.number { c with cancelled := true })
      (.within caller (.returning job err))
  | add {l} : Step w patient i l .adding { l with wg := l.wg + 1, poller := .added } .spawning
  | spawn {l} :
    Step w patient i l .spawning { l with poller := .running, returned := true } .outside
  | start {l} (hi : i = pollerThread) (h : l.poller = .running) :
    Step w patient i l .outside l .selecting
  | tick {l} : Step w patient i l .selecting l (.within .poll .polling)
  | quit {l} (h : l.done = true) : Step w patient i l .selecting l .stopping
  | finish {l} :
    Step w patient i l .stopping { l with wg := l.wg - 1, poller := .stopped } .stopped
  | first {l} (h : l.closeOnce = .fresh) :
    Step w patient i l .closing { l with closeOnce := .running i } .inOnce
  | close {l} :
    Step w patient i l .inOnce { l with done := true, closes := l.closes + 1 } .onceClosed
  | leave {l} : Step w patient i l .onceClosed { l with closeOnce := .finished } .waitingWg
  | later {l} (h : l.closeOnce = .finished) : Step w patient i l .closing l .waitingWg
  | wait {l} (h : l.wg = 0) : Step w patient i l .waitingWg { l with closed := true } .outside

/-- **What the bridge of a context does**: it waits for `done`, and then cancels the
context, or for the context, and leaves. -/
def Bridge (l l' : Life β T) : Prop :=
  ∃ n c, l.contexts n = some c ∧ c.bridge = true ∧ (l.done = true ∨ c.cancelled = true)
    ∧ l' = l.setContext n ⟨true, false⟩

/-- **The watcher from `New` to `Close`**, among everyone else. The bridges run
beside the threads. -/
def living (w : Config β T) (patient : Bool) : Threads (Life β T) (LifePc β T) where
  init l := ∃ disk, l = { watcher := { disk } }
  start := .outside
  env l l' :=
    (∃ disk', l.watcher.disk.Step disk'
        ∧ l' = { l with watcher := { l.watcher with disk := disk' } })
      ∨ Bridge l l'
  step := Life.Step w patient

/-! ## What a step of `poll` or `Reload` does to the lock -/

theorem pc_resume (sh : Shared β T) (caller : Caller) (pc : Pc β T) :
    (resume sh caller pc).pc = pc := by
  cases pc with
  | idle =>
    cases caller with
    | new =>
      rw [resume]
      split
      · rfl
      · rfl
    | reload | poll => rfl
  | _ => rfl

theorem resume_of_ne (sh : Shared β T) (caller : Caller) {pc : Pc β T} (h : pc ≠ .idle) :
    resume sh caller pc = .within caller pc := by
  cases pc with
  | idle => exact absurd rfl h
  | _ => rfl

section Inner

variable {w : Config β T} {i : ℕ} {sh sh' : Shared β T} {pc pc' : Pc β T}

theorem job_afterParse (job : Job T) (j : ℕ) (info : FileInfo)
    (r : Except String (Option T × List String)) :
    (w.afterParse job j info r).job = some job
      ∧ (w.afterParse job j info r).caller = some job.caller := by
  match r with
  | .error e => exact ⟨rfl, rfl⟩
  | .ok (none, warnings) => exact ⟨rfl, rfl⟩
  | .ok (some t, warnings) => exact ⟨rfl, rfl⟩

theorem job_afterStat (job : Job T) (info after : FileInfo) (t : T) (warnings : List String) :
    (w.afterStat job info after t warnings : Pc β T).job = some job
      ∧ (w.afterStat job info after t warnings : Pc β T).caller = some job.caller := by
  unfold Config.afterStat
  split
  · exact ⟨rfl, rfl⟩
  · exact ⟨rfl, rfl⟩

/-- **A step takes the lock, gives it back, or leaves it alone.** -/
theorem Step.mutex (h : Step w i sh pc sh' pc') :
    (sh'.mu = sh.mu ∧ sh'.jobs = sh.jobs ∧ sh'.started = sh.started ∧ pc'.job = pc.job)
      ∨ (sh.mu = none ∧ sh'.mu = some i ∧ sh'.jobs = sh.jobs + 1 ∧ sh'.started = sh.started
        ∧ pc.job = none ∧ ∃ job, pc'.job = some job ∧ job.number = sh.jobs)
      ∨ ∃ job err, pc = .returning job err ∧ pc' = .idle ∧ sh'.mu = none ∧ sh'.jobs = sh.jobs
        ∧ sh'.started = (sh.started || (job.caller = .new && err.isNone)) := by
  cases h with
  | lock hmu => exact .inr (.inl ⟨hmu, rfl, rfl, rfl, rfl, _, rfl, rfl⟩)
  | @unlock job err => exact .inr (.inr ⟨job, err, rfl, rfl, rfl, rfl, rfl⟩)
  | parse => exact .inl ⟨rfl, rfl, rfl, (job_afterParse ..).1⟩
  | statAfter => exact .inl ⟨rfl, rfl, rfl, (job_afterStat ..).1⟩
  | _ => exact .inl ⟨rfl, rfl, rfl, rfl⟩

/-- A thread stays in the call it is in until it leaves it. -/
theorem Step.caller_eq (h : Step w i sh pc sh' pc') (hpc : pc ≠ .idle) (hpc' : pc' ≠ .idle) :
    pc'.caller = pc.caller := by
  cases h with
  | callNew | callReload | callPoll => exact absurd rfl hpc
  | pollStatFails | pollSkips | unlock => exact absurd rfl hpc'
  | parse => exact (job_afterParse ..).2
  | statAfter => exact (job_afterStat ..).2
  | _ => rfl

theorem Step.started_of (h : Step w i sh pc sh' pc') (hst : sh.started = true) :
    sh'.started = true := by
  rcases h.mutex with ⟨-, -, h', -⟩ | ⟨-, -, -, h', -⟩ | ⟨job, err, -, -, -, -, h'⟩
  · rw [h', hst]
  · rw [h', hst]
  · rw [h', hst]
    rfl

end Inner

/-! ## The invariant -/

/-- What holds of a thread in `poll` or `Reload`: it knows on whose behalf, and in a
reload it has the lock, and its number is the last one given. -/
structure Owns (i : ℕ) (sh : Shared β T) (caller : Caller) (pc : Pc β T) : Prop where
  caller : pc.caller = some caller
  lock : ∀ job, pc.job = some job → sh.mu = some i ∧ job.number + 1 = sh.jobs

/-- What holds of the shared state. -/
structure Life.Sound (l : Life β T) : Prop where
  wg : l.wg = if l.poller = .added ∨ l.poller = .running then 1 else 0
  closes : l.closes = if l.done then 1 else 0
  fresh : l.closeOnce = .fresh → l.done = false
  finished : l.closeOnce = .finished → l.done = true
  closed : l.closed = true → l.done = true ∧ l.poller = .stopped
  returned : l.returned = true ↔ l.poller = .running ∨ l.poller = .stopped
  started : l.poller ≠ .unborn → l.watcher.started = true
  unborn : l.creator = none → l.watcher.started = false ∧ l.poller = .unborn
  live : ∀ n c, l.contexts n = some c → c.cancelled = false →
    c.bridge = true ∧ l.watcher.mu ≠ none ∧ n + 1 = l.watcher.jobs

/-- What holds of thread `i`, where it is. -/
def Life.At (i : ℕ) (l : Life β T) : LifePc β T → Prop
  | .outside => i = pollerThread → l.poller ≠ .stopped
  | .within .new pc => Owns i l.watcher .new pc ∧ i ≠ pollerThread ∧ l.creator = some i
    ∧ l.poller = .unborn
  | .within .reload pc => Owns i l.watcher .reload pc ∧ i ≠ pollerThread ∧ l.returned = true
  | .within .poll pc => Owns i l.watcher .poll pc ∧ i = pollerThread ∧ l.poller = .running
  | .adding => i ≠ pollerThread ∧ l.creator = some i ∧ l.poller = .unborn
    ∧ l.watcher.started = true
  | .spawning => i ≠ pollerThread ∧ l.creator = some i ∧ l.poller = .added
  | .selecting => i = pollerThread ∧ l.poller = .running
  | .stopping => i = pollerThread ∧ l.poller = .running ∧ l.done = true
  | .stopped => i = pollerThread ∧ l.poller = .stopped
  | .closing => i ≠ pollerThread ∧ l.returned = true
  | .inOnce => i ≠ pollerThread ∧ l.returned = true ∧ l.closeOnce = .running i
    ∧ l.done = false
  | .onceClosed => i ≠ pollerThread ∧ l.returned = true ∧ l.closeOnce = .running i
    ∧ l.done = true
  | .waitingWg => i ≠ pollerThread ∧ l.returned = true ∧ l.done = true

/-- A thread that runs the function given to `closeOnce`. -/
def LifePc.inDo : LifePc β T → Bool
  | .inOnce | .onceClosed => true
  | _ => false

/-- A thread that has the lock is in a reload, and one that runs the function of
`closeOnce` is in it. -/
structure Life.Busy (i : ℕ) (l : Life β T) (pc : LifePc β T) : Prop where
  lock : l.watcher.mu = some i → pc.pc.job ≠ none
  once : l.closeOnce = .running i → pc.inDo = true

/-- What the step of another thread leaves as it was, so far as thread `j` relies on
it. -/
structure Life.Keeps (j : ℕ) (l l' : Life β T) : Prop where
  owns : ∀ caller pc, Owns j l.watcher caller pc → Owns j l'.watcher caller pc
  mu : l'.watcher.mu = some j → l.watcher.mu = some j
  started : l.watcher.started = true → l'.watcher.started = true
  creator : l.creator = some j → l'.creator = some j
    ∧ (l.poller = .unborn → l'.poller = .unborn) ∧ (l.poller = .added → l'.poller = .added)
  poller : j = pollerThread → (l.poller = .running → l'.poller = .running)
    ∧ (l'.poller = .stopped ↔ l.poller = .stopped)
  once : l'.closeOnce = .running j ↔ l.closeOnce = .running j
  open_once : l.closeOnce = .running j → l'.done = l.done
  done : l.done = true → l'.done = true
  returned : l.returned = true → l'.returned = true

section Steps

variable {w : Config β T} {patient : Bool} {i j : ℕ} {l l' : Life β T} {pc pc' : LifePc β T}

theorem Life.At.mono (h : l.At j pc) (hk : Keeps j l l') : l'.At j pc := by
  cases pc with
  | outside => exact fun hj hst => h hj ((hk.poller hj).2.mp hst)
  | within caller pc =>
    cases caller with
    | new =>
      obtain ⟨ho, hj, hc, hp⟩ := h
      exact ⟨hk.owns _ _ ho, hj, (hk.creator hc).1, (hk.creator hc).2.1 hp⟩
    | reload => exact ⟨hk.owns _ _ h.1, h.2.1, hk.returned h.2.2⟩
    | poll => exact ⟨hk.owns _ _ h.1, h.2.1, (hk.poller h.2.1).1 h.2.2⟩
  | adding =>
    obtain ⟨hj, hc, hp, hst⟩ := h
    exact ⟨hj, (hk.creator hc).1, (hk.creator hc).2.1 hp, hk.started hst⟩
  | spawning =>
    obtain ⟨hj, hc, hp⟩ := h
    exact ⟨hj, (hk.creator hc).1, (hk.creator hc).2.2 hp⟩
  | selecting => exact ⟨h.1, (hk.poller h.1).1 h.2⟩
  | stopping => exact ⟨h.1, (hk.poller h.1).1 h.2.1, hk.done h.2.2⟩
  | stopped => exact ⟨h.1, (hk.poller h.1).2.mpr h.2⟩
  | closing => exact ⟨h.1, hk.returned h.2⟩
  | inOnce | onceClosed =>
    obtain ⟨hj, hr, ho, hd⟩ := h
    exact ⟨hj, hk.returned hr, hk.once.mpr ho, (hk.open_once ho).trans hd⟩
  | waitingWg => exact ⟨h.1, hk.returned h.2.1, hk.done h.2.2⟩

theorem Life.Busy.mono (h : l.Busy j pc) (hk : Keeps j l l') : l'.Busy j pc :=
  ⟨fun hmu => h.lock (hk.mu hmu), fun ho => h.once (hk.once.mp ho)⟩

/-- A step that leaves the watcher alone, and all that is relied on. -/
theorem Life.Keeps.of_eq (hw : l'.watcher = l.watcher) (hc : l'.creator = l.creator)
    (hp : l'.poller = l.poller) (ho : l'.closeOnce = l.closeOnce) (hd : l'.done = l.done)
    (hr : l'.returned = l.returned) : Keeps j l l' where
  owns _ _ h := by rw [hw]; exact h
  mu h := by rw [← hw]; exact h
  started h := by rw [hw]; exact h
  creator h := ⟨hc.trans h, fun h => hp.trans h, fun h => hp.trans h⟩
  poller _ := ⟨fun h => hp.trans h, by rw [hp]⟩
  once := by rw [ho]
  open_once _ := hd
  done h := hd.trans h
  returned h := hr.trans h

/-- A thread in `poll` or `Reload` is in a call that someone was able to make. -/
theorem Life.At.creator_ne {caller : Caller} {pc : Pc β T} (h : l.At i (.within caller pc))
    (hs : l.Sound) : l.creator ≠ none := by
  intro hc
  have hunborn := (hs.unborn hc).2
  cases caller with
  | new =>
    rw [h.2.2.1] at hc
    cases hc
  | reload =>
    rcases hs.returned.mp h.2.2 with hp | hp
    · rw [hunborn] at hp
      cases hp
    · rw [hunborn] at hp
      cases hp
  | poll =>
    rw [h.2.2] at hunborn
    cases hunborn

theorem Life.At.owns {caller : Caller} {pc : Pc β T} (h : l.At i (.within caller pc)) :
    Owns i l.watcher caller pc := by
  cases caller with
  | new | reload | poll => exact h.1

/-- A step in `poll` or `Reload` keeps what others rely on. -/
theorem Step.keeps {sh' : Shared β T} {caller : Caller} {m m' : Pc β T}
    (h : Step w i l.watcher m sh' m') (ho : Owns i l.watcher caller m) (hj : j ≠ i) :
    Life.Keeps j l { l with watcher := sh' } where
  owns caller' pc' ho' := by
    refine ⟨ho'.caller, fun job hjob => ?_⟩
    obtain ⟨hmu, hnum⟩ := ho'.lock job hjob
    rcases h.mutex with ⟨hmu', hjobs, -⟩ | ⟨hfree, -⟩ | ⟨mine, err, rfl, -⟩
    · exact ⟨hmu'.trans hmu, hnum.trans hjobs.symm⟩
    · rw [hmu] at hfree
      cases hfree
    · have hmine := (ho.lock mine rfl).1
      rw [hmu, Option.some.injEq] at hmine
      exact absurd hmine hj
  mu hmu := by
    rcases h.mutex with ⟨hmu', -⟩ | ⟨-, hmu', -⟩ | ⟨-, -, -, -, hmu', -⟩
    · exact hmu'.symm.trans hmu
    · have hi := hmu'.symm.trans hmu
      rw [Option.some.injEq] at hi
      exact absurd hi.symm hj
    · cases hmu'.symm.trans hmu
  started := h.started_of
  creator hc := ⟨hc, id, id⟩
  poller _ := ⟨id, Iff.rfl⟩
  once := Iff.rfl
  open_once _ := rfl
  done := id
  returned := id

/-- **The step of a thread keeps what the others rely on.** -/
theorem Life.Step.keeps (h : Life.Step w patient i l pc l' pc') (hat : l.At i pc)
    (hj : j ≠ i) : Keeps j l l' := by
  have hsame : Keeps j l l := .of_eq rfl rfl rfl rfl rfl rfl
  have hsome : some i ≠ some j := fun h => hj (Option.some.inj h).symm
  have hrunning : Once.running i ≠ .running j := fun h => hj (Once.running.inj h).symm
  cases h with
  | callReload | callClose | start | tick | quit | later => exact hsame
  | wait | openContext | cancel => exact .of_eq rfl rfl rfl rfl rfl rfl
  | inner hpc hmay h => exact h.keeps hat.owns hj
  | callNew hi hc =>
    refine { hsame with creator := fun hcj => ?_ }
    rw [hc] at hcj
    cases hcj
  | add =>
    obtain ⟨-, hc, hp, -⟩ := hat
    refine { hsame with creator := fun hcj => absurd (hc.symm.trans hcj) hsome, poller := ?_ }
    simp [hp]
  | spawn =>
    obtain ⟨-, hc, hp⟩ := hat
    refine { hsame with
      creator := fun hcj => absurd (hc.symm.trans hcj) hsome
      poller := ?_
      returned := fun _ => rfl }
    simp [hp]
  | finish =>
    obtain ⟨hi, hp, -⟩ := hat
    refine { hsame with
      creator := fun hcj => ⟨hcj, ?_, ?_⟩
      poller := fun hjp => absurd (hjp.trans hi.symm) hj }
    · simp [hp]
    · simp [hp]
  | first ho =>
    refine { hsame with once := ?_ }
    simp [ho, hrunning]
  | close =>
    obtain ⟨-, -, ho, -⟩ := hat
    exact { hsame with
      open_once := fun hoj => absurd (ho.symm.trans hoj) hrunning
      done := fun _ => rfl }
  | leave =>
    obtain ⟨-, -, ho, -⟩ := hat
    refine { hsame with once := ?_, open_once := fun _ => rfl }
    simp [ho, hrunning]

theorem Owns.step {sh sh' : Shared β T} {caller : Caller} {m m' : Pc β T}
    (h : Step w i sh m sh' m') (ho : Owns i sh caller m) (hm : m ≠ .idle) (hm' : m' ≠ .idle) :
    Owns i sh' caller m' := by
  refine ⟨(h.caller_eq hm hm').trans ho.caller, fun job hjob => ?_⟩
  rcases h.mutex with ⟨hmu, hjobs, -, heq⟩ | ⟨-, hmu, hjobs, -, -, mine, hmine, hnum⟩ |
    ⟨-, -, -, hidle, -⟩
  · obtain ⟨hmu', hnum⟩ := ho.lock job (heq.symm.trans hjob)
    exact ⟨hmu.trans hmu', hnum.trans hjobs.symm⟩
  · cases hjob.symm.trans hmine
    exact ⟨hmu, by rw [hnum, hjobs]⟩
  · exact absurd hidle hm'

/-- No context is live when the lock is taken or given back, and the live one stays
that of the reload that has the lock. -/
theorem Life.Sound.inner {sh' : Shared β T} {caller : Caller} {m m' : Pc β T}
    (hs : l.Sound) (hat : l.At i (.within caller m)) (hmay : May w patient l m)
    (h : FileWatch.Step w i l.watcher m sh' m') : Life.Sound { l with watcher := sh' } := by
  refine { hs with
    started := fun hp => h.started_of (hs.started hp)
    unborn := fun hc => absurd hc (hat.creator_ne hs)
    live := fun n c hn hc => ?_ }
  obtain ⟨hb, hmu, hnum⟩ := hs.live n c hn hc
  refine ⟨hb, ?_⟩
  rcases h.mutex with ⟨hmu', hjobs, -⟩ | ⟨hfree, -⟩ | ⟨job, err, rfl, -⟩
  · exact ⟨fun hnone => hmu (hmu'.symm.trans hnone), hnum.trans hjobs.symm⟩
  · exact absurd hfree hmu
  · have hjob := (hat.owns.lock job rfl).2
    have hnj : n = job.number := by omega
    subst hnj
    rw [hmay c hn] at hc
    cases hc

theorem Life.Sound.setContext (hs : l.Sound) {n : ℕ} {c : CloseContext}
    (h : c.cancelled = false →
      c.bridge = true ∧ l.watcher.mu ≠ none ∧ n + 1 = l.watcher.jobs) :
    (l.setContext n c).Sound := by
  refine { hs with live := fun m c' hm hc' => ?_ }
  by_cases hmn : m = n
  · subst hmn
    rw [Life.setContext_self, Option.some.injEq] at hm
    subst hm
    exact h hc'
  · rw [Life.setContext_of_ne _ hmn] at hm
    exact hs.live m c' hm hc'

/-- Where a thread goes on after a step in `poll` or `Reload`. -/
theorem Life.At.resume {sh' : Shared β T} {caller : Caller} {m m' : Pc β T}
    (hat : l.At i (.within caller m)) (hm : m ≠ .idle)
    (h : FileWatch.Step w i l.watcher m sh' m') :
    Life.At i { l with watcher := sh' } (resume sh' caller m') := by
  by_cases hm' : m' = .idle
  · subst hm'
    cases caller with
    | new =>
      obtain ⟨-, hi, hc, hp⟩ := hat
      rw [FileWatch.resume]
      split
      · next hst => exact ⟨hi, hc, hp, hst⟩
      · exact fun hi' => absurd hi' hi
    | reload => exact fun hi => absurd hi hat.2.1
    | poll => exact hat.2
  · rw [resume_of_ne _ _ hm']
    have howns := hat.owns.step h hm hm'
    cases caller with
    | new | reload | poll => exact ⟨howns, hat.2⟩

theorem Life.Busy.resume {sh' : Shared β T} {caller : Caller} {m m' : Pc β T}
    (hb : l.Busy i (.within caller m)) (h : FileWatch.Step w i l.watcher m sh' m') :
    Life.Busy i { l with watcher := sh' } (resume sh' caller m') := by
  refine ⟨fun hmu => ?_, fun ho => ?_⟩
  · rw [pc_resume]
    rcases h.mutex with ⟨hmu', -, -, heq⟩ | ⟨-, -, -, -, -, job, hjob, -⟩ |
      ⟨-, -, -, -, hmu', -⟩
    · rw [heq]
      exact hb.lock (hmu'.symm.trans hmu)
    · rw [hjob]
      exact Option.some_ne_none job
    · cases hmu'.symm.trans hmu
  · cases hb.once ho

/-- A thread that has neither the lock nor the function of `closeOnce`. -/
theorem Life.Busy.of_free (hb : l.Busy i pc) (hpc : pc.pc.job = none) (hdo : pc.inDo = false)
    (hw : l'.watcher.mu = l.watcher.mu) (ho : l'.closeOnce = l.closeOnce) :
    l'.Busy i pc' := by
  refine ⟨fun hmu => ?_, fun hrun => ?_⟩
  · exact absurd hpc (hb.lock (hw.symm.trans hmu))
  · rw [hb.once (ho.symm.trans hrun)] at hdo
    cases hdo

/-- **A thread's step keeps the shared state sound, and establishes what holds where
it gets to.** -/
theorem Life.Step.sound (h : Life.Step w patient i l pc l' pc') (hs : l.Sound)
    (hp : l.At i pc ∧ l.Busy i pc) : l'.Sound ∧ l'.At i pc' ∧ l'.Busy i pc' := by
  obtain ⟨hat, hb⟩ := hp
  cases h with
  | callNew hi hc =>
    exact ⟨{ hs with unborn := fun h => by cases h },
      ⟨⟨rfl, fun _ h => by cases h⟩, hi, rfl, (hs.unborn hc).2⟩, hb.of_free rfl rfl rfl rfl⟩
  | callReload hi hr =>
    exact ⟨hs, ⟨⟨rfl, fun _ h => by cases h⟩, hi, hr⟩, hb.of_free rfl rfl rfl rfl⟩
  | callClose hi hr => exact ⟨hs, ⟨hi, hr⟩, hb.of_free rfl rfl rfl rfl⟩
  | inner hpc hmay h => exact ⟨hs.inner hat hmay h, hat.resume hpc h, hb.resume h⟩
  | openContext hv h =>
    refine ⟨hs.setContext (fun _ => ⟨rfl, ?_⟩), ?_, hb.lock, hb.once⟩
    · obtain ⟨hmu, hnum⟩ := hat.owns.lock _ rfl
      rw [hmu]
      exact ⟨Option.some_ne_none i, hnum⟩
    · exact hat.mono (.of_eq rfl rfl rfl rfl rfl rfl)
  | cancel h =>
    exact ⟨hs.setContext (fun hc => by cases hc), hat.mono (.of_eq rfl rfl rfl rfl rfl rfl),
      hb.lock, hb.once⟩
  | add =>
    obtain ⟨hi, hc, hp, hst⟩ := hat
    refine ⟨{ hs with
      wg := ?_, closed := ?_, returned := ?_, started := fun _ => hst, unborn := ?_ },
      ⟨hi, hc, rfl⟩, hb.of_free rfl rfl rfl rfl⟩
    · simp [hs.wg, hp]
    · intro hcl
      have := (hs.closed hcl).2
      simp [hp] at this
    · simp [hs.returned, hp]
    · simp [hc]
  | spawn =>
    obtain ⟨hi, hc, hp⟩ := hat
    refine ⟨{ hs with
      wg := ?_, closed := ?_, returned := ?_, started := fun _ => hs.started ?_, unborn := ?_ },
      fun h => absurd h hi, hb.of_free rfl rfl rfl rfl⟩
    · simp [hs.wg, hp]
    · intro hcl
      have := (hs.closed hcl).2
      simp [hp] at this
    · simp
    · simp [hp]
    · simp [hc]
  | start hi hp => exact ⟨hs, ⟨hi, hp⟩, hb.of_free rfl rfl rfl rfl⟩
  | tick =>
    exact ⟨hs, ⟨⟨rfl, fun _ h => by cases h⟩, hat⟩, hb.of_free rfl rfl rfl rfl⟩
  | quit hd => exact ⟨hs, ⟨hat.1, hat.2, hd⟩, hb.of_free rfl rfl rfl rfl⟩
  | finish =>
    obtain ⟨hi, hp, hd⟩ := hat
    refine ⟨{ hs with
      wg := ?_, closed := fun _ => ⟨hd, rfl⟩, returned := ?_,
      started := fun _ => hs.started ?_, unborn := fun hc => ?_ },
      ⟨hi, rfl⟩, hb.of_free rfl rfl rfl rfl⟩
    · simp [hs.wg, hp]
    · simp [hs.returned, hp]
    · simp [hp]
    · have := (hs.unborn hc).2
      simp [hp] at this
  | first ho =>
    refine ⟨{ hs with fresh := ?_, finished := ?_ }, ⟨hat.1, hat.2, rfl, hs.fresh ho⟩,
      fun hmu => absurd rfl (hb.lock hmu), fun _ => rfl⟩
    · simp
    · simp
  | close =>
    obtain ⟨hi, hr, ho, hd⟩ := hat
    refine ⟨{ hs with
      closes := ?_, fresh := ?_, finished := fun _ => rfl,
      closed := fun hcl => ⟨rfl, (hs.closed hcl).2⟩ },
      ⟨hi, hr, ho, rfl⟩, fun hmu => absurd rfl (hb.lock hmu), fun _ => rfl⟩
    · simp [hs.closes, hd]
    · simp [ho]
  | leave =>
    obtain ⟨hi, hr, ho, hd⟩ := hat
    refine ⟨{ hs with fresh := ?_, finished := fun _ => hd }, ⟨hi, hr, hd⟩,
      fun hmu => absurd rfl (hb.lock hmu), ?_⟩
    · simp
    · simp
  | later ho =>
    exact ⟨hs, ⟨hat.1, hat.2, hs.finished ho⟩, hb.of_free rfl rfl rfl rfl⟩
  | wait hwg =>
    obtain ⟨hi, hr, hd⟩ := hat
    refine ⟨{ hs with closed := fun _ => ⟨hd, ?_⟩ }, fun h => absurd h hi,
      hb.of_free rfl rfl rfl rfl⟩
    rcases hs.returned.mp hr with hp | hp
    · have := hs.wg
      simp [hp, hwg] at this
    · exact hp

end Steps

/-- **The watcher is sound at every moment of its life.** -/
theorem Life.sound_of_reachable {w : Config β T} {patient : Bool}
    {st : Threads.State (Life β T) (LifePc β T)}
    (h : (living w patient).system.Reachable st) :
    st.shared.Sound ∧ ∀ i, st.shared.At i (st.thread i) ∧ st.shared.Busy i (st.thread i) := by
  refine Threads.invariant (T := living w patient) (G := Life.Sound)
    (P := fun i l pc => l.At i pc ∧ l.Busy i pc) ?_ ?_
    (fun _ _ _ _ _ => Life.Step.sound)
    (fun _ _ _ _ _ hstep hp _ _ hj hm =>
      ⟨hm.1.mono (hstep.keeps hp.1 hj), hm.2.mono (hstep.keeps hp.1 hj)⟩) h
  · rintro _ ⟨disk, rfl⟩
    refine ⟨⟨rfl, rfl, fun _ => rfl, ?_, ?_, ?_, ?_, ?_, ?_⟩, fun _ => ⟨?_, ?_, ?_⟩⟩
    all_goals simp [living, Life.At]
  · rintro l _ (⟨disk', -, rfl⟩ | ⟨n, c, hn, hb, -, rfl⟩) hs
    · have hk : ∀ j, Life.Keeps j l { l with watcher := { l.watcher with disk := disk' } } :=
        fun j => ⟨fun _ _ ho => ⟨ho.caller, ho.lock⟩, id, id, fun hc => ⟨hc, id, id⟩,
          fun _ => ⟨id, Iff.rfl⟩, Iff.rfl, fun _ => rfl, id, id⟩
      exact ⟨⟨hs.wg, hs.closes, hs.fresh, hs.finished, hs.closed, hs.returned, hs.started,
        hs.unborn, hs.live⟩, fun i pc hp => ⟨hp.1.mono (hk i), hp.2.mono (hk i)⟩⟩
    · have hk : ∀ j, Life.Keeps j l (l.setContext n ⟨true, false⟩) :=
        fun j => .of_eq rfl rfl rfl rfl rfl rfl
      exact ⟨hs.setContext (fun hc => by cases hc),
        fun i pc hp => ⟨hp.1.mono (hk i), hp.2.mono (hk i)⟩⟩

/-- Whoever has the watcher has one whose file was loaded. -/
theorem Life.Sound.started_of_returned {l : Life β T} (hs : l.Sound) (h : l.returned = true) :
    l.watcher.started = true := by
  refine hs.started fun hun => ?_
  rcases hs.returned.mp h with hp | hp
  · cases hun.symm.trans hp
  · cases hun.symm.trans hp

/-! ## The watcher without its life -/

/-- What `watching` sees of a state. -/
def watched (st : Threads.State (Life β T) (LifePc β T)) :
    Threads.State (Shared β T) (Pc β T) :=
  ⟨st.shared.watcher, LifePc.pc ∘ st.thread⟩

section Watched

variable {w : Config β T} {l l' : Life β T} {ls : ℕ → LifePc β T} {i : ℕ} {pc pc' : LifePc β T}

/-- A step that `watching` sees nothing of. -/
theorem watched_stutter (hls : ls i = pc) (hw : l'.watcher = l.watcher)
    (hpc : pc'.pc = pc.pc) :
    watched ⟨l', Function.update ls i pc'⟩ = watched ⟨l, ls⟩ := by
  subst hls
  unfold watched
  simp only [hw, Function.comp_update, hpc, Threads.State.mk.injEq, true_and]
  exact Function.update_eq_self_iff.mpr rfl

/-- A step that it sees. -/
theorem watched_step (hls : ls i = pc) (h : Step w i l.watcher pc.pc l'.watcher pc'.pc) :
    (watching w).system.step (watched ⟨l, ls⟩) (watched ⟨l', Function.update ls i pc'⟩) := by
  subst hls
  unfold watched
  simp only [Function.comp_update]
  exact .thread i h

end Watched

/-- **The life of a watcher refines the watcher.** Whatever is shown of `watching`
holds of a watcher that is created, polled, reloaded and closed. -/
theorem watching_of_living {w : Config β T} {patient : Bool}
    {st : Threads.State (Life β T) (LifePc β T)}
    (h : (living w patient).system.Reachable st) :
    (watching w).system.Reachable (watched st) := by
  refine h.map watched ?_ ?_
  · rintro ⟨l, ls⟩ ⟨⟨disk, rfl⟩, hls⟩
    cases hls
    exact ⟨⟨disk, rfl⟩, rfl⟩
  · rintro _ _ hr (⟨⟨disk', hd, rfl⟩ | ⟨n, c, -, -, -, rfl⟩⟩ | @⟨l, l', ls, i, pc', hi⟩)
    · exact .inr (.env ⟨disk', hd, rfl⟩)
    · exact .inl rfl
    · obtain ⟨hs, hP⟩ := Life.sound_of_reachable hr
      have hat := (hP i).1
      dsimp only [living] at hi hat
      generalize hpc : ls i = pc at hi hat
      cases hi with
      | callNew hi hc => exact .inr (watched_step hpc (.callNew (hs.unborn hc).1))
      | callReload hi hret =>
        exact .inr (watched_step hpc (.callReload (hs.started_of_returned hret)))
      | tick => exact .inr (watched_step hpc (.callPoll (hs.started (by simp [hat.2]))))
      | inner hm hmay h =>
        refine .inr (watched_step hpc ?_)
        rw [pc_resume]
        exact h
      | _ => exact .inl (watched_stutter hpc rfl rfl)

/-! ## A watcher that is created -/

/-- The policy `* @default` parses. -/
theorem run_default : ∃ t warnings,
    (MacPolicy.watchConfig GoLib.literal "/policy").parse.run "* @default\n".toList
      = .ok (some t, warnings) :=
  ⟨_, _, MacPolicy.run_watchConfig "/policy" rfl⟩

section Created

variable {w : Config β T} {disk : Disk β} {j : ℕ} {f : File β} {t : T} {warnings : List String}

/-- A file that is read at once is parsed whole. -/
theorem Step.parse_whole {sh : Shared β T} {i : ℕ} {job : Job T} {info : FileInfo}
    (hf : sh.disk.files j = some f) (ht : w.parse.run f.content = .ok (some t, warnings)) :
    Step w i sh (.reading job j info ([] ++ (f.content.drop 0).take f.content.length)) sh
      (.parsed job j info t warnings) := by
  refine .parse (r := .ok (some t, warnings)) (.inr ⟨f, hf, ?_, ?_⟩)
  · simp
  · simpa using ht

/-- A file that has not changed in the meantime passes the second `Stat`. -/
theorem Step.stat_unchanged {sh : Shared β T} {i : ℕ} {job : Job T}
    (hf : sh.disk.files j = some f) :
    Step w i sh (.parsed job j f.stat t warnings) sh (.checked job f.stat t warnings) := by
  have hafter : w.afterStat job f.stat f.stat t warnings
      = (.checked job f.stat t warnings : Pc β T) := by
    rw [Config.afterStat, fileChanged_eq_false_iff.mpr rfl]
    rfl
  rw [← hafter]
  exact .statAfter hf

/-- One step inside `Reload`. -/
theorem run_inner {patient : Bool} {i : ℕ} {l : Life β T} {sh' : Shared β T} {caller : Caller}
    {pc pc' : Pc β T} {b : Life β T × LifePc β T} (hpc : pc ≠ .idle) (hpc' : pc' ≠ .idle)
    (hmay : May w patient l pc) (h : FileWatch.Step w i l.watcher pc sh' pc')
    (hrun : (living w patient).Run i ({ l with watcher := sh' }, .within caller pc') b) :
    (living w patient).Run i (l, .within caller pc) b := by
  have hstep : Life.Step w patient i l (.within caller pc) _ _ := .inner hpc hmay h
  rw [resume_of_ne _ _ hpc'] at hstep
  exact .step hstep hrun

/-- The reload of `New` up to the validation, by thread 1 and undisturbed. -/
theorem run_checked (w : Config β T) (hp : disk.path = some j) (hf : disk.files j = some f)
    (ht : w.parse.run f.content = .ok (some t, warnings)) :
    (living w false).Run 1 ({ watcher := { disk } }, .outside)
      ({ watcher := { disk, mu := some 1, jobs := 1 }, creator := some 1 },
        .within .new (.checked ⟨.new, 0, none, none⟩ f.stat t warnings)) := by
  refine .step (.callNew (by decide) rfl) ?_
  refine run_inner (by simp) (by simp) trivial (.lock rfl) ?_
  refine run_inner (by simp) (by simp) trivial (.open hp hf) ?_
  refine run_inner (by simp) (by simp) trivial (.stat hf) ?_
  refine run_inner (by simp) (by simp) trivial (.read f.content.length hf) ?_
  refine run_inner (by simp) (by simp) trivial (.parse_whole hf ht) ?_
  refine run_inner (by simp) (by simp) trivial (.stat_unchanged hf) ?_
  exact .refl

/-- **A watcher whose file parses and passes validation can be created.** -/
theorem living_starts (hv : w.validate = true) (hp : disk.path = some j)
    (hf : disk.files j = some f) (ht : w.parse.run f.content = .ok (some t, warnings)) :
    ∃ l : Life β T, (living w false).system.Reachable ⟨l, fun _ => .outside⟩
      ∧ l.returned = true ∧ l.poller = .running ∧ l.closeOnce = .fresh ∧ l.wg = 1
      ∧ l.watcher.snapshot = some t := by
  have hinit : (living w false).system.Reachable ⟨{ watcher := { disk } }, fun _ => .outside⟩ :=
    .init ⟨⟨disk, rfl⟩, rfl⟩
  have hpublish : ∃ l : Life β T, (living w false).Run 1
      ({ watcher := { disk, mu := some 1, jobs := 1 }, creator := some 1 },
        .within .new (.checked ⟨.new, 0, none, none⟩ f.stat t warnings)) (l, .outside)
      ∧ l.returned = true ∧ l.poller = .running ∧ l.closeOnce = .fresh ∧ l.wg = 1
      ∧ l.watcher.snapshot = some t := by
    apply Exists.intro
    constructor
    refine .step (.openContext hv rfl) ?_
    refine run_inner (by simp) (by simp) (fun _ => ⟨{}, rfl, by simp⟩) (.accepts hv) ?_
    refine run_inner (by simp) (by simp) trivial .store ?_
    refine run_inner (by simp) (by simp) trivial .setLastInfo ?_
    refine .step (.cancel rfl) ?_
    refine .step (.inner (by simp) (fun c hc => by cases hc; rfl) .unlock) ?_
    exact .step .add (.step .spawn .refl)
    exact ⟨rfl, rfl, rfl, rfl, rfl⟩
  obtain ⟨l, hrun, hl⟩ := hpublish
  have hreach := Threads.reachable_of_run hinit ((run_checked w hp hf ht).trans hrun)
  rw [Function.update_eq_self] at hreach
  exact ⟨l, hreach, hl⟩

/-- It can be closed. -/
theorem living_closes (hv : w.validate = true) (hp : disk.path = some j)
    (hf : disk.files j = some f) (ht : w.parse.run f.content = .ok (some t, warnings)) :
    ∃ st, (living w false).system.Reachable st ∧ st.shared.closed = true := by
  obtain ⟨l, hreach, hret, hpoller, honce, hwg, -⟩ := living_starts hv hp hf ht
  -- thread 1 closes `done`, the poller starts late and leaves at once, thread 1 returns
  have hclose := Threads.reachable_of_run (i := 1) hreach
    (.step (.callClose (by decide) hret) (.step (.first honce) (.step .close (.step .leave .refl))))
  have hleave := Threads.reachable_of_run (i := pollerThread) hclose
    (.step (.start rfl hpoller) (.step (.quit rfl) (.step .finish .refl)))
  have hwait := Threads.reachable_of_run (i := 1) hleave
    (.step (.wait (show l.wg - 1 = 0 by rw [hwg])) .refl)
  exact ⟨_, hwait, rfl⟩

end Created

/-! ## Safety -/

section Safety

variable {w : Config β T} {patient : Bool} {st st' : Threads.State (Life β T) (LifePc β T)}

/-- A thread in a reload has the lock, and one that has the lock is in a reload. -/
theorem Life.mu_eq_some (h : (living w patient).system.Reachable st) {i : ℕ}
    (hmu : st.shared.watcher.mu = some i) :
    ∃ caller pc job, st.thread i = .within caller pc ∧ pc.job = some job
      ∧ job.number + 1 = st.shared.watcher.jobs := by
  obtain ⟨-, hP⟩ := Life.sound_of_reachable h
  obtain ⟨hat, hbusy⟩ := hP i
  have hjob := hbusy.lock hmu
  generalize st.thread i = pc at hat hjob
  cases pc with
  | within caller pc =>
    obtain ⟨job, hj⟩ := Option.ne_none_iff_exists'.mp hjob
    exact ⟨caller, pc, job, rfl, hj, (hat.owns.lock job hj).2⟩
  | _ => exact absurd rfl hjob

/-- After the poller has left, its thread is at its end. -/
theorem Life.At.stopped {l : Life β T} {pc : LifePc β T} (h : l.At pollerThread pc)
    (hp : l.poller = .stopped) : pc = .stopped := by
  cases pc with
  | stopped => rfl
  | outside => exact absurd hp (h rfl)
  | within caller pc =>
    cases caller with
    | new | reload => exact absurd rfl h.2.1
    | poll => cases hp.symm.trans h.2.2
  | selecting => cases hp.symm.trans h.2
  | stopping => cases hp.symm.trans h.2.1
  | adding | spawning | closing | inOnce | onceClosed | waitingWg => exact absurd rfl h.1

end Safety

/-- **Closing is safe.** At every moment of every run, `done` has been closed at most
once, the poller finds itself counted when it leaves, and a watcher that `New` has
returned has a snapshot. Once some `Close` has returned, the poller has left, nobody
is in `poll`, and a step changes the snapshot only if it is the store of an explicit
reload, of what was parsed from a whole file. -/
theorem closing_sound (w : Config β T) (patient : Bool)
    {st : Threads.State (Life β T) (LifePc β T)}
    (h : (living w patient).system.Reachable st) :
    st.shared.closes ≤ 1
      ∧ (∀ i, st.thread i = .stopping → st.shared.wg = 1)
      ∧ (st.shared.returned = true → st.shared.watcher.snapshot ≠ none)
      ∧ (st.shared.closed = true →
        st.shared.done = true ∧ st.shared.wg = 0 ∧ st.thread pollerThread = .stopped
          ∧ (∀ i pc, st.thread i ≠ .within .poll pc)
          ∧ ∀ st', (living w patient).system.step st st' →
            st'.shared.closed = true
              ∧ (st'.shared.watcher.snapshot = st.shared.watcher.snapshot
                ∨ ∃ i job info t warnings,
                  st.thread i = .within .reload (.validated job info t warnings)
                    ∧ st'.shared.watcher.snapshot = some t
                    ∧ Whole w st.shared.watcher.disk info t)) := by
  obtain ⟨hs, hP⟩ := Life.sound_of_reachable h
  obtain ⟨hwatch, hlocal⟩ := sound_of_reachable (watching_of_living h)
  refine ⟨?_, fun i hi => ?_, fun hret => ?_, fun hclosed => ?_⟩
  · rw [hs.closes]
    split
    · exact le_refl 1
    · exact Nat.zero_le 1
  · have hat := (hP i).1
    rw [hi] at hat
    simp [hs.wg, hat.2.1]
  · exact hwatch.snap_of_started (hs.started_of_returned hret)
  · obtain ⟨hdone, hstopped⟩ := hs.closed hclosed
    have hpoll : ∀ i pc, st.thread i ≠ .within .poll pc := by
      intro i pc hi
      have hat := (hP i).1
      rw [hi] at hat
      cases hstopped.symm.trans hat.2.2
    refine ⟨hdone, by simp [hs.wg, hstopped], (hP pollerThread).1.stopped hstopped, hpoll, ?_⟩
    rintro _ (⟨⟨disk', -, rfl⟩ | ⟨n, c, -, -, -, rfl⟩⟩ | @⟨l, l', ls, i, pc', hi⟩)
    · exact ⟨hclosed, .inl rfl⟩
    · exact ⟨hclosed, .inl rfl⟩
    · have hlocal := hlocal i
      have hat := (hP i).1
      have hnot := hpoll i
      dsimp only [living, watched, Function.comp_apply] at hi hlocal hat hnot
      generalize hpc : ls i = pc at hi hlocal hat hnot
      cases hi with
      | wait => exact ⟨rfl, .inl rfl⟩
      | @inner sh' caller m m' hm hmay hstep =>
        refine ⟨hclosed, ?_⟩
        rcases hstep.snapshot with heq | ⟨job, info, t, warnings, rfl, ht⟩
        · exact .inl heq
        · cases caller with
          | new => cases hstopped.symm.trans hat.2.2.2
          | poll => exact absurd rfl (hnot _)
          | reload => exact .inr ⟨i, job, info, t, warnings, hpc, ht, hlocal.2.1⟩
      | _ => exact ⟨hclosed, .inl rfl⟩

/-- The policy watcher of `* @default`, created and closed. -/
theorem closing_sound_policy :
    ∃ st, (living (MacPolicy.watchConfig GoLib.literal "/policy") false).system.Reachable st
      ∧ st.shared.closed = true ∧ st.shared.closes ≤ 1
      ∧ st.thread pollerThread = .stopped := by
  obtain ⟨t, warnings, hrun⟩ := run_default
  obtain ⟨st, hreach, hclosed⟩ := living_closes rfl
    (show (MacPolicy.policyDisk "* @default\n".toList).path = some 0 from rfl) rfl hrun
  have hsound := closing_sound _ false hreach
  exact ⟨st, hreach, hclosed, hsound.1, (hsound.2.2.2 hclosed).2.2.1⟩

/-- **No context outlives its reload, and no bridge waits for good.** A context that
is not cancelled is that of the reload that has the lock, and its bridge is there to
cancel it. As soon as the watcher is closed or the lock is free, every bridge that
still waits can leave. -/
theorem contexts_sound (w : Config β T) (patient : Bool)
    {st : Threads.State (Life β T) (LifePc β T)}
    (h : (living w patient).system.Reachable st) {n : ℕ} {c : CloseContext}
    (hn : st.shared.contexts n = some c) :
    (c.cancelled = false → c.bridge = true
        ∧ ∃ i caller pc job, st.shared.watcher.mu = some i ∧ st.thread i = .within caller pc
          ∧ pc.job = some job ∧ job.number = n)
      ∧ (c.bridge = true → st.shared.done = true ∨ st.shared.watcher.mu = none →
        Bridge st.shared (st.shared.setContext n ⟨true, false⟩)) := by
  obtain ⟨hs, -⟩ := Life.sound_of_reachable h
  refine ⟨fun hc => ?_, fun hb hend => ?_⟩
  · obtain ⟨hb, hmu, hnum⟩ := hs.live n c hn hc
    obtain ⟨i, hi⟩ := Option.ne_none_iff_exists'.mp hmu
    obtain ⟨caller, pc, job, hpc, hjob, hnum'⟩ := Life.mu_eq_some h hi
    exact ⟨hb, i, caller, pc, job, hi, hpc, hjob, by omega⟩
  · refine ⟨n, c, hn, hb, ?_, rfl⟩
    rcases hend with hdone | hfree
    · exact .inl hdone
    · cases hc : c.cancelled with
      | true => exact .inr rfl
      | false => exact absurd hfree (hs.live n c hn hc).2.1

/-- The context of the validation that the policy watcher starts with. -/
theorem contexts_sound_policy :
    ∃ st, (living (MacPolicy.watchConfig GoLib.literal "/policy") false).system.Reachable st
      ∧ st.shared.contexts 0 = some ⟨false, true⟩
      ∧ ∃ i caller pc job, st.shared.watcher.mu = some i ∧ st.thread i = .within caller pc
        ∧ pc.job = some job ∧ job.number = 0 := by
  obtain ⟨t, warnings, hrun⟩ := run_default
  have hinit : (living (MacPolicy.watchConfig GoLib.literal "/policy") false).system.Reachable
      ⟨{ watcher := { disk := MacPolicy.policyDisk "* @default\n".toList } },
        fun _ => .outside⟩ := .init ⟨⟨_, rfl⟩, rfl⟩
  have hchecked := Threads.reachable_of_run (i := 1) hinit
    (run_checked _ (show (MacPolicy.policyDisk "* @default\n".toList).path = some 0 from rfl)
      rfl hrun)
  have hreach := Threads.reachable_of_run (i := 1) hchecked
    (.step (.openContext rfl rfl) .refl)
  exact ⟨_, hreach, rfl, ((contexts_sound _ false hreach rfl).1 rfl).2⟩

/-! ## Progress -/

/-- Thread `k` has given the lock back and gone on in a watcher that is being closed,
and the others are where they were. -/
structure Freed (caller : Caller) (k : ℕ) (ls : ℕ → LifePc β T)
    (st : Threads.State (Life β T) (LifePc β T)) : Prop where
  mu : st.shared.watcher.mu = none
  done : st.shared.done = true
  self : st.thread k = resume st.shared.watcher caller .idle
  other : ∀ j, j ≠ k → st.thread j = ls j

/-- The poller has left a watcher that is being closed, and the others are where they
were. -/
structure Left (ls : ℕ → LifePc β T) (st : Threads.State (Life β T) (LifePc β T)) : Prop where
  done : st.shared.done = true
  self : st.thread pollerThread = .stopped
  other : ∀ j, j ≠ pollerThread → st.thread j = ls j

section Progress

variable {w : Config β T} {patient : Bool} {l : Life β T} {ls : ℕ → LifePc β T} {k : ℕ}
  {caller : Caller} {job : Job T}

theorem Freed.of_update {pc : LifePc β T} {st : Threads.State (Life β T) (LifePc β T)}
    (h : Freed caller k (Function.update ls k pc) st) : Freed caller k ls st :=
  { h with other := fun j hj => (h.other j hj).trans (Function.update_of_ne hj ..) }

theorem can_left {pc : LifePc β T} {st : Threads.State (Life β T) (LifePc β T)}
    (h : (living w patient).system.Can (Left (Function.update ls pollerThread pc)) st) :
    (living w patient).system.Can (Left ls) st :=
  h.mono fun _ h =>
    { h with other := fun j hj => (h.other j hj).trans (Function.update_of_ne hj ..) }

/-- One step inside `Reload` on the way to the unlock. -/
theorem can_inner {pc pc' : Pc β T} {sh' : Shared β T} (hk : ls k = .within caller pc)
    (hpc : pc ≠ .idle) (hpc' : pc' ≠ .idle) (hmay : May w patient l pc)
    (h : FileWatch.Step w k l.watcher pc sh' pc')
    (hnext : ∀ ls' : ℕ → LifePc β T, ls' k = .within caller pc' →
      (living w patient).system.Can (Freed caller k ls') ⟨{ l with watcher := sh' }, ls'⟩) :
    (living w patient).system.Can (Freed caller k ls) ⟨l, ls⟩ := by
  refine Threads.can_step hk (.inner hpc hmay h) ?_
  rw [resume_of_ne _ _ hpc']
  exact (hnext _ (Function.update_self ..)).mono fun _ => Freed.of_update

/-- On the way out, the context is cancelled and then the lock given back. -/
theorem can_return (hk : ∃ err, ls k = .within caller (.returning job err))
    (hd : l.done = true) : (living w patient).system.Can (Freed caller k ls) ⟨l, ls⟩ := by
  obtain ⟨err, hk⟩ := hk
  have hunlock : ∀ (l : Life β T) (ls : ℕ → LifePc β T),
      ls k = .within caller (.returning job err) → l.done = true →
      (∀ c, l.contexts job.number = some c → c.cancelled = true) →
      (living w patient).system.Can (Freed caller k ls) ⟨l, ls⟩ := by
    intro l ls hk hd hc
    refine Threads.can_step hk (.inner (by simp) hc .unlock) (.here ⟨rfl, hd, ?_, ?_⟩)
    · exact Function.update_self ..
    · exact fun j hj => Function.update_of_ne hj ..
  cases hc : l.contexts job.number with
  | none => exact hunlock l ls hk hd (fun c h => by rw [hc] at h; cases h)
  | some c =>
    refine Threads.can_step hk (.cancel hc)
      ((hunlock (l.setContext job.number { c with cancelled := true }) _
        (Function.update_self ..) hd ?_).mono fun _ => Freed.of_update)
    intro c' hc'
    rw [Life.setContext_self, Option.some.injEq] at hc'
    rw [← hc']

/-- A validation ends once its context is cancelled, and closing the watcher cancels
it: the bridge is there as long as the context is live. -/
theorem can_validate (hs : l.Sound) {info : FileInfo} {t : T} {warnings : List String}
    (hk : ls k = .within caller (.checked job info t warnings)) (hv : w.validate = true)
    (hd : l.done = true) : (living w patient).system.Can (Freed caller k ls) ⟨l, ls⟩ := by
  have hreject : ∀ (l : Life β T) (ls : ℕ → LifePc β T) (c : CloseContext),
      ls k = .within caller (.checked job info t warnings) → l.done = true →
      l.contexts job.number = some c → c.cancelled = true →
      (living w patient).system.Can (Freed caller k ls) ⟨l, ls⟩ := by
    intro l ls c hk hd hc hcancelled
    exact can_inner hk (by simp) (by simp) (fun _ => ⟨c, hc, fun _ => hcancelled⟩)
      (.rejects "context canceled" hv) (fun ls' hk' => can_return ⟨_, hk'⟩ hd)
  have hbridge : ∀ (l : Life β T) (ls : ℕ → LifePc β T) (c : CloseContext),
      ls k = .within caller (.checked job info t warnings) → l.done = true →
      l.contexts job.number = some c → c.bridge = true →
      (living w patient).system.Can (Freed caller k ls) ⟨l, ls⟩ := by
    intro l ls c hk hd hc hb
    exact .step (Threads.Step.env (.inr ⟨job.number, c, hc, hb, .inl hd, rfl⟩))
      (hreject _ _ ⟨true, false⟩ hk hd (Life.setContext_self ..) rfl)
  cases hc : l.contexts job.number with
  | none =>
    exact Threads.can_step hk (.openContext hv hc)
      ((hbridge (l.setContext job.number {}) _ {} (Function.update_self ..) hd
        (Life.setContext_self ..) rfl).mono fun _ => Freed.of_update)
  | some c =>
    cases hcancelled : c.cancelled with
    | true => exact hreject l ls c hk hd hc hcancelled
    | false => exact hbridge l ls c hk hd hc (hs.live _ c hc hcancelled).1

/-- **A reload in a watcher that is being closed can end**, wherever it is: what it
waits for is never held by another. -/
theorem can_unlock (hs : l.Sound) {pc : Pc β T} (hk : ls k = .within caller pc)
    (hjob : pc.job = some job) (hd : l.done = true) :
    (living w patient).system.Can (Freed caller k ls) ⟨l, ls⟩ := by
  have hstored : ∀ (l : Life β T) (ls : ℕ → LifePc β T) info t,
      ls k = .within caller (.stored job info t) → l.done = true →
      (living w patient).system.Can (Freed caller k ls) ⟨l, ls⟩ :=
    fun l ls info t hk hd => can_inner hk (by simp) (by simp) trivial .setLastInfo
      (fun ls' hk' => can_return ⟨_, hk'⟩ hd)
  have hvalidated : ∀ (l : Life β T) (ls : ℕ → LifePc β T) info t warnings,
      ls k = .within caller (.validated job info t warnings) → l.done = true →
      (living w patient).system.Can (Freed caller k ls) ⟨l, ls⟩ :=
    fun l ls info t warnings hk hd => can_inner hk (by simp) (by simp) trivial .store
      (fun ls' hk' => hstored _ ls' info t hk' hd)
  have hfails : ∀ {pc : Pc β T} {e : String}, ls k = .within caller pc → pc ≠ .idle →
      May w patient l pc →
      FileWatch.Step w k l.watcher pc l.watcher (.returning job (some e)) →
      (living w patient).system.Can (Freed caller k ls) ⟨l, ls⟩ :=
    fun hk hpc hmay hstep => can_inner hk hpc (by simp) hmay hstep
      (fun ls' hk' => can_return ⟨_, hk'⟩ hd)
  cases pc with
  | idle | polling | polled | waiting => cases hjob
  | locked => cases hjob; exact hfails hk (by simp) trivial (.openFails "EACCES")
  | opened => cases hjob; exact hfails hk (by simp) trivial (.statFails "EIO")
  | reading => cases hjob; exact hfails hk (by simp) trivial (.readFails "EIO")
  | parsed => cases hjob; exact hfails hk (by simp) trivial (.statAfterFails "EIO")
  | checked job info t warnings =>
    cases hjob
    cases hv : w.validate with
    | true => exact can_validate hs hk hv hd
    | false =>
      refine can_inner hk (by simp) (by simp) (fun hv' => ?_) (.noValidation hv)
        (fun ls' hk' => hvalidated _ ls' info t warnings hk' hd)
      rw [hv] at hv'
      cases hv'
  | validated job info t warnings => cases hjob; exact hvalidated l ls info t warnings hk hd
  | stored job info t => cases hjob; exact hstored l ls info t hk hd
  | returning job err => cases hjob; exact can_return ⟨err, hk⟩ hd

/-- The poller leaves from its `select`. -/
theorem can_quit (hk : ls pollerThread = .selecting) (hd : l.done = true) :
    (living w patient).system.Can (Left ls) ⟨l, ls⟩ := by
  refine Threads.can_step hk (.quit hd) ?_
  refine Threads.can_step (Function.update_self ..) .finish (.here ⟨hd, ?_, fun j hj => ?_⟩)
  · simp
  · simp [hj]

/-- A poll that has to reload takes the lock, which is free, and gives it back. -/
theorem can_poll (hr : (living w patient).system.Reachable ⟨l, ls⟩)
    (hk : ls pollerThread = .within .poll (.waiting .poll)) (hd : l.done = true)
    (hmu : l.watcher.mu = none) : (living w patient).system.Can (Left ls) ⟨l, ls⟩ := by
  have hlock : Life.Step w patient pollerThread l (.within .poll (.waiting .poll)) _ _ :=
    .inner (by simp) trivial (.lock hmu)
  have hr' := hr.step (Threads.Step.thread pollerThread (hk ▸ hlock))
  have hfreed : (living w patient).system.Can (Freed .poll pollerThread _) _ :=
    can_unlock (Life.sound_of_reachable hr').1 (Function.update_self pollerThread (.within .poll
      (.locked ⟨.poll, l.watcher.jobs, l.watcher.snap, l.watcher.lastInfo⟩)) ls) rfl hd
  refine Threads.can_step hk hlock (System.Can.trans hr' hfreed ?_)
  rintro ⟨l', ls'⟩ - hf
  refine (can_quit hf.self hf.done).mono fun st hst => { hst with other := fun j hj => ?_ }
  rw [hst.other j hj, hf.other j hj, Function.update_of_ne hj]

/-- **The poller can leave**: it sees that `done` is closed the next time it is at its
`select`, and it gets there, since the lock is free. -/
theorem can_leave (hr : (living w patient).system.Reachable ⟨l, ls⟩)
    (hret : l.returned = true) (hd : l.done = true) (hmu : l.watcher.mu = none) :
    (living w patient).system.Can (Left ls) ⟨l, ls⟩ := by
  obtain ⟨hs, hP⟩ := Life.sound_of_reachable hr
  have hat := (hP pollerThread).1
  dsimp only at hat
  generalize hk : ls pollerThread = pc at hat
  cases pc with
  | stopped => exact .here ⟨hd, hk, fun _ _ => rfl⟩
  | stopping =>
    refine Threads.can_step hk .finish (.here ⟨hd, ?_, fun j hj => Function.update_of_ne hj ..⟩)
    simp
  | selecting => exact can_quit hk hd
  | outside =>
    have hrunning := (hs.returned.mp hret).resolve_right (hat rfl)
    exact Threads.can_step hk (.start rfl hrunning)
      (can_left (can_quit (Function.update_self ..) hd))
  | adding | spawning | closing | inOnce | onceClosed | waitingWg => exact absurd rfl hat.1
  | within caller pc =>
    cases caller with
    | new | reload => exact absurd rfl hat.2.1
    | poll =>
      cases pc with
      | idle => cases hat.1.caller
      | polling =>
        exact Threads.can_step hk (.inner (by simp) trivial (.pollStatFails "EIO"))
          (can_left (can_quit (Function.update_self ..) hd))
      | waiting caller =>
        cases hat.1.caller
        exact can_poll hr hk hd hmu
      | polled info =>
        by_cases hl : l.watcher.lastInfo = some info
        · exact Threads.can_step hk (.inner (by simp) trivial
            (.pollSkips hmu hl (fileChanged_eq_false_iff.mpr rfl)))
            (can_left (can_quit (Function.update_self ..) hd))
        · have hchanged : ∀ last, l.watcher.lastInfo = some last →
              fileChanged last info = true := by
            intro last hlast
            rw [← Bool.not_eq_false, fileChanged_eq_false_iff]
            rintro rfl
            exact hl hlast
          have hreload : Life.Step w patient pollerThread l (.within .poll (.polled info)) _ _ :=
            .inner (by simp) trivial (.pollReloads hmu hchanged)
          have hr' := hr.step (Threads.Step.thread pollerThread (hk ▸ hreload))
          exact Threads.can_step hk hreload
            (can_left (can_poll hr' (Function.update_self ..) hd hmu))
      | _ =>
        have hheld := (hat.1.lock _ rfl).1
        rw [hmu] at hheld
        cases hheld

/-- A thread in `Close` gets to its wait: if another one runs the function of
`closeOnce`, that one can go on. -/
theorem can_wait {i : ℕ} (hr : (living w patient).system.Reachable ⟨l, ls⟩)
    (hi : ls i = .closing ∨ ls i = .inOnce ∨ ls i = .onceClosed ∨ ls i = .waitingWg) :
    (living w patient).system.Can (fun st => st.thread i = .waitingWg) ⟨l, ls⟩ := by
  obtain ⟨hs, hP⟩ := Life.sound_of_reachable hr
  -- whoever runs the function can finish it
  have hdo : ∀ {k : ℕ} (l : Life β T) (ls : ℕ → LifePc β T), ls k = .inOnce ∨ ls k = .onceClosed →
      (living w patient).system.Can (fun st => st.shared.closeOnce = .finished
        ∧ st.thread k = .waitingWg ∧ ∀ j, j ≠ k → st.thread j = ls j) ⟨l, ls⟩ := by
    have hleave : ∀ {k : ℕ} (l : Life β T) (ls : ℕ → LifePc β T), ls k = .onceClosed →
        (living w patient).system.Can (fun st => st.shared.closeOnce = .finished
          ∧ st.thread k = .waitingWg ∧ ∀ j, j ≠ k → st.thread j = ls j) ⟨l, ls⟩ := by
      intro k l ls hk
      refine Threads.can_step hk .leave (.here ⟨rfl, ?_, fun j hj => ?_⟩)
      · simp
      · simp [hj]
    rintro k l ls (hk | hk)
    · refine Threads.can_step hk .close ((hleave _ _ (Function.update_self ..)).mono ?_)
      rintro st ⟨ho, hself, hother⟩
      exact ⟨ho, hself, fun j hj => (hother j hj).trans (Function.update_of_ne hj ..)⟩
    · exact hleave l ls hk
  rcases hi with hi | hi | hi | hi
  · cases ho : l.closeOnce with
    | fresh =>
      exact Threads.can_step hi (.first ho)
        ((hdo _ _ (.inl (Function.update_self ..))).mono fun st hst => hst.2.1)
    | finished =>
      refine Threads.can_step hi (.later ho) (.here ?_)
      simp
    | running k =>
      have hk : ls k = .inOnce ∨ ls k = .onceClosed := by
        have hin := (hP k).2.once ho
        dsimp only at hin
        generalize ls k = pc at hin
        cases pc with
        | inOnce => exact .inl rfl
        | onceClosed => exact .inr rfl
        | _ => cases hin
      have hki : i ≠ k := by
        rintro rfl
        rw [hi] at hk
        rcases hk with hk | hk
        · cases hk
        · cases hk
      refine System.Can.trans hr (hdo l ls hk) ?_
      rintro ⟨l', ls'⟩ - ⟨ho', -, hother⟩
      refine Threads.can_step ((hother i hki).trans hi) (.later ho') (.here ?_)
      simp
  · exact (hdo l ls (.inl hi)).mono fun st hst => hst.2.1
  · exact (hdo l ls (.inr hi)).mono fun st hst => hst.2.1
  · exact .here hi

end Progress

/-- **`Close` is never stuck.** Whatever the other threads are doing when a thread is
in `Close`, some run lets it return. This holds even where a validation is in
progress that ends only when its context is cancelled: closing cancels it. -/
theorem close_returns (w : Config β T) (patient : Bool)
    {st : Threads.State (Life β T) (LifePc β T)}
    (h : (living w patient).system.Reachable st) {i : ℕ}
    (hi : st.thread i = .closing ∨ st.thread i = .inOnce ∨ st.thread i = .onceClosed
      ∨ st.thread i = .waitingWg) :
    ∃ st', (living w patient).system.Steps st st' ∧ st'.thread i = .outside
      ∧ st'.shared.closed = true := by
  change (living w patient).system.Can
    (fun st' => st'.thread i = .outside ∧ st'.shared.closed = true) st
  -- the thread gets to its wait
  refine System.Can.trans h (can_wait h hi) fun st₁ h₁ hi₁ => ?_
  have hat := ((Life.sound_of_reachable h₁).2 i).1
  rw [hi₁] at hat
  obtain ⟨hip, hret, hdone⟩ := hat
  -- whoever has the lock gives it back
  have hfree : (living w patient).system.Can (fun st => st.shared.watcher.mu = none
      ∧ st.thread i = .waitingWg) st₁ := by
    cases hmu : st₁.shared.watcher.mu with
    | none => exact .here ⟨hmu, hi₁⟩
    | some k =>
      obtain ⟨caller, pc, job, hk, hjob, -⟩ := Life.mu_eq_some h₁ hmu
      refine (can_unlock (Life.sound_of_reachable h₁).1 hk hjob hdone).mono fun st hst => ?_
      refine ⟨hst.mu, (hst.other i ?_).trans hi₁⟩
      rintro rfl
      cases hi₁.symm.trans hk
  -- the poller leaves, and the counter is zero
  refine System.Can.trans h₁ hfree fun st₂ h₂ ⟨hmu, hi₂⟩ => ?_
  have hat₂ := ((Life.sound_of_reachable h₂).2 i).1
  rw [hi₂] at hat₂
  refine System.Can.trans h₂ (can_leave h₂ hat₂.2.1 hat₂.2.2 hmu) fun st₃ h₃ hleft => ?_
  obtain ⟨hs, hP⟩ := Life.sound_of_reachable h₃
  have hpoller := (hP pollerThread).1
  rw [hleft.self] at hpoller
  refine Threads.can_step ((hleft.other i hip).trans hi₂) (.wait ?_) (.here ⟨?_, rfl⟩)
  · simp [hs.wg, hpoller.2]
  · simp

/-- Thread 1 closes the policy watcher. -/
theorem close_returns_policy :
    ∃ st, (living (MacPolicy.watchConfig GoLib.literal "/policy") false).system.Reachable st
      ∧ st.thread 1 = .closing
      ∧ ∃ st', (living (MacPolicy.watchConfig GoLib.literal "/policy") false).system.Steps st st'
        ∧ st'.thread 1 = .outside ∧ st'.shared.closed = true := by
  obtain ⟨t, warnings, hrun⟩ := run_default
  obtain ⟨l, hreach, hret, -⟩ := living_starts rfl
    (show (MacPolicy.policyDisk "* @default\n".toList).path = some 0 from rfl) rfl hrun
  have hclosing := Threads.reachable_of_run (i := 1) hreach
    (.step (.callClose (by decide) hret) .refl)
  exact ⟨_, hclosing, rfl, close_returns _ false hclosing (.inl rfl)⟩

end FileWatch
