import DhcpRelay.Transition
import DhcpRelay.MacPolicy

/-!
# The file watcher

A watcher keeps a snapshot parsed from a file and replaces it when the file
has changed (`pkg/filewatch`). It works among others: the file is written to,
renamed over, deleted and created again at any moment, polls and explicit
reloads run side by side, and readers load the snapshot without a lock.

The model is the interleaving of all of them (`watching`). Each step is one
access to what is shared – one system call on the file, one load or store, one
operation on the mutex – so whatever may happen between two accesses of the
source may happen between two steps here. A read returns a piece of what the
file holds at that moment, and a file that is written to in the meantime is
read torn.

The environment is assumed to give a *fresh* identity, size and modification
time at every change of content, and `Disk` is built so: what `stat` says of a
file determines what the file holds. This is all that the guard of `reload`
against torn reads relies on.
-/

namespace FileWatch

variable {β T : Type}

/-! ## Files -/

/-- What `FileChanged` looks at of an `os.FileInfo`: the identity that
`os.SameFile` compares, the size, and the modification time. -/
structure FileInfo where
  ino : ℕ
  size : ℕ
  modTime : ℤ
  deriving DecidableEq, Repr

/-- `FileChanged`. -/
def fileChanged (a b : FileInfo) : Bool :=
  a.ino != b.ino || a.size != b.size || a.modTime != b.modTime

theorem fileChanged_eq_false_iff {a b : FileInfo} : fileChanged a b = false ↔ a = b := by
  rw [FileInfo.mk.injEq]
  simp [fileChanged, and_assoc]

/-- A file, whether or not the path still leads to it. -/
structure File (β : Type) where
  ino : ℕ
  modTime : ℤ
  content : List β
  deriving DecidableEq, Repr

/-- What `stat` says of a file. -/
def File.stat (f : File β) : FileInfo := ⟨f.ino, f.content.length, f.modTime⟩

/-- **The files there are and where the watched path leads**, with the record
of all that any file ever held. Two contents never had the same `FileInfo`. -/
structure Disk (β : Type) where
  files : ℕ → Option (File β)
  path : Option ℕ
  history : List (FileInfo × List β)
  mem_history : ∀ j f, files j = some f → (f.stat, f.content) ∈ history
  history_inj : ∀ info c c', (info, c) ∈ history → (info, c') ∈ history → c = c'

namespace Disk

/-- No file ever had this `FileInfo`. -/
def Fresh (d : Disk β) (info : FileInfo) : Prop := ∀ c, (info, c) ∉ d.history

/-- Put a file in place `j`, which takes a fresh `FileInfo`. -/
def put (d : Disk β) (j : ℕ) (f : File β) (h : d.Fresh f.stat) : Disk β where
  files := Function.update d.files j (some f)
  path := d.path
  history := (f.stat, f.content) :: d.history
  mem_history := by
    intro k g hg
    by_cases hk : k = j
    · subst hk
      rw [Function.update_self] at hg
      cases hg
      exact List.mem_cons_self
    · rw [Function.update_of_ne hk] at hg
      exact List.mem_cons_of_mem _ (d.mem_history k g hg)
  history_inj := by
    intro info c c' hc hc'
    rcases List.mem_cons.mp hc with hc | hc <;> rcases List.mem_cons.mp hc' with hc' | hc'
    · cases hc; cases hc'; rfl
    · cases hc; exact absurd hc' (h c')
    · cases hc'; exact absurd hc (h c)
    · exact d.history_inj info c c' hc hc'

/-- **What the environment does**: it writes to a file in place, creates one,
lets the path lead to another one, and removes the path. -/
inductive Step : Disk β → Disk β → Prop where
  | write {d : Disk β} {j : ℕ} {f : File β} (content : List β) (modTime : ℤ)
    (hj : d.files j = some f) (h : d.Fresh (File.stat { f with content, modTime })) :
    Step d (d.put j { f with content, modTime } h)
  | create {d : Disk β} {j : ℕ} (f : File β) (hj : d.files j = none)
    (h : d.Fresh f.stat) : Step d (d.put j f h)
  | rename {d : Disk β} {j : ℕ} (hj : (d.files j).isSome) : Step d { d with path := some j }
  | remove {d : Disk β} : Step d { d with path := none }

theorem Step.history_subset {d d' : Disk β} (h : Step d d') : d.history ⊆ d'.history := by
  cases h with
  | write | create => exact List.subset_cons_self _ _
  | rename | remove => exact List.Subset.refl _

/-- A file stays what it was, or takes a `FileInfo` that no file ever had. -/
theorem Step.file {d d' : Disk β} (h : Step d d') {j : ℕ} {f : File β}
    (hj : d.files j = some f) :
    d'.files j = some f ∨ ∃ f', d'.files j = some f' ∧ d.Fresh f'.stat := by
  cases h with
  | @write k g content modTime hk hnew =>
    by_cases hjk : j = k
    · subst hjk
      exact .inr ⟨_, Function.update_self .., hnew⟩
    · exact .inl ((Function.update_of_ne hjk ..).trans hj)
  | @create k g hk hnew =>
    have hjk : j ≠ k := fun hjk => by rw [hjk, hk] at hj; cases hj
    exact .inl ((Function.update_of_ne hjk ..).trans hj)
  | rename | remove => exact .inl hj

end Disk

/-! ## The watcher -/

/-- **`Parser`**: a parser reads from the front, and may stop before the end of
the file. What it returns then, it returns whatever follows. -/
structure Parser (β T : Type) where
  /-- What it makes of a whole file: a snapshot or nil, with warnings. -/
  run : List β → Except String (Option T × List String)
  /-- What it returns once it has read this much, if it reads no further. -/
  early : List β → Option (Except String (Option T × List String)) := fun _ => none
  run_of_early : ∀ b r, early b = some r → ∀ c, b <+: c → run c = r := by simp

/-- **`Config`**. `validate` says whether there is such a hook: what it answers
may depend on anything, a name server among others. -/
structure Config (β T : Type) where
  parse : Parser β T
  validate : Bool := false
  describe : Option (T → String) := none
  path : String
  name : String

/-- Who runs `Reload`. -/
inductive Caller where
  | new
  | reload
  | poll
  deriving DecidableEq, Repr

/-- A `Reload` in progress: who runs it, its number, and what `snap` and
`lastInfo` were when it took the lock. -/
structure Job (T : Type) where
  caller : Caller
  number : ℕ
  snap : Option T
  lastInfo : Option FileInfo

/-- **Where a thread is** in `poll` and in `Reload`, with its local
variables. -/
inductive Pc (β T : Type) where
  /-- Outside of both. -/
  | idle
  /-- Before the `stat` of `poll`. -/
  | polling
  /-- After it. -/
  | polled (info : FileInfo)
  /-- Before `mu.Lock` of `Reload`. -/
  | waiting (caller : Caller)
  /-- Before `os.Open`. -/
  | locked (job : Job T)
  /-- Before the first `Stat` of the open file `j`. -/
  | opened (job : Job T) (j : ℕ)
  /-- In the parser, which has read `buf` so far. -/
  | reading (job : Job T) (j : ℕ) (info : FileInfo) (buf : List β)
  /-- Before the second `Stat`. -/
  | parsed (job : Job T) (j : ℕ) (info : FileInfo) (t : T) (warnings : List String)
  /-- Before validation. -/
  | checked (job : Job T) (info : FileInfo) (t : T) (warnings : List String)
  /-- Before `snap.Store`. -/
  | validated (job : Job T) (info : FileInfo) (t : T) (warnings : List String)
  /-- Before the assignment to `lastInfo`. -/
  | stored (job : Job T) (info : FileInfo) (t : T)
  /-- Before `mu.Unlock`, on the way out with a result. -/
  | returning (job : Job T) (err : Option String)

/-- **What is shared**: the disk, the fields of the watcher, and its log. The
last five fields are no part of the program and record what happened: how many
reloads took the lock, which of them stored `snap` and `lastInfo`, the
snapshots that validation accepted, and what each reload returned. -/
structure Shared (β T : Type) where
  disk : Disk β
  snap : Option T := none
  lastInfo : Option FileInfo := none
  /-- The thread that holds `mu`. -/
  mu : Option ℕ := none
  /-- `New` has returned the watcher. -/
  started : Bool := false
  log : List String := []
  jobs : ℕ := 0
  snapBy : Option ℕ := none
  infoBy : Option ℕ := none
  accepted : List T := []
  results : List (ℕ × Option String) := []

/-- `Snapshot`. -/
def Shared.snapshot (sh : Shared β T) : Option T := sh.snap

namespace Config

variable (w : Config β T)

/-- The parser returns `r` when it has read `buf` of file `j`: it stops early,
or it is at the end of the file. -/
def Returns (d : Disk β) (j : ℕ) (buf : List β)
    (r : Except String (Option T × List String)) : Prop :=
  w.parse.early buf = some r
    ∨ ∃ f, d.files j = some f ∧ f.content.length ≤ buf.length ∧ w.parse.run buf = r

/-- What `Reload` does with what the parser returned. -/
def afterParse (job : Job T) (j : ℕ) (info : FileInfo) :
    Except String (Option T × List String) → Pc β T
  | .error e => .returning job (some e)
  | .ok (none, _) =>
    .returning job (some (w.name ++ " " ++ w.path ++ ": parser returned a nil snapshot"))
  | .ok (some t, warnings) => .parsed job j info t warnings

/-- What `Reload` does with the second `Stat`. -/
def afterStat (job : Job T) (info after : FileInfo) (t : T) (warnings : List String) :
    Pc β T :=
  if fileChanged info after then
    .returning job (some (w.name ++ " " ++ w.path ++ " changed during reload"))
  else .checked job info t warnings

/-- The line `Reload` logs at its end. -/
def loaded (t : T) : String :=
  match w.describe with
  | some describe => w.name ++ " loaded from " ++ w.path ++ " (" ++ describe t ++ ")\n"
  | none => w.name ++ " loaded from " ++ w.path ++ "\n"

/-- What the caller of `Reload` logs when it returns. -/
def afterReload : Caller → Option String → List String
  | .poll, some e => [w.name ++ ": reload failed, keeping previous: " ++ e ++ "\n"]
  | _, _ => []

end Config

/-- **One step of thread `i`.** `New` runs before anyone else has the watcher,
and whatever a system call or the validation can answer is a step. The section
of `poll` that holds the mutex loads `lastInfo` and does nothing else, so it is
one step. -/
inductive Step (w : Config β T) (i : ℕ) :
    Shared β T → Pc β T → Shared β T → Pc β T → Prop where
  | callNew {sh} (h : sh.started = false) : Step w i sh .idle sh (.waiting .new)
  | callReload {sh} (h : sh.started = true) : Step w i sh .idle sh (.waiting .reload)
  | callPoll {sh} (h : sh.started = true) : Step w i sh .idle sh .polling
  | pollStatFails {sh} (e : String) :
    Step w i sh .polling
      { sh with log := sh.log
          ++ [w.name ++ ": stat " ++ w.path ++ " failed, keeping previous: " ++ e ++ "\n"] }
      .idle
  | pollStat {sh} {j : ℕ} {f : File β} (hp : sh.disk.path = some j)
    (hf : sh.disk.files j = some f) : Step w i sh .polling sh (.polled f.stat)
  | pollSkips {sh} {info last : FileInfo} (hmu : sh.mu = none)
    (hl : sh.lastInfo = some last) (h : fileChanged last info = false) :
    Step w i sh (.polled info) sh .idle
  | pollReloads {sh} {info : FileInfo} (hmu : sh.mu = none)
    (h : ∀ last, sh.lastInfo = some last → fileChanged last info = true) :
    Step w i sh (.polled info) sh (.waiting .poll)
  | lock {sh} {caller : Caller} (hmu : sh.mu = none) :
    Step w i sh (.waiting caller) { sh with mu := some i, jobs := sh.jobs + 1 }
      (.locked ⟨caller, sh.jobs, sh.snap, sh.lastInfo⟩)
  | openFails {sh} {job : Job T} (e : String) :
    Step w i sh (.locked job) sh
      (.returning job (some ("open " ++ w.path ++ ": " ++ e)))
  | open {sh} {job : Job T} {j : ℕ} {f : File β} (hp : sh.disk.path = some j)
    (hf : sh.disk.files j = some f) : Step w i sh (.locked job) sh (.opened job j)
  | statFails {sh} {job : Job T} {j : ℕ} (e : String) :
    Step w i sh (.opened job j) sh
      (.returning job (some ("stat " ++ w.path ++ ": " ++ e)))
  | stat {sh} {job : Job T} {j : ℕ} {f : File β} (hf : sh.disk.files j = some f) :
    Step w i sh (.opened job j) sh (.reading job j f.stat [])
  | read {sh} {job : Job T} {j : ℕ} {info : FileInfo} {buf : List β} {f : File β}
    (n : ℕ) (hf : sh.disk.files j = some f) :
    Step w i sh (.reading job j info buf) sh
      (.reading job j info (buf ++ (f.content.drop buf.length).take n))
  | readFails {sh} {job : Job T} {j : ℕ} {info : FileInfo} {buf : List β} (e : String) :
    Step w i sh (.reading job j info buf) sh (.returning job (some e))
  | parse {sh} {job : Job T} {j : ℕ} {info : FileInfo} {buf : List β}
    {r : Except String (Option T × List String)} (h : w.Returns sh.disk j buf r) :
    Step w i sh (.reading job j info buf) sh (w.afterParse job j info r)
  | statAfterFails {sh} {job : Job T} {j : ℕ} {info : FileInfo} {t : T}
    {warnings : List String} (e : String) :
    Step w i sh (.parsed job j info t warnings) sh
      (.returning job (some ("stat " ++ w.path ++ ": " ++ e)))
  | statAfter {sh} {job : Job T} {j : ℕ} {info : FileInfo} {t : T}
    {warnings : List String} {f : File β} (hf : sh.disk.files j = some f) :
    Step w i sh (.parsed job j info t warnings) sh
      (w.afterStat job info f.stat t warnings)
  | noValidation {sh} {job : Job T} {info : FileInfo} {t : T} {warnings : List String}
    (h : w.validate = false) :
    Step w i sh (.checked job info t warnings) sh (.validated job info t warnings)
  | accepts {sh} {job : Job T} {info : FileInfo} {t : T} {warnings : List String}
    (h : w.validate = true) :
    Step w i sh (.checked job info t warnings) { sh with accepted := t :: sh.accepted }
      (.validated job info t warnings)
  | rejects {sh} {job : Job T} {info : FileInfo} {t : T} {warnings : List String}
    (e : String) (h : w.validate = true) :
    Step w i sh (.checked job info t warnings) sh (.returning job (some e))
  | store {sh} {job : Job T} {info : FileInfo} {t : T} {warnings : List String} :
    Step w i sh (.validated job info t warnings)
      { sh with
        snap := some t
        snapBy := some job.number
        log := sh.log ++ warnings.map (fun warn => w.name ++ ": " ++ warn ++ "\n") }
      (.stored job info t)
  | setLastInfo {sh} {job : Job T} {info : FileInfo} {t : T} :
    Step w i sh (.stored job info t)
      { sh with
        lastInfo := some info
        infoBy := some job.number
        log := sh.log ++ [w.loaded t] }
      (.returning job none)
  | unlock {sh} {job : Job T} {err : Option String} :
    Step w i sh (.returning job err)
      { sh with
        mu := none
        started := sh.started || (job.caller = .new && err.isNone)
        results := sh.results ++ [(job.number, err)]
        log := sh.log ++ w.afterReload job.caller err }
      .idle

/-- **The watcher among everyone else.** It starts with no snapshot, on any
disk. -/
def watching (w : Config β T) : Threads (Shared β T) (Pc β T) where
  init sh := ∃ disk, sh = { disk }
  start := .idle
  env sh sh' := ∃ disk', sh.disk.Step disk' ∧ sh' = { sh with disk := disk' }
  step := Step w

/-! ## The invariant -/

/-- `t` is what the parser makes of a content. -/
def Config.Parses (w : Config β T) (c : List β) (t : T) : Prop :=
  ∃ warnings, w.parse.run c = .ok (some t, warnings)

theorem Config.Parses.unique {w : Config β T} {c : List β} {t t' : T} (h : w.Parses c t)
    (h' : w.Parses c t') : t = t' := by
  obtain ⟨warnings, hrun⟩ := h
  obtain ⟨warnings', hrun'⟩ := h'
  cases hrun.symm.trans hrun'
  rfl

/-- `t` is what the parser makes of the whole content that a file described by
`info` had at one instant. -/
def Whole (w : Config β T) (d : Disk β) (info : FileInfo) (t : T) : Prop :=
  ∃ c, (info, c) ∈ d.history ∧ w.Parses c t

/-- **What reload number `n` published**: `snap` and `lastInfo` are its own,
the one parsed from what the other describes and, where there is a validation,
accepted by it. -/
structure Published (w : Config β T) (sh : Shared β T) (n : ℕ) (info : FileInfo) (t : T) :
    Prop where
  snap : sh.snap = some t
  lastInfo : sh.lastInfo = some info
  snapBy : sh.snapBy = some n
  infoBy : sh.infoBy = some n
  whole : Whole w sh.disk info t
  accepted : w.validate = true → t ∈ sh.accepted

/-- Nothing is loaded yet, or what is loaded is what one successful reload
published. -/
def Settled (w : Config β T) (sh : Shared β T) : Prop :=
  (sh.snap = none ∧ sh.lastInfo = none)
    ∨ ∃ n info t, Published w sh n info t ∧ (n, none) ∈ sh.results

/-- What holds of the shared state. -/
structure Sound (w : Config β T) (sh : Shared β T) : Prop where
  settled : sh.mu = none → Settled w sh
  snap_of_started : sh.started = true → sh.snap ≠ none

/-- What holds while a reload has published nothing: it has the lock, and `snap`
and `lastInfo` are as it found them. -/
structure Held (w : Config β T) (i : ℕ) (sh : Shared β T) (job : Job T) : Prop where
  mu : sh.mu = some i
  snap : sh.snap = job.snap
  lastInfo : sh.lastInfo = job.lastInfo
  settled : Settled w sh

/-- A file had this `FileInfo`. -/
def Seen (d : Disk β) (info : FileInfo) : Prop := ∃ c, (info, c) ∈ d.history

/-- The open file `j` still holds what `p` says, unless `stat` tells that it has
changed since it said `info`. -/
def Unless (d : Disk β) (j : ℕ) (info : FileInfo) (p : List β → Prop) : Prop :=
  ∃ f, d.files j = some f ∧ (f.stat = info → p f.content)

/-- **What holds of thread `i`**, where it is. -/
def Local (w : Config β T) (i : ℕ) (sh : Shared β T) : Pc β T → Prop
  | .idle | .polling | .waiting _ => True
  | .polled info => Seen sh.disk info
  | .locked job => Held w i sh job
  | .opened job _ => Held w i sh job
  | .reading job j info buf =>
    Held w i sh job ∧ Seen sh.disk info ∧ Unless sh.disk j info (buf <+: ·)
  | .parsed job j info t _ =>
    Held w i sh job ∧ Seen sh.disk info ∧ Unless sh.disk j info (w.Parses · t)
  | .checked job info t _ => Held w i sh job ∧ Whole w sh.disk info t
  | .validated job info t _ =>
    Held w i sh job ∧ Whole w sh.disk info t ∧ (w.validate = true → t ∈ sh.accepted)
  | .stored job info t =>
    sh.mu = some i ∧ sh.snap = some t ∧ sh.snapBy = some job.number
      ∧ Whole w sh.disk info t ∧ (w.validate = true → t ∈ sh.accepted)
  | .returning job (some _) => Held w i sh job
  | .returning job none => sh.mu = some i ∧ ∃ info t, Published w sh job.number info t

section Disk

variable {w : Config β T} {d d' : Disk β} {info : FileInfo} {t : T}

theorem Whole.mono (h : Whole w d info t) (hd : d.history ⊆ d'.history) :
    Whole w d' info t := by
  obtain ⟨c, hc, ht⟩ := h
  exact ⟨c, hd hc, ht⟩

theorem Seen.mono (h : Seen d info) (hd : d.history ⊆ d'.history) : Seen d' info := by
  obtain ⟨c, hc⟩ := h
  exact ⟨c, hd hc⟩

/-- **A change of content shows in `stat`**, so what is known of a file as long
as it has not changed stays known. -/
theorem Unless.step {j : ℕ} {p : List β → Prop} (h : Unless d j info p) (hs : Seen d info)
    (hd : d.Step d') : Unless d' j info p := by
  obtain ⟨f, hf, hp⟩ := h
  rcases hd.file hf with hf' | ⟨f', hf', hnew⟩
  · exact ⟨f, hf', hp⟩
  · refine ⟨f', hf', fun hinfo => ?_⟩
    obtain ⟨c, hc⟩ := hs
    exact absurd (hinfo ▸ hc) (hnew c)

/-- The second `stat` says the same as the first, so the file was read whole. -/
theorem Unless.whole {j : ℕ} {f : File β} (h : Unless d j info (w.Parses · t))
    (hf : d.files j = some f) (hinfo : info = f.stat) : Whole w d info t := by
  obtain ⟨g, hg, hp⟩ := h
  cases hf.symm.trans hg
  exact ⟨f.content, hinfo ▸ d.mem_history j f hf, hp hinfo.symm⟩

/-- What the parser returns after reading an unchanged file is what it makes of
the whole file. -/
theorem Unless.parses {j : ℕ} {buf : List β} {warnings : List String}
    (h : Unless d j info (buf <+: ·)) (hr : w.Returns d j buf (.ok (some t, warnings))) :
    Unless d j info (w.Parses · t) := by
  obtain ⟨f, hf, hp⟩ := h
  refine ⟨f, hf, fun hinfo => ⟨warnings, ?_⟩⟩
  rcases hr with hearly | ⟨g, hg, hlen, hrun⟩
  · exact w.parse.run_of_early _ _ hearly _ (hp hinfo)
  · cases hf.symm.trans hg
    rw [← (hp hinfo).eq_of_length_le hlen]
    exact hrun

/-- Reading on from where the last read ended. -/
theorem Unless.read {j : ℕ} {buf : List β} {f : File β} (h : Unless d j info (buf <+: ·))
    (hf : d.files j = some f) (n : ℕ) :
    Unless d j info (buf ++ (f.content.drop buf.length).take n <+: ·) := by
  obtain ⟨g, hg, hp⟩ := h
  cases hf.symm.trans hg
  refine ⟨f, hf, fun hinfo => ?_⟩
  obtain ⟨rest, hrest⟩ := hp hinfo
  rw [← hrest, List.drop_left]
  exact (List.prefix_append_right_inj buf).mpr (List.take_prefix n rest)

end Disk

/-! ## What a step keeps -/

/-- The same pair is published, and at least as much is on record. -/
structure Extends (sh sh' : Shared β T) : Prop where
  snap : sh'.snap = sh.snap
  lastInfo : sh'.lastInfo = sh.lastInfo
  snapBy : sh'.snapBy = sh.snapBy
  infoBy : sh'.infoBy = sh.infoBy
  history : sh.disk.history ⊆ sh'.disk.history
  accepted : sh.accepted ⊆ sh'.accepted
  results : sh.results ⊆ sh'.results

section Extends

variable {w : Config β T} {sh sh' : Shared β T} {i j : ℕ}

/-- What is logged is of no concern. -/
theorem Extends.of_log (sh : Shared β T) (log : List String) : Extends sh { sh with log } :=
  ⟨rfl, rfl, rfl, rfl, fun _ => id, fun _ => id, fun _ => id⟩

theorem Published.mono {n : ℕ} {info : FileInfo} {t : T} (h : Published w sh n info t)
    (hx : Extends sh sh') : Published w sh' n info t where
  snap := hx.snap.trans h.snap
  lastInfo := hx.lastInfo.trans h.lastInfo
  snapBy := hx.snapBy.trans h.snapBy
  infoBy := hx.infoBy.trans h.infoBy
  whole := h.whole.mono hx.history
  accepted hv := hx.accepted (h.accepted hv)

theorem Settled.mono (h : Settled w sh) (hx : Extends sh sh') : Settled w sh' := by
  rcases h with ⟨hs, hl⟩ | ⟨n, info, t, hp, hn⟩
  · exact .inl ⟨hx.snap.trans hs, hx.lastInfo.trans hl⟩
  · exact .inr ⟨n, info, t, hp.mono hx, hx.results hn⟩

theorem Held.mono {job : Job T} (h : Held w i sh job) (hx : Extends sh sh')
    (hmu : sh'.mu = sh.mu) : Held w i sh' job where
  mu := hmu.trans h.mu
  snap := hx.snap.trans h.snap
  lastInfo := hx.lastInfo.trans h.lastInfo
  settled := h.settled.mono hx

/-- What holds of a thread outlives whatever others do that keeps the published
pair, the lock, and what is known of a file as long as it has not changed. -/
theorem Local.mono {pc : Pc β T} (h : Local w i sh pc) (hx : Extends sh sh')
    (hmu : sh'.mu = sh.mu)
    (hfile : ∀ j info p, Seen sh.disk info → Unless sh.disk j info p →
      Unless sh'.disk j info p) : Local w i sh' pc := by
  have hseen : ∀ {info}, Seen sh.disk info → Seen sh'.disk info := fun hs => hs.mono hx.history
  cases pc with
  | idle | polling | waiting => trivial
  | polled info => exact hseen h
  | locked job | opened job => exact Held.mono h hx hmu
  | reading job j info buf => exact ⟨h.1.mono hx hmu, hseen h.2.1, hfile _ _ _ h.2.1 h.2.2⟩
  | parsed job j info t warnings =>
    exact ⟨h.1.mono hx hmu, hseen h.2.1, hfile _ _ _ h.2.1 h.2.2⟩
  | checked job info t warnings => exact ⟨h.1.mono hx hmu, h.2.mono hx.history⟩
  | validated job info t warnings =>
    exact ⟨h.1.mono hx hmu, h.2.1.mono hx.history, fun hv => hx.accepted (h.2.2 hv)⟩
  | stored job info t =>
    obtain ⟨hi, hs, hb, hw, ha⟩ := h
    exact ⟨hmu.trans hi, hx.snap.trans hs, hx.snapBy.trans hb, hw.mono hx.history,
      fun hv => hx.accepted (ha hv)⟩
  | returning job err =>
    cases err with
    | some e => exact Held.mono h hx hmu
    | none =>
      obtain ⟨hi, info, t, hp⟩ := h
      exact ⟨hmu.trans hi, info, t, hp.mono hx⟩

end Extends

section Steps

variable {w : Config β T} {i j : ℕ} {sh sh' : Shared β T} {pc pc' : Pc β T}

theorem Step.disk_eq (h : Step w i sh pc sh' pc') : sh'.disk = sh.disk := by
  cases h <;> rfl

/-- Only a reload that is past its validation changes the snapshot. -/
theorem Step.snapshot (h : Step w i sh pc sh' pc') :
    sh'.snapshot = sh.snapshot
      ∨ ∃ job info t warnings, pc = .validated job info t warnings ∧ sh'.snapshot = some t := by
  cases h with
  | @store job info t warnings => exact .inr ⟨job, info, t, warnings, rfl, rfl⟩
  | _ => exact .inl rfl

/-- **Without the lock a thread changes nothing but the log.** -/
theorem Step.log_of_mu (h : Step w i sh pc sh' pc') (hl : Local w i sh pc)
    (hmu : sh.mu = some j) (hj : j ≠ i) : ∃ log, sh' = { sh with log } := by
  have hi : sh.mu ≠ some i := by
    rw [hmu, ne_eq, Option.some.injEq]
    exact hj
  cases h with
  | lock hfree => rw [hmu] at hfree; cases hfree
  | accepts | store => exact absurd hl.1.mu hi
  | setLastInfo => exact absurd hl.1 hi
  | @unlock job err =>
    cases err with
    | some e => exact absurd hl.mu hi
    | none => exact absurd hl.1 hi
  | _ => exact ⟨_, rfl⟩

/-- A thread that has the lock knows it. -/
theorem mu_of_local (h : Local w j sh pc) :
    sh.mu = some j ∨ ∀ sh' : Shared β T, sh'.disk = sh.disk → Local w j sh' pc := by
  cases pc with
  | idle | polling | waiting => exact .inr (fun _ _ => trivial)
  | polled info => exact .inr (fun sh' hd => by rw [Local, hd]; exact h)
  | locked | opened => exact .inl h.mu
  | reading | parsed | checked | validated => exact .inl h.1.mu
  | stored => exact .inl h.1
  | returning job err =>
    cases err with
    | some e => exact .inl h.mu
    | none => exact .inl h.1

/-- The step of a thread keeps what holds of the others. -/
theorem Step.local_other (h : Step w i sh pc sh' pc') (hl : Local w i sh pc) {m : Pc β T}
    (hj : j ≠ i) (hm : Local w j sh m) : Local w j sh' m := by
  rcases mu_of_local hm with hmu | hfree
  · obtain ⟨log, rfl⟩ := h.log_of_mu hl hmu hj
    exact hm.mono (.of_log sh log) rfl (fun _ _ _ _ => id)
  · exact hfree sh' h.disk_eq

/-- What holds of the shared state while a thread has the lock. -/
theorem Sound.of_held (hmu : sh.mu = some i) (h : sh.started = true → sh.snap ≠ none) :
    Sound w sh where
  settled hfree := by rw [hmu] at hfree; cases hfree
  snap_of_started := h

/-- Returning settles what was published, or what was found. -/
theorem sound_unlock {job : Job T} {err : Option String} (hs : Sound w sh)
    (hl : Local w i sh (.returning job err)) (log : List String) :
    Sound w { sh with
      mu := none
      started := sh.started || (job.caller = .new && err.isNone)
      results := sh.results ++ [(job.number, err)]
      log := log } := by
  have hx : Extends sh { sh with
      mu := none
      started := sh.started || (job.caller = .new && err.isNone)
      results := sh.results ++ [(job.number, err)]
      log := log } :=
    ⟨rfl, rfl, rfl, rfl, fun _ => id, fun _ => id, List.subset_append_left ..⟩
  cases err with
  | some e =>
    refine ⟨fun _ => hl.settled.mono hx, fun hst => hs.snap_of_started ?_⟩
    simpa using hst
  | none =>
    obtain ⟨-, info, t, hp⟩ := hl
    refine ⟨fun _ => .inr ⟨job.number, info, t, hp.mono hx, ?_⟩, fun _ => ?_⟩
    · exact List.mem_append_right _ List.mem_cons_self
    · rw [hp.snap]
      exact Option.some_ne_none t

/-- **A thread's step keeps the shared state sound, and establishes what holds
where it gets to.** -/
theorem Step.sound (h : Step w i sh pc sh' pc') (hs : Sound w sh) (hl : Local w i sh pc) :
    Sound w sh' ∧ Local w i sh' pc' := by
  cases h with
  | callNew | callReload | callPoll | pollSkips | pollReloads => exact ⟨hs, trivial⟩
  | pollStatFails e =>
    exact ⟨⟨fun hmu => (hs.settled hmu).mono (.of_log sh _), hs.snap_of_started⟩, trivial⟩
  | @pollStat j f hp hf => exact ⟨hs, f.content, sh.disk.mem_history j f hf⟩
  | lock hmu =>
    refine ⟨.of_held rfl hs.snap_of_started, rfl, rfl, rfl, (hs.settled hmu).mono ?_⟩
    exact ⟨rfl, rfl, rfl, rfl, fun _ => id, fun _ => id, fun _ => id⟩
  | openFails | «open» | statFails => exact ⟨hs, hl⟩
  | @stat job j f hf =>
    exact ⟨hs, hl, ⟨f.content, sh.disk.mem_history j f hf⟩, f, hf, fun _ => List.nil_prefix⟩
  | read n hf => exact ⟨hs, hl.1, hl.2.1, hl.2.2.read hf n⟩
  | readFails | statAfterFails | rejects => exact ⟨hs, hl.1⟩
  | @parse job j info buf r hr =>
    refine ⟨hs, ?_⟩
    match r with
    | .error e => exact hl.1
    | .ok (none, warnings) => exact hl.1
    | .ok (some t, warnings) => exact ⟨hl.1, hl.2.1, hl.2.2.parses hr⟩
  | @statAfter job j info t warnings f hf =>
    refine ⟨hs, ?_⟩
    unfold Config.afterStat
    split
    · exact hl.1
    · next hc =>
      rw [Bool.not_eq_true, fileChanged_eq_false_iff] at hc
      exact ⟨hl.1, hl.2.2.whole hf hc⟩
  | noValidation hv =>
    refine ⟨hs, hl.1, hl.2, fun hv' => ?_⟩
    rw [hv] at hv'
    cases hv'
  | @accepts job info t warnings hv =>
    have hx : Extends sh { sh with accepted := t :: sh.accepted } :=
      ⟨rfl, rfl, rfl, rfl, fun _ => id, List.subset_cons_self _ _, fun _ => id⟩
    exact ⟨.of_held hl.1.mu hs.snap_of_started, hl.1.mono hx rfl, hl.2,
      fun _ => List.mem_cons_self⟩
  | store =>
    exact ⟨.of_held hl.1.mu (fun _ => Option.some_ne_none _), hl.1.mu, rfl, rfl, hl.2⟩
  | @setLastInfo job info t =>
    obtain ⟨hmu, hsnap, hby, hw, ha⟩ := hl
    exact ⟨.of_held hmu hs.snap_of_started, hmu, info, t, hsnap, rfl, hby, rfl, hw, ha⟩
  | unlock => exact ⟨sound_unlock hs hl _, trivial⟩

end Steps

/-- **The watcher is sound at every moment, and every thread knows what it
relies on.** -/
theorem sound_of_reachable {w : Config β T} {s : Threads.State (Shared β T) (Pc β T)}
    (h : (watching w).system.Reachable s) :
    Sound w s.shared ∧ ∀ i, Local w i s.shared (s.thread i) := by
  refine Threads.invariant (T := watching w) (G := Sound w) (P := Local w) ?_ ?_
    (fun _ _ _ _ _ => Step.sound)
    (fun _ _ _ _ _ hstep hl _ _ hj hm => Step.local_other hstep hl hj hm) h
  · rintro _ ⟨disk, rfl⟩
    exact ⟨⟨fun _ => .inl ⟨rfl, rfl⟩, fun hst => by cases hst⟩, fun _ => trivial⟩
  · rintro sh _ ⟨disk', hd, rfl⟩ hs
    have hx : Extends sh { sh with disk := disk' } :=
      ⟨rfl, rfl, rfl, rfl, hd.history_subset, fun _ => id, fun _ => id⟩
    exact ⟨⟨fun hmu => (hs.settled hmu).mono hx, hs.snap_of_started⟩,
      fun _ _ hl => hl.mono hx rfl (fun _ _ _ hseen hp => hp.step hseen hd)⟩

/-! ## Polls -/

section Polls

variable {w : Config β T} {i : ℕ} {sh sh' : Shared β T} {pc' : Pc β T}

/-- A poll that finds the file goes on with what `stat` says of it, and one that
does not says so in the log. -/
theorem Step.of_polling (h : Step w i sh .polling sh' pc') :
    (∃ j f, sh.disk.path = some j ∧ sh.disk.files j = some f
        ∧ sh' = sh ∧ pc' = .polled f.stat)
      ∨ (∃ e, sh'.log = sh.log
          ++ [w.name ++ ": stat " ++ w.path ++ " failed, keeping previous: " ++ e ++ "\n"])
        ∧ pc' = .idle := by
  cases h with
  | pollStatFails e => exact .inr ⟨⟨e, rfl⟩, rfl⟩
  | @pollStat j f hp hf => exact .inl ⟨j, f, hp, hf, rfl, rfl⟩

/-- A poll that found the file reloads it, unless the last reload that
succeeded was of this very file. -/
theorem Step.of_polled {info : FileInfo} (h : Step w i sh (.polled info) sh' pc') :
    sh.mu = none ∧ (sh.lastInfo = some info ∧ pc' = .idle
      ∨ sh.lastInfo ≠ some info ∧ pc' = .waiting .poll) := by
  cases h with
  | pollSkips hmu hl hc =>
    rw [fileChanged_eq_false_iff.mp hc] at hl
    exact ⟨hmu, .inl ⟨hl, rfl⟩⟩
  | pollReloads hmu hc =>
    refine ⟨hmu, .inr ⟨fun hl => ?_, rfl⟩⟩
    have hch := hc info hl
    rw [fileChanged_eq_false_iff.mpr rfl] at hch
    cases hch

end Polls

/-- **An undisturbed reload publishes the file.** If the parser has a snapshot
for what the file at the path holds, a reload that nobody interferes with and
whose snapshot is not rejected ends without an error and with that snapshot. -/
theorem run_reload (w : Config β T) (i : ℕ) (caller : Caller) (sh : Shared β T) {j : ℕ}
    {f : File β} {t : T} {warnings : List String} (hmu : sh.mu = none)
    (hp : sh.disk.path = some j) (hf : sh.disk.files j = some f)
    (ht : w.parse.run f.content = .ok (some t, warnings)) :
    ∃ sh', (watching w).Run i (sh, .waiting caller) (sh', .idle)
      ∧ sh'.disk = sh.disk ∧ sh'.mu = none ∧ sh'.snapshot = some t
      ∧ sh'.lastInfo = some f.stat ∧ sh'.started = (sh.started || caller = .new) := by
  -- the whole file is read at once
  have hreturns : w.Returns sh.disk j ([] ++ (f.content.drop 0).take f.content.length)
      (.ok (some t, warnings)) := by
    refine .inr ⟨f, hf, ?_, ?_⟩
    · simp
    · simpa using ht
  have hafter : ∀ job, w.afterStat job f.stat f.stat t warnings
      = (.checked job f.stat t warnings : Pc β T) := by
    intro job
    rw [Config.afterStat, fileChanged_eq_false_iff.mpr rfl]
    rfl
  have hvalid : ∀ sh job, ∃ accepted, Step w i sh (.checked job f.stat t warnings)
      { sh with accepted } (.validated job f.stat t warnings) := by
    intro sh job
    cases hv : w.validate with
    | false => exact ⟨sh.accepted, .noValidation hv⟩
    | true => exact ⟨t :: sh.accepted, .accepts hv⟩
  have hchecked : (watching w).Run i (sh, .waiting caller)
      ({ sh with mu := some i, jobs := sh.jobs + 1 },
        .checked ⟨caller, sh.jobs, sh.snap, sh.lastInfo⟩ f.stat t warnings) := by
    refine .step (.lock hmu) (.step (.open hp hf) (.step (.stat hf)
      (.step (.read f.content.length hf) (.step (.parse hreturns)
        (.step (.statAfter hf) ?_)))))
    rw [hafter]
    exact .refl
  obtain ⟨accepted, haccepts⟩ := hvalid { sh with mu := some i, jobs := sh.jobs + 1 }
    ⟨caller, sh.jobs, sh.snap, sh.lastInfo⟩
  have hpublished := Threads.Run.step (T := watching w) haccepts
    (.step .store (.step .setLastInfo (.step .unlock .refl)))
  exact ⟨_, hchecked.trans hpublished, rfl, rfl, rfl, rfl, by simp⟩

end FileWatch

namespace MacPolicy

/-! ## The policy watcher -/

/-- `Action.String`. -/
def Action.string (a : Action) : String :=
  match a.kind with
  | .server => "server " ++ String.ofList a.server
  | .default => "default"
  | .blackhole => "blackhole"

/-- **`New`**: the watcher of a policy file. -/
def watchConfig (lib : GoLib) (path : String) : FileWatch.Config Char Table where
  parse := { run := fun text => (parse lib text).map (fun p => (some p.1, p.2)) }
  validate := true
  describe := some (fun t => toString t.entries.keys.length ++ " entries, default action: "
    ++ t.fallback.string)
  path := path
  name := "MAC policy"

theorem run_watchConfig {lib : GoLib} (path : String) {text : Text} {t : Table}
    {warnings : List String} (h : parse lib text = .ok (t, warnings)) :
    (watchConfig lib path).parse.run text = .ok (some t, warnings) := by
  simp only [watchConfig, h, Except.map]

/-- A disk with one policy file, which the watched path leads to. -/
def policyDisk (text : Text) : FileWatch.Disk Char where
  files j := if j = 0 then some ⟨1, 0, text⟩ else none
  path := some 0
  history := [(⟨1, text.length, 0⟩, text)]
  mem_history := by
    intro j f hf
    split at hf
    · cases hf
      exact List.mem_cons_self
    · cases hf
  history_inj := by
    intro info c c' hc hc'
    rw [List.mem_singleton, Prod.mk.injEq] at hc hc'
    rw [hc.2, hc'.2]

end MacPolicy

namespace FileWatch

/-- A watcher of a file that parses can start. -/
theorem exists_started {T : Type} {w : Config Char T} {text : Text} {t : T}
    (h : w.Parses text t) :
    ∃ sh : Shared Char T, (watching w).system.Reachable ⟨sh, fun _ => .idle⟩
      ∧ sh.started = true ∧ sh.mu = none ∧ sh.disk = MacPolicy.policyDisk text
      ∧ sh.snapshot = some t ∧ sh.lastInfo = some (File.stat ⟨1, 0, text⟩) := by
  obtain ⟨warnings, hparse⟩ := h
  have hinit : (watching w).system.Reachable
      ⟨{ disk := MacPolicy.policyDisk text }, fun _ => .idle⟩ := .init ⟨⟨_, rfl⟩, rfl⟩
  have hfile : (MacPolicy.policyDisk text).files 0 = some ⟨1, 0, text⟩ := rfl
  obtain ⟨sh, hrun, hdisk, hmu, hsnap, hlast, hst⟩ := run_reload w 0 .new
    { disk := MacPolicy.policyDisk text } rfl rfl hfile hparse
  have hreach := Threads.reachable_of_run hinit (.step (.callNew rfl) hrun)
  rw [Function.update_eq_self] at hreach
  exact ⟨sh, hreach, by simpa using hst, hmu, hdisk, hsnap, hlast⟩

/-- **Hot reload publishes whole, valid files only, and loses no update.** At
every moment of every run:

* once `New` has succeeded there is a snapshot;
* whenever the lock is free, nothing is loaded and `New` has not succeeded, or
  `snap` and `lastInfo` are what one successful reload published;
* a reload that returns an error leaves both as it found them;
* a poll that finds the file skips the reload only if `lastInfo` is what `stat`
  just said of the file, and then the snapshot is what the parser makes of what
  the file held when it was asked; in every other case it reloads. -/
theorem watching_sound (w : Config β T) {s : Threads.State (Shared β T) (Pc β T)}
    (h : (watching w).system.Reachable s) :
    (s.shared.started = true → s.shared.snapshot ≠ none)
      ∧ (s.shared.mu = none →
        (s.shared.started = false ∧ s.shared.snap = none ∧ s.shared.lastInfo = none)
          ∨ ∃ n info t, Published w s.shared n info t ∧ (n, none) ∈ s.shared.results)
      ∧ (∀ i job e sh' pc', s.thread i = .returning job (some e) →
        Step w i s.shared (s.thread i) sh' pc' →
          sh'.snap = job.snap ∧ sh'.lastInfo = job.lastInfo)
      ∧ (∀ i sh' pc', s.thread i = .polling → Step w i s.shared (s.thread i) sh' pc' →
        (∃ j f, s.shared.disk.path = some j ∧ s.shared.disk.files j = some f
            ∧ sh' = s.shared ∧ pc' = .polled f.stat)
          ∨ (∃ e, sh'.log = s.shared.log ++ [w.name ++ ": stat " ++ w.path
              ++ " failed, keeping previous: " ++ e ++ "\n"]) ∧ pc' = .idle)
      ∧ ∀ i info sh' pc', s.thread i = .polled info →
        Step w i s.shared (s.thread i) sh' pc' →
          (s.shared.lastInfo = some info ∧ pc' = .idle ∧ ∃ t c,
              s.shared.snapshot = some t ∧ w.Parses c t ∧ (info, c) ∈ s.shared.disk.history
                ∧ ∀ c', (info, c') ∈ s.shared.disk.history → c' = c)
            ∨ s.shared.lastInfo ≠ some info ∧ pc' = .waiting .poll := by
  obtain ⟨hs, hl⟩ := sound_of_reachable h
  refine ⟨hs.snap_of_started, fun hmu => ?_, fun i job e sh' pc' hi hstep => ?_,
    fun i sh' pc' hi hstep => ?_, fun i info sh' pc' hi hstep => ?_⟩
  · rcases hs.settled hmu with ⟨hsnap, hlast⟩ | hp
    · refine .inl ⟨?_, hsnap, hlast⟩
      cases hst : s.shared.started with
      | false => rfl
      | true => exact absurd hsnap (hs.snap_of_started hst)
    · exact .inr hp
  · have hheld := hl i
    rw [hi] at hheld hstep
    cases hstep
    exact ⟨hheld.snap, hheld.lastInfo⟩
  · rw [hi] at hstep
    exact hstep.of_polling
  · rw [hi] at hstep
    obtain ⟨hmu, ⟨hlast, hpc⟩ | hreload⟩ := hstep.of_polled
    · refine .inl ⟨hlast, hpc, ?_⟩
      rcases hs.settled hmu with ⟨-, hnone⟩ | ⟨n, info', t, hp, -⟩
      · rw [hlast] at hnone
        cases hnone
      · cases hlast.symm.trans hp.lastInfo
        obtain ⟨c, hc, ht⟩ := hp.whole
        exact ⟨t, c, hp.snap, ht, hc, fun c' hc' => s.shared.disk.history_inj _ _ _ hc' hc⟩
    · exact .inr hreload

/-- The policy watcher that has loaded `* @default`. -/
theorem watching_sound_policy :
    ∃ sh : Shared Char MacPolicy.Table,
      (watching (MacPolicy.watchConfig GoLib.literal "/policy")).system.Reachable
          ⟨sh, fun _ => .idle⟩
        ∧ sh.started = true ∧ sh.mu = none ∧ sh.snapshot ≠ none
        ∧ ((sh.started = false ∧ sh.snap = none ∧ sh.lastInfo = none)
          ∨ ∃ n info t, Published (MacPolicy.watchConfig GoLib.literal "/policy") sh n info t
            ∧ (n, none) ∈ sh.results) := by
  obtain ⟨t, hparses⟩ : ∃ t, (MacPolicy.watchConfig GoLib.literal "/policy").Parses
      "* @default\n".toList t := ⟨_, _, MacPolicy.run_watchConfig "/policy" rfl⟩
  obtain ⟨sh, hreach, hst, hmu, -⟩ := exists_started hparses
  have hsound := watching_sound _ hreach
  exact ⟨sh, hreach, hst, hmu, hsound.1 hst, hsound.2.1 hmu⟩

end FileWatch
