import DhcpRelay.Host
import DhcpRelay.Transition

/-!
# The interface cache

Replies are matched against the interfaces of the host, and a cache keeps their
enumeration for a while (`pkg/dhcp4/ifcache.go`). Any number of handlers ask it at
once. A call first looks at the snapshot without a lock. If there is none or it has
expired, the call takes the lock, looks again, since another call may have been
faster, and enumerates the interfaces itself. An enumeration that fails leaves the
snapshot as it is, and the stale one is returned with the error.

The model is the interleaving of all calls with a clock that never goes back
(`caching`). Each step is one access to what is shared: a load or a store of the
snapshot, a look at the clock, an operation on the mutex, an array that is
allocated. An enumeration begins and ends in different steps, and may end with any
list or with an error. A slice is told from its copies by its backing array.

`Sound` is what holds of the cache in between, and `At` what a call knows at each
point of its code: from lock to unlock, that nobody else stores. `cache_sound` is
what follows for the callers.
-/

namespace IfCache

/-! ## The state -/

/-- A slice of interfaces: its backing array, and what it holds. -/
structure Slice where
  array : ℕ
  elems : List Interface
  deriving DecidableEq, Repr

/-- `interfaceSnapshot`. -/
structure Snapshot where
  fetched : ℤ
  ifaces : Slice
  deriving DecidableEq, Repr

/-- An enumeration that has ended, by the call that made it. -/
structure Enumeration where
  call : ℕ
  result : Except String Slice

/-- **What a call returned**, with what is known of it besides: the snapshot whose
age it looked at and the time it did, and the snapshots that had been stored by
then, the latest first. -/
structure Result where
  call : ℕ
  /-- `none` is the nil slice. -/
  ifaces : Option Slice
  err : Option String
  checked : Option (Snapshot × ℤ) := none
  history : List Snapshot

/-- **What is shared**: the clock and the fields of the cache. The last five fields
are no part of the program and record what happened: the arrays that were
allocated, the calls, the snapshots that were stored, the latest first, the
enumerations and the results. -/
structure Shared where
  now : ℤ
  snap : Option Snapshot := none
  /-- The thread that holds `mu`. -/
  mu : Option ℕ := none
  arrays : ℕ := 0
  calls : ℕ := 0
  stored : List Snapshot := []
  enums : List Enumeration := []
  results : List Result := []

/-- A call that has taken the lock: its number, and the snapshot there was. -/
structure Job where
  call : ℕ
  before : Option Snapshot

/-- **Where a thread is** in `Interfaces`, with its local variables. -/
inductive Pc where
  /-- Outside of it. -/
  | idle
  /-- At its start. -/
  | called (c : ℕ)
  /-- In `net.Interfaces`, without caching. -/
  | direct (c : ℕ)
  /-- Before the first look at the clock. -/
  | loaded (c : ℕ) (s : Option Snapshot)
  /-- Before `slices.Clone` of a snapshot that had not expired at `t`. -/
  | fresh (c : ℕ) (s : Snapshot) (t : ℤ)
  /-- Before `mu.Lock`. -/
  | waiting (c : ℕ)
  /-- Before the second load. -/
  | locked (job : Job)
  /-- Before the second look at the clock. -/
  | reloaded (job : Job) (s : Option Snapshot)
  /-- As `fresh`, with the lock. -/
  | freshHeld (job : Job) (s : Snapshot) (t : ℤ)
  /-- In `net.Interfaces`. -/
  | enumerating (job : Job)
  /-- Before the load after an enumeration that failed. -/
  | failed (job : Job) (e : String)
  /-- After it. -/
  | failedLoaded (job : Job) (e : String) (s : Option Snapshot)
  /-- Before `time.Now`. -/
  | enumerated (job : Job) (ifaces : Slice)
  /-- Before `snap.Store`. -/
  | stamped (job : Job) (s : Snapshot)
  /-- Before `slices.Clone` of what was enumerated. -/
  | stored (job : Job) (s : Snapshot)
  /-- Before `mu.Unlock`, on the way out with a result. -/
  | returning (job : Job) (err : Option String)

/-- An enumeration is in progress. -/
def Pc.enumerates : Pc → Bool
  | .direct _ | .enumerating _ => true
  | _ => false

/-- The call of a thread whose enumeration has failed, until it gives the lock
back. -/
def Pc.failedJob : Pc → Option Job
  | .failed job _ | .failedLoaded job _ _ | .returning job (some _) => some job
  | _ => none

/-! ## The steps -/

/-- `slices.Clone` on the way out: a slice with an array of its own is
returned. -/
def Shared.cloned (sh : Shared) (call : ℕ) (source : Slice) (err : Option String)
    (checked : Option (Snapshot × ℤ)) : Shared :=
  { sh with
    arrays := sh.arrays + 1
    results := ⟨call, some ⟨sh.arrays, source.elems⟩, err, checked, sh.stored⟩ :: sh.results }

/-- **One step of thread `i`**, for the given `ttl`. -/
inductive Step (ttl : ℤ) (i : ℕ) : Shared → Pc → Shared → Pc → Prop where
  | call {sh} : Step ttl i sh .idle { sh with calls := sh.calls + 1 } (.called sh.calls)
  | disabled {sh c} (h : ttl ≤ 0) : Step ttl i sh (.called c) sh (.direct c)
  | directEnumerates {sh c} (ifaces : List Interface) :
    Step ttl i sh (.direct c)
      { sh with
        arrays := sh.arrays + 1
        enums := ⟨c, .ok ⟨sh.arrays, ifaces⟩⟩ :: sh.enums
        results := ⟨c, some ⟨sh.arrays, ifaces⟩, none, none, sh.stored⟩ :: sh.results }
      .idle
  | directFails {sh c} (e : String) :
    Step ttl i sh (.direct c)
      { sh with
        enums := ⟨c, .error e⟩ :: sh.enums
        results := ⟨c, none, some e, none, sh.stored⟩ :: sh.results }
      .idle
  | load {sh c} (h : 0 < ttl) : Step ttl i sh (.called c) sh (.loaded c sh.snap)
  | loadFresh {sh c s} (h : sh.now - s.fetched < ttl) :
    Step ttl i sh (.loaded c (some s)) sh (.fresh c s sh.now)
  | loadExpired {sh c s} (h : ¬ sh.now - s.fetched < ttl) :
    Step ttl i sh (.loaded c (some s)) sh (.waiting c)
  | loadNone {sh c} : Step ttl i sh (.loaded c none) sh (.waiting c)
  | returnFresh {sh c s t} :
    Step ttl i sh (.fresh c s t) (sh.cloned c s.ifaces none (some (s, t))) .idle
  | lock {sh c} (h : sh.mu = none) :
    Step ttl i sh (.waiting c) { sh with mu := some i } (.locked ⟨c, sh.snap⟩)
  | reload {sh job} : Step ttl i sh (.locked job) sh (.reloaded job sh.snap)
  | reloadFresh {sh job s} (h : sh.now - s.fetched < ttl) :
    Step ttl i sh (.reloaded job (some s)) sh (.freshHeld job s sh.now)
  | reloadExpired {sh job s} (h : ¬ sh.now - s.fetched < ttl) :
    Step ttl i sh (.reloaded job (some s)) sh (.enumerating job)
  | reloadNone {sh job} : Step ttl i sh (.reloaded job none) sh (.enumerating job)
  | returnFreshHeld {sh job s t} :
    Step ttl i sh (.freshHeld job s t) (sh.cloned job.call s.ifaces none (some (s, t)))
      (.returning job none)
  | enumerates {sh job} (ifaces : List Interface) :
    Step ttl i sh (.enumerating job)
      { sh with
        arrays := sh.arrays + 1
        enums := ⟨job.call, .ok ⟨sh.arrays, ifaces⟩⟩ :: sh.enums }
      (.enumerated job ⟨sh.arrays, ifaces⟩)
  | fails {sh job} (e : String) :
    Step ttl i sh (.enumerating job) { sh with enums := ⟨job.call, .error e⟩ :: sh.enums }
      (.failed job e)
  | loadStale {sh job e} : Step ttl i sh (.failed job e) sh (.failedLoaded job e sh.snap)
  | returnStale {sh job e s} :
    Step ttl i sh (.failedLoaded job e (some s)) (sh.cloned job.call s.ifaces (some e) none)
      (.returning job (some e))
  | returnNil {sh job e} :
    Step ttl i sh (.failedLoaded job e none)
      { sh with results := ⟨job.call, none, some e, none, sh.stored⟩ :: sh.results }
      (.returning job (some e))
  | stamp {sh job ifaces} :
    Step ttl i sh (.enumerated job ifaces) sh (.stamped job ⟨sh.now, ifaces⟩)
  | store {sh job s} :
    Step ttl i sh (.stamped job s) { sh with snap := some s, stored := s :: sh.stored }
      (.stored job s)
  | returnOwn {sh job s} :
    Step ttl i sh (.stored job s) (sh.cloned job.call s.ifaces none none)
      (.returning job none)
  | unlock {sh job err} :
    Step ttl i sh (.returning job err) { sh with mu := none } .idle

/-- **The cache and its callers.** The environment is the clock. -/
def caching (ttl : ℤ) : Threads Shared Pc where
  init sh := ∃ now, sh = { now }
  start := .idle
  env sh sh' := ∃ t, sh.now ≤ t ∧ sh' = { sh with now := t }
  step := Step ttl

/-! ## What is claimed -/

/-- **What a result is.** Without an error it is a copy of an enumeration of the
same call, or of one in a snapshot that had not expired when the call looked. With
an error it is a copy of the latest snapshot at that time, and nil only if there was
none. Its array is no snapshot's, so a caller may write to it. -/
structure Result.Sound (ttl : ℤ) (sh : Shared) (r : Result) : Prop where
  history : r.history <:+ sh.stored
  ok : r.err = none → ∃ copy source, r.ifaces = some copy ∧ copy.elems = source.elems
    ∧ (⟨r.call, .ok source⟩ ∈ sh.enums
      ∨ ∃ s t c, r.checked = some (s, t) ∧ s.ifaces = source ∧ ⟨c, .ok source⟩ ∈ sh.enums
        ∧ s ∈ r.history ∧ t - s.fetched < ttl)
  failed : ∀ e, r.err = some e → r.history = [] ∧ r.ifaces = none
    ∨ ∃ s copy, r.history.head? = some s ∧ r.ifaces = some copy
      ∧ copy.elems = s.ifaces.elems
  unshared : ∀ copy ∈ r.ifaces, copy.array < sh.arrays
    ∧ ∀ s ∈ sh.stored, s.ifaces.array ≠ copy.array

/-- **What holds of the cache.** -/
structure Sound (ttl : ℤ) (sh : Shared) : Prop where
  snap : sh.snap = sh.stored.head?
  apart : sh.stored.IsChain (fun newer older => older.fetched + ttl ≤ newer.fetched)
  origin : ∀ s ∈ sh.stored, ∃ c, ⟨c, .ok s.ifaces⟩ ∈ sh.enums
  arrays : ∀ s ∈ sh.stored, s.ifaces.array < sh.arrays
  results : ∀ r ∈ sh.results, r.Sound ttl sh

/-- The thread holds the lock, and nothing has been stored since it took it. -/
structure Held (i : ℕ) (job : Job) (sh : Shared) : Prop where
  mu : sh.mu = some i
  snap : sh.snap = job.before

/-- The snapshot before this call, if any, has expired at `t`. -/
def Job.Expired (job : Job) (ttl t : ℤ) : Prop := ∀ s ∈ job.before, s.fetched + ttl ≤ t

/-- An enumeration of the call, which no caller has been given. -/
structure Own (call : ℕ) (ifaces : Slice) (sh : Shared) : Prop where
  mem : ⟨call, .ok ifaces⟩ ∈ sh.enums
  lt : ifaces.array < sh.arrays
  unshared : ∀ r ∈ sh.results, ∀ copy ∈ r.ifaces, ifaces.array ≠ copy.array

/-- **What a thread knows** where it is. -/
def At (ttl : ℤ) (i : ℕ) (sh : Shared) : Pc → Prop
  | .idle | .called _ | .waiting _ => True
  | .direct _ => ttl ≤ 0
  | .loaded _ s => ∀ x ∈ s, x ∈ sh.stored
  | .fresh _ s t => s ∈ sh.stored ∧ t - s.fetched < ttl
  | .locked job => Held i job sh
  | .reloaded job s => Held i job sh ∧ s = job.before
  | .freshHeld job s t => Held i job sh ∧ s ∈ sh.stored ∧ t - s.fetched < ttl
  | .enumerating job => Held i job sh ∧ job.Expired ttl sh.now
  | .failed job _ => Held i job sh
  | .failedLoaded job _ s => Held i job sh ∧ s = job.before
  | .enumerated job ifaces => Held i job sh ∧ job.Expired ttl sh.now ∧ Own job.call ifaces sh
  | .stamped job s => Held i job sh ∧ job.Expired ttl s.fetched ∧ Own job.call s.ifaces sh
  | .stored job s => sh.mu = some i ∧ ⟨job.call, .ok s.ifaces⟩ ∈ sh.enums
  | .returning job err => sh.mu = some i ∧ (err ≠ none → sh.snap = job.before)

/-! ## What others may do -/

/-- **How the shared state may change** under a thread that does not hold the lock:
time passes, records grow, and what is given to callers has new arrays. -/
structure Grows (sh sh' : Shared) : Prop where
  now : sh.now ≤ sh'.now
  stored : sh.stored <:+ sh'.stored
  enums : sh.enums ⊆ sh'.enums
  arrays : sh.arrays ≤ sh'.arrays
  results : ∀ r ∈ sh'.results, r ∈ sh.results ∨ ∀ copy ∈ r.ifaces, sh.arrays ≤ copy.array

/-- What does not touch arrays and records. -/
theorem Grows.of_eq {sh sh' : Shared} (hnow : sh.now ≤ sh'.now) (hs : sh'.stored = sh.stored)
    (he : sh'.enums = sh.enums) (ha : sh'.arrays = sh.arrays)
    (hr : sh'.results = sh.results) : Grows sh sh' where
  now := hnow
  stored := hs ▸ List.suffix_rfl
  enums := he ▸ List.Subset.refl _
  arrays := ha.ge
  results := fun _ h => .inl (hr ▸ h)

/-- A result that is added, on an array that is new. -/
theorem Grows.returns {sh sh' : Shared} {r : Result} (hnow : sh.now ≤ sh'.now)
    (hs : sh.stored <:+ sh'.stored) (he : sh.enums ⊆ sh'.enums) (ha : sh.arrays ≤ sh'.arrays)
    (hr : sh'.results = r :: sh.results) (hnew : ∀ copy ∈ r.ifaces, sh.arrays ≤ copy.array) :
    Grows sh sh' where
  now := hnow
  stored := hs
  enums := he
  arrays := ha
  results := by
    intro x hx
    rw [hr] at hx
    rcases List.mem_cons.mp hx with rfl | hx
    · exact .inr hnew
    · exact .inl hx

theorem array_of_mem_new {n : ℕ} {elems : List Interface} {copy : Slice}
    (h : copy ∈ some (Slice.mk n elems)) : copy.array = n := by
  cases h
  rfl

theorem Step.grows {ttl : ℤ} {i : ℕ} {sh sh' : Shared} {l l' : Pc}
    (h : Step ttl i sh l sh' l') : Grows sh sh' := by
  cases h with
  | returnFresh | returnFreshHeld | returnStale | returnOwn =>
    exact .returns le_rfl List.suffix_rfl (List.Subset.refl _) (Nat.le_succ _) rfl
      (fun copy hcopy => (array_of_mem_new hcopy).ge)
  | directEnumerates ifaces =>
    exact .returns le_rfl List.suffix_rfl (List.subset_cons_self _ _) (Nat.le_succ _) rfl
      (fun copy hcopy => (array_of_mem_new hcopy).ge)
  | directFails e =>
    exact .returns le_rfl List.suffix_rfl (List.subset_cons_self _ _) le_rfl rfl
      (fun copy hcopy => absurd hcopy (Option.not_mem_none copy))
  | returnNil =>
    exact .returns le_rfl List.suffix_rfl (List.Subset.refl _) le_rfl rfl
      (fun copy hcopy => absurd hcopy (Option.not_mem_none copy))
  | enumerates ifaces =>
    exact ⟨le_rfl, List.suffix_rfl, List.subset_cons_self _ _, Nat.le_succ _, fun r hr => .inl hr⟩
  | fails e =>
    exact ⟨le_rfl, List.suffix_rfl, List.subset_cons_self _ _, le_rfl, fun r hr => .inl hr⟩
  | store => exact ⟨le_rfl, List.suffix_cons _ _, List.Subset.refl _, le_rfl, fun r hr => .inl hr⟩
  | _ => exact Grows.of_eq le_rfl rfl rfl rfl rfl

/-- **A thread with the lock is left alone.** -/
theorem Step.keeps_lock {ttl : ℤ} {i j : ℕ} (hji : j ≠ i) {sh sh' : Shared} {l l' : Pc}
    (h : Step ttl i sh l sh' l') (hat : At ttl i sh l) (hmu : sh.mu = some j) :
    sh'.mu = some j ∧ sh'.snap = sh.snap := by
  have hother : sh.mu ≠ some i := by
    rw [hmu]
    exact fun hij => hji (Option.some.inj hij)
  cases h with
  | lock hfree =>
    rw [hmu] at hfree
    cases hfree
  | store => exact absurd hat.1.mu hother
  | unlock => exact absurd hat.1 hother
  | _ => exact ⟨hmu, rfl⟩

section

variable {ttl : ℤ} {i : ℕ} {sh sh' : Shared}

theorem Held.mono {job : Job} (h : Held i job sh)
    (hkeep : sh.mu = some i → sh'.mu = some i ∧ sh'.snap = sh.snap) : Held i job sh' :=
  ⟨(hkeep h.mu).1, (hkeep h.mu).2.trans h.snap⟩

theorem Job.Expired.mono {job : Job} {t t' : ℤ} (h : job.Expired ttl t) (ht : t ≤ t') :
    job.Expired ttl t' := fun s hs => (h s hs).trans ht

theorem Own.mono {call : ℕ} {ifaces : Slice} (h : Own call ifaces sh) (hgrow : Grows sh sh') :
    Own call ifaces sh' where
  mem := hgrow.enums h.mem
  lt := h.lt.trans_le hgrow.arrays
  unshared := by
    intro r hr copy hcopy
    rcases hgrow.results r hr with hr | hnew
    · exact h.unshared r hr copy hcopy
    · exact (h.lt.trans_le (hnew copy hcopy)).ne

/-- **What a thread knows stays true** while others move. -/
theorem At.mono {l : Pc} (h : At ttl i sh l) (hgrow : Grows sh sh')
    (hkeep : sh.mu = some i → sh'.mu = some i ∧ sh'.snap = sh.snap) : At ttl i sh' l := by
  cases l with
  | idle | called c | waiting c => trivial
  | direct c => exact h
  | loaded c s => exact fun x hx => hgrow.stored.mem (h x hx)
  | fresh c s t => exact ⟨hgrow.stored.mem h.1, h.2⟩
  | locked job => exact Held.mono h hkeep
  | reloaded job s => exact ⟨h.1.mono hkeep, h.2⟩
  | freshHeld job s t => exact ⟨h.1.mono hkeep, hgrow.stored.mem h.2.1, h.2.2⟩
  | enumerating job => exact ⟨h.1.mono hkeep, h.2.mono hgrow.now⟩
  | failed job e => exact Held.mono h hkeep
  | failedLoaded job e s => exact ⟨h.1.mono hkeep, h.2⟩
  | enumerated job ifaces =>
    exact ⟨h.1.mono hkeep, h.2.1.mono hgrow.now, h.2.2.mono hgrow⟩
  | stamped job s => exact ⟨h.1.mono hkeep, h.2.1, h.2.2.mono hgrow⟩
  | stored job s => exact ⟨(hkeep h.1).1, hgrow.enums h.2⟩
  | returning job err =>
    exact ⟨(hkeep h.1).1, fun herr => (hkeep h.1).2.trans (h.2 herr)⟩

/-! ## What a step establishes -/

/-- A result stays what it is while the records grow, if no snapshot is stored on
its array. -/
theorem Result.Sound.mono {r : Result} (h : r.Sound ttl sh) (hgrow : Grows sh sh')
    (hnew : ∀ s ∈ sh'.stored, s ∈ sh.stored ∨ ∀ copy ∈ r.ifaces, s.ifaces.array ≠ copy.array) :
    r.Sound ttl sh' where
  history := h.history.trans hgrow.stored
  ok := by
    intro herr
    obtain ⟨copy, source, hcopy, helems, hown | ⟨s, t, c, hs, hsrc, hmem, hhist, hage⟩⟩ := h.ok herr
    · exact ⟨copy, source, hcopy, helems, .inl (hgrow.enums hown)⟩
    · exact ⟨copy, source, hcopy, helems,
        .inr ⟨s, t, c, hs, hsrc, hgrow.enums hmem, hhist, hage⟩⟩
  failed := h.failed
  unshared := by
    intro copy hcopy
    refine ⟨(h.unshared copy hcopy).1.trans_le hgrow.arrays, fun s hs => ?_⟩
    rcases hnew s hs with hs | hne
    · exact (h.unshared copy hcopy).2 s hs
    · exact hne copy hcopy

/-- **Steps that store nothing** keep the cache sound, if what they return is. -/
theorem Sound.of_grows (h : Sound ttl sh) (hgrow : Grows sh sh') (hsnap : sh'.snap = sh.snap)
    (hstored : sh'.stored = sh.stored)
    (hresults : ∀ r ∈ sh'.results, r ∈ sh.results ∨ r.Sound ttl sh') : Sound ttl sh' where
  snap := by rw [hsnap, hstored, h.snap]
  apart := hstored ▸ h.apart
  origin := by
    intro s hs
    obtain ⟨c, hc⟩ := h.origin s (hstored ▸ hs)
    exact ⟨c, hgrow.enums hc⟩
  arrays := fun s hs => (h.arrays s (hstored ▸ hs)).trans_le hgrow.arrays
  results := by
    intro r hr
    rcases hresults r hr with hold | hnew
    · exact (h.results r hold).mono hgrow (fun s hs => .inl (hstored ▸ hs))
    · exact hnew

/-- **A step that returns a result** keeps the cache sound, if the result is. -/
theorem Sound.returns {r : Result} (h : Sound ttl sh) (hgrow : Grows sh sh')
    (hsnap : sh'.snap = sh.snap) (hstored : sh'.stored = sh.stored)
    (hr : sh'.results = r :: sh.results) (hsound : r.Sound ttl sh') : Sound ttl sh' := by
  refine h.of_grows hgrow hsnap hstored (fun x hx => ?_)
  rw [hr] at hx
  rcases List.mem_cons.mp hx with rfl | hx
  · exact .inr hsound
  · exact .inl hx

/-- The array of a copy is new. -/
theorem Sound.unshared_cloned (h : Sound ttl sh) (elems : List Interface) :
    ∀ copy ∈ some (Slice.mk sh.arrays elems), copy.array < sh.arrays + 1
      ∧ ∀ s ∈ sh.stored, s.ifaces.array ≠ copy.array := by
  intro copy hcopy
  rw [array_of_mem_new hcopy]
  exact ⟨Nat.lt_succ_self _, fun s hs => (h.arrays s hs).ne⟩

/-- **A copy that is returned without an error.** -/
theorem Sound.ok_cloned (h : Sound ttl sh) {call : ℕ} {source : Slice}
    {checked : Option (Snapshot × ℤ)}
    (hsource : ⟨call, .ok source⟩ ∈ sh.enums
      ∨ ∃ s t, checked = some (s, t) ∧ s.ifaces = source ∧ s ∈ sh.stored
        ∧ t - s.fetched < ttl) :
    Result.Sound ttl (sh.cloned call source none checked)
      ⟨call, some ⟨sh.arrays, source.elems⟩, none, checked, sh.stored⟩ where
  history := List.suffix_rfl
  ok := by
    intro _
    refine ⟨_, source, rfl, rfl, ?_⟩
    rcases hsource with hown | ⟨s, t, rfl, rfl, hs, hage⟩
    · exact .inl hown
    · obtain ⟨c, hc⟩ := h.origin s hs
      exact .inr ⟨s, t, c, rfl, rfl, hc, hs, hage⟩
  failed := fun e he => absurd he.symm (Option.some_ne_none e)
  unshared := h.unshared_cloned source.elems

/-- **A copy that is returned with an error.** -/
theorem Sound.stale_cloned (h : Sound ttl sh) {call : ℕ} {s : Snapshot} {e : String}
    (hs : sh.snap = some s) :
    Result.Sound ttl (sh.cloned call s.ifaces (some e) none)
      ⟨call, some ⟨sh.arrays, s.ifaces.elems⟩, some e, none, sh.stored⟩ where
  history := List.suffix_rfl
  ok := fun herr => absurd herr (Option.some_ne_none e)
  failed := fun _ _ => .inr ⟨s, _, h.snap.symm.trans hs, rfl, rfl⟩
  unshared := h.unshared_cloned s.ifaces.elems

/-- **Nil, returned with an error.** -/
theorem Sound.nil_returned (h : Sound ttl sh) {call : ℕ} {e : String} (hs : sh.snap = none)
    (hstored : sh'.stored = sh.stored) :
    Result.Sound ttl sh' ⟨call, none, some e, none, sh.stored⟩ where
  history := hstored ▸ List.suffix_rfl
  ok := fun herr => absurd herr (Option.some_ne_none e)
  failed := fun _ _ => .inl ⟨List.head?_eq_none_iff.mp (h.snap.symm.trans hs), rfl⟩
  unshared := fun copy hcopy => absurd hcopy (Option.not_mem_none copy)

/-- **A snapshot that is stored** comes at least `ttl` after the one before it, and
on an array that no caller has. -/
theorem Sound.store {call : ℕ} {s : Snapshot} {job : Job} (h : Sound ttl sh)
    (hheld : Held i job sh) (hexp : job.Expired ttl s.fetched) (hown : Own call s.ifaces sh) :
    Sound ttl { sh with snap := some s, stored := s :: sh.stored } where
  snap := rfl
  apart := by
    refine List.isChain_cons.mpr ⟨fun s' hs' => ?_, h.apart⟩
    refine hexp s' ?_
    rw [← hheld.snap, h.snap]
    exact hs'
  origin := List.forall_mem_cons.mpr ⟨⟨call, hown.mem⟩, h.origin⟩
  arrays := List.forall_mem_cons.mpr ⟨hown.lt, h.arrays⟩
  results := by
    intro r hr
    refine (h.results r hr).mono
      ⟨le_rfl, List.suffix_cons _ _, List.Subset.refl _, le_rfl, fun r hr => .inl hr⟩ ?_
    intro s' hs'
    rcases List.mem_cons.mp hs' with rfl | hs'
    · exact .inr (fun copy hcopy => hown.unshared r hr copy hcopy)
    · exact .inl hs'

/-- Steps that leave arrays and records alone keep the cache sound. -/
theorem Sound.of_eq (h : Sound ttl sh) (hnow : sh.now ≤ sh'.now) (hsnap : sh'.snap = sh.snap)
    (hs : sh'.stored = sh.stored) (he : sh'.enums = sh.enums) (ha : sh'.arrays = sh.arrays)
    (hr : sh'.results = sh.results) : Sound ttl sh' :=
  h.of_grows (Grows.of_eq hnow hs he ha hr) hsnap hs (fun _ hmem => .inl (hr ▸ hmem))

/-- The snapshot is one of those that were stored. -/
theorem Sound.mem_stored (h : Sound ttl sh) {s : Snapshot} (hs : sh.snap = some s) :
    s ∈ sh.stored :=
  List.mem_of_head? (h.snap.symm.trans hs)

/-- **A step keeps the cache sound, and the thread knows what it has to know.** -/
theorem Step.establishes (httl : 0 < ttl) {l l' : Pc} (h : Step ttl i sh l sh' l')
    (hG : Sound ttl sh) (hat : At ttl i sh l) : Sound ttl sh' ∧ At ttl i sh' l' := by
  have hgrow := h.grows
  cases h with
  | call => exact ⟨hG.of_eq le_rfl rfl rfl rfl rfl rfl, trivial⟩
  | disabled h => exact ⟨hG, h⟩
  | directEnumerates | directFails => exact absurd httl (not_lt.mpr hat)
  | load => exact ⟨hG, fun x hx => hG.mem_stored hx⟩
  | loadFresh h => exact ⟨hG, hat _ rfl, h⟩
  | loadExpired | loadNone => exact ⟨hG, trivial⟩
  | returnFresh =>
    refine ⟨hG.returns hgrow rfl rfl rfl (hG.ok_cloned ?_), trivial⟩
    exact .inr ⟨_, _, rfl, rfl, hat.1, hat.2⟩
  | lock => exact ⟨hG.of_eq le_rfl rfl rfl rfl rfl rfl, rfl, rfl⟩
  | reload => exact ⟨hG, hat, hat.snap⟩
  | reloadFresh h => exact ⟨hG, hat.1, hG.mem_stored (hat.1.snap.trans hat.2.symm), h⟩
  | @reloadExpired job s h =>
    refine ⟨hG, hat.1, fun x hx => ?_⟩
    rw [← hat.2] at hx
    cases hx
    omega
  | reloadNone =>
    refine ⟨hG, hat.1, fun x hx => ?_⟩
    rw [← hat.2] at hx
    cases hx
  | returnFreshHeld =>
    refine ⟨hG.returns hgrow rfl rfl rfl (hG.ok_cloned ?_), hat.1.mu,
      fun herr => absurd rfl herr⟩
    exact .inr ⟨_, _, rfl, rfl, hat.2.1, hat.2.2⟩
  | enumerates ifaces =>
    refine ⟨hG.of_grows hgrow rfl rfl (fun _ hr => .inl hr),
      ⟨hat.1.mu, hat.1.snap⟩, hat.2, List.mem_cons_self, Nat.lt_succ_self _, ?_⟩
    intro r hr copy hcopy
    exact ((hG.results r hr).unshared copy hcopy).1.ne'
  | fails e =>
    exact ⟨hG.of_grows hgrow rfl rfl (fun _ hr => .inl hr), hat.1.mu, hat.1.snap⟩
  | loadStale => exact ⟨hG, hat, hat.snap⟩
  | returnStale =>
    have hsnap := hat.1.snap.trans hat.2.symm
    exact ⟨hG.returns hgrow rfl rfl rfl (hG.stale_cloned hsnap), hat.1.mu,
      fun _ => hat.1.snap⟩
  | returnNil =>
    have hsnap := hat.1.snap.trans hat.2.symm
    exact ⟨hG.returns hgrow rfl rfl rfl (hG.nil_returned hsnap rfl), hat.1.mu,
      fun _ => hat.1.snap⟩
  | stamp => exact ⟨hG, hat⟩
  | store => exact ⟨hG.store hat.1 hat.2.1 hat.2.2, hat.1.mu, hat.2.2.mem⟩
  | returnOwn =>
    exact ⟨hG.returns hgrow rfl rfl rfl (hG.ok_cloned (.inl hat.2)), hat.1,
      fun herr => absurd rfl herr⟩
  | unlock => exact ⟨hG.of_eq le_rfl rfl rfl rfl rfl rfl, trivial⟩

end

/-! ## Every interleaving -/

section

variable {ttl : ℤ} {st st' : Threads.State Shared Pc}

/-- **The cache is sound in every reachable state**, and every thread is where it
knows what it has to know. -/
theorem sound_of_reachable (httl : 0 < ttl) (h : (caching ttl).system.Reachable st) :
    Sound ttl st.shared ∧ ∀ i, At ttl i st.shared (st.thread i) := by
  refine Threads.invariant (G := Sound ttl) (P := At ttl) ?_ ?_ ?_ ?_ h
  · rintro _ ⟨now, rfl⟩
    exact ⟨⟨rfl, .nil, fun s hs => absurd hs List.not_mem_nil,
      fun s hs => absurd hs List.not_mem_nil, fun r hr => absurd hr List.not_mem_nil⟩,
      fun i => trivial⟩
  · rintro sh _ ⟨t, ht, rfl⟩ hG
    exact ⟨hG.of_eq ht rfl rfl rfl rfl rfl,
      fun i l hat => hat.mono (Grows.of_eq ht rfl rfl rfl rfl) (fun hmu => ⟨hmu, rfl⟩)⟩
  · exact fun i sh l sh' l' hstep hG hat => Step.establishes httl hstep hG hat
  · exact fun i sh l sh' l' hstep hat j m hji hj =>
      hj.mono (Step.grows hstep) (Step.keeps_lock hji hstep hat)

/-- Whoever enumerates holds the lock. -/
theorem mu_of_enumerates (httl : 0 < ttl) (h : (caching ttl).system.Reachable st) {i : ℕ}
    (hi : (st.thread i).enumerates = true) : st.shared.mu = some i := by
  have hat := (sound_of_reachable httl h).2 i
  generalize st.thread i = l at hi hat
  cases l with
  | direct c => exact absurd httl (not_lt.mpr hat)
  | enumerating job => exact hat.1.mu
  | _ => cases hi

/-- **A call whose enumeration has failed leaves the snapshot as it found it.** -/
theorem snap_of_failedJob (httl : 0 < ttl) (h : (caching ttl).system.Reachable st) {i : ℕ}
    {job : Job} (hi : (st.thread i).failedJob = some job) : st.shared.snap = job.before := by
  have hat := (sound_of_reachable httl h).2 i
  generalize st.thread i = l at hi hat
  cases l with
  | failed job' e =>
    cases hi
    exact hat.snap
  | failedLoaded job' e s =>
    cases hi
    exact hat.1.snap
  | returning job' err =>
    cases err with
    | none => cases hi
    | some e =>
      cases hi
      exact hat.2 (Option.some_ne_none e)
  | _ => cases hi

/-- **Only a call that has enumerated the interfaces changes the snapshot.** -/
theorem stamped_of_snap_ne (httl : 0 < ttl) (h : (caching ttl).system.Reachable st)
    (hstep : (caching ttl).system.step st st') (hne : st'.shared.snap ≠ st.shared.snap) :
    ∃ i job s, st.thread i = .stamped job s ∧ st'.shared.snap = some s
      ∧ ⟨job.call, .ok s.ifaces⟩ ∈ st.shared.enums := by
  have hall := (sound_of_reachable httl h).2
  cases hstep with
  | env henv =>
    obtain ⟨t, -, rfl⟩ := henv
    exact absurd rfl hne
  | @thread sh sh' ls i l' hi =>
    have hat := hall i
    dsimp only at hat hne ⊢
    generalize hl : ls i = l at hi hat
    cases hi with
    | @store job s => exact ⟨i, job, s, hl, rfl, hat.2.2.mem⟩
    | _ => exact absurd rfl hne

end

/-- **The cache is fresh, single-flight and failure-proof**, with caching enabled,
for any number of callers and in every interleaving. No two enumerations are in
progress at once, and snapshots are stored at least `ttl` apart. Every result is
what it should be (`Result.Sound`). The snapshot is the one that was stored last, a
call whose enumeration has failed leaves it as it found it, and whoever replaces it
has enumerated the interfaces without an error. -/
theorem cache_sound (ttl : ℤ) (httl : 0 < ttl) (st : Threads.State Shared Pc)
    (h : (caching ttl).system.Reachable st) :
    (∀ i j, (st.thread i).enumerates = true → (st.thread j).enumerates = true → i = j)
      ∧ st.shared.stored.IsChain (fun newer older => older.fetched + ttl ≤ newer.fetched)
      ∧ (∀ r ∈ st.shared.results, r.Sound ttl st.shared)
      ∧ st.shared.snap = st.shared.stored.head?
      ∧ (∀ i job, (st.thread i).failedJob = some job → st.shared.snap = job.before)
      ∧ ∀ st', (caching ttl).system.step st st' → st'.shared.snap ≠ st.shared.snap →
        ∃ i job s, st.thread i = .stamped job s ∧ st'.shared.snap = some s
          ∧ ⟨job.call, .ok s.ifaces⟩ ∈ st.shared.enums := by
  have hG := (sound_of_reachable httl h).1
  refine ⟨?_, hG.apart, hG.results, hG.snap, fun i job hi => snap_of_failedJob httl h hi,
    fun st' hstep hne => stamped_of_snap_ne httl h hstep hne⟩
  intro i j hi hj
  have hmu := mu_of_enumerates httl h hi
  rw [mu_of_enumerates httl h hj] at hmu
  exact (Option.some.inj hmu).symm

/-! ## A refetch that fails -/

/-- The one interface of a host. -/
def eth0 : Interface := ⟨2, "eth0".toList, [2, 0, 0, 0, 0, 2], true⟩

/-- The cache after a call that stored the interface at time 0. -/
def stored0 : Shared where
  now := 0
  snap := some ⟨0, 0, [eth0]⟩
  arrays := 2
  calls := 1
  stored := [⟨0, 0, [eth0]⟩]
  enums := [⟨0, .ok ⟨0, [eth0]⟩⟩]
  results := [⟨0, some ⟨1, [eth0]⟩, none, none, [⟨0, 0, [eth0]⟩]⟩]

/-- The cache after a second call, at time 5, whose enumeration failed. -/
def failed5 : Shared :=
  { stored0 with
    now := 5
    arrays := 3
    calls := 2
    enums := ⟨1, .error "netlink"⟩ :: stored0.enums
    results := ⟨1, some ⟨2, [eth0]⟩, some "netlink", none, [⟨0, 0, [eth0]⟩]⟩
      :: stored0.results }

theorem run_stores : (caching 1).Run 0 ({ now := 0 }, .idle) (stored0, .idle) :=
  .step .call <| .step (.load (by decide)) <| .step .loadNone <| .step (.lock rfl) <|
    .step .reload <| .step .reloadNone <| .step (.enumerates [eth0]) <| .step .stamp <|
    .step .store <| .step .returnOwn <| .step .unlock .refl

theorem run_fails :
    (caching 1).Run 1 ({ stored0 with now := 5 }, .idle) (failed5, .idle) :=
  .step .call <| .step (.load (by decide)) <| .step (.loadExpired (by decide)) <|
    .step (.lock rfl) <| .step .reload <| .step (.reloadExpired (by decide)) <|
    .step (.fails "netlink") <| .step .loadStale <| .step .returnStale <| .step .unlock .refl

/-- The second call gets what the first one stored, with the error, and both results
are what they should be. -/
theorem cache_sound_refetchError :
    failed5.results.map (fun r => (r.ifaces.map Slice.elems, r.err))
        = [(some [eth0], some "netlink"), (some [eth0], none)]
      ∧ ∀ r ∈ failed5.results, r.Sound 1 failed5 := by
  have hinit : (caching 1).system.Reachable ⟨{ now := 0 }, fun _ => .idle⟩ :=
    .init ⟨⟨0, rfl⟩, rfl⟩
  have hfirst := Threads.reachable_of_run hinit run_stores
  rw [Function.update_eq_self] at hfirst
  have hlater : (caching 1).system.Reachable ⟨{ stored0 with now := 5 }, fun _ => .idle⟩ :=
    .step hfirst (.env ⟨5, by decide, rfl⟩)
  have hsecond := Threads.reachable_of_run hlater run_fails
  exact ⟨rfl, (cache_sound 1 (by decide) _ hsecond).2.2.1⟩

end IfCache
