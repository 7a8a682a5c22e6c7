import DhcpRelay.WatchLife

/-!
# The watcher converges

A poll compares what `stat` says of the file with `lastInfo`, which the last
successful reload left, and reloads the file if they differ. Between the two, and
while the reload goes on, other threads may poll and reload as well, some of them
from a file that the path led to earlier: a reload that has opened the old file is
free to publish it after the new one is in place.

`poll_converges` says that no update is lost all the same. If the file does not
change from the moment a poll has seen it, and this poll ends without an error, then
the snapshot is that of the file when the poll ends, and stays so as long as the file
does. The lock is what makes it so: a reload of an old file that is under way has the
lock, so the poll waits for it, and finds its `lastInfo` in place of its own; a
reload that takes the lock later opens the file anew.
-/

namespace FileWatch

variable {β T : Type}

/-- A step of one of the threads, during which the disk is quiet. -/
def Quiet (w : Config β T) (s s' : Threads.State (Shared β T) (Pc β T)) : Prop :=
  ∃ i sh' pc', Step w i s.shared (s.thread i) sh' pc'
    ∧ s' = ⟨sh', Function.update s.thread i pc'⟩

/-- **A poll of thread `i` under way**, among other threads and on a quiet disk: it
is not over before the last step, and it meets no error. -/
inductive PollRun (w : Config β T) (i : ℕ) :
    Threads.State (Shared β T) (Pc β T) → Threads.State (Shared β T) (Pc β T) → Prop where
  | refl (s) : PollRun w i s s
  | step {s s' s''} : PollRun w i s s' → s'.thread i ≠ .idle → Quiet w s' s'' →
    (∀ job e, s''.thread i ≠ .returning job (some e)) → PollRun w i s s''

/-- The path leads to a file, and the parser has a snapshot for what it holds. -/
structure InPlace (w : Config β T) (d : Disk β) (j : ℕ) (f : File β) (t : T) : Prop where
  path : d.path = some j
  file : d.files j = some f
  parses : w.Parses f.content t

/-- **What a reload of the file in place knows**, where it is: the file it has open,
or what `stat` said of it. -/
def Follows (j : ℕ) (f : File β) (sh : Shared β T) : Pc β T → Prop
  | .idle | .polling | .polled _ | .waiting _ | .locked _ => True
  | .opened _ j' => j' = j
  | .reading _ j' info _ => j' = j ∧ info = f.stat
  | .parsed _ _ info _ _ | .checked _ info _ _ | .validated _ info _ _ | .stored _ info _ =>
    info = f.stat
  | .returning _ err => err = none → sh.lastInfo = some f.stat

section Steps

variable {w : Config β T} {d : Disk β} {j : ℕ} {f : File β} {t : T} {i k : ℕ}
  {sh sh' : Shared β T} {pc pc' : Pc β T}

/-- Only one content was ever described as the file in place is. -/
theorem InPlace.eq_of_whole (h : InPlace w d j f t) {t' : T} (ht : Whole w d f.stat t') :
    t' = t := by
  obtain ⟨c, hc, hparses⟩ := ht
  cases d.history_inj _ _ _ hc (d.mem_history j f h.file)
  exact hparses.unique h.parses

/-- A reload that follows the file in place goes on following it. -/
theorem Step.follows (h : Step w i sh pc sh' pc') (hd : InPlace w sh.disk j f t)
    (hf : Follows j f sh pc) : Follows j f sh' pc' := by
  cases h with
  | callNew | callReload | callPoll | pollStatFails | pollStat | pollSkips | pollReloads
  | lock | unlock => trivial
  | openFails | statFails | readFails | statAfterFails | rejects => exact fun h => by cases h
  | @«open» job j' f' hp hf' => exact Option.some.inj (hp.symm.trans hd.path)
  | @stat job j' f' hf' =>
    cases (show j' = j from hf)
    cases hf'.symm.trans hd.file
    exact ⟨rfl, rfl⟩
  | read n hf' => exact hf
  | @parse job j' info buf r hr =>
    match r with
    | .error e => exact fun h => by cases h
    | .ok (none, warnings) => exact fun h => by cases h
    | .ok (some t', warnings) => exact hf.2
  | @statAfter job j' info t' warnings f' hf' =>
    unfold Config.afterStat
    split
    · exact fun h => by cases h
    · exact hf
  | noValidation | accepts | store => exact hf
  | @setLastInfo job info t' => exact fun _ => congrArg some hf

/-- What a thread knows of the file in place is no business of the others. -/
theorem Step.follows_other (h : Step w i sh pc sh' pc') (hl : Local w i sh pc) {m : Pc β T}
    (hk : k ≠ i) (hm : Local w k sh m) (hf : Follows j f sh m) : Follows j f sh' m := by
  cases m with
  | returning job err =>
    cases err with
    | some e => exact fun h => by cases h
    | none =>
      obtain ⟨log, rfl⟩ := h.log_of_mu hl hm.1 hk
      exact hf
  | _ => exact hf

/-- Whoever is without the lock reloads nothing. -/
theorem follows_of_mu (hm : Local w k sh pc) (hmu : sh.mu ≠ some k) : Follows j f sh pc := by
  cases pc with
  | idle | polling | polled | waiting | locked => trivial
  | opened => exact absurd hm.mu hmu
  | reading | parsed | checked | validated => exact absurd hm.1.mu hmu
  | stored => exact absurd hm.1 hmu
  | returning job err =>
    cases err with
    | some e => exact absurd hm.mu hmu
    | none => exact absurd hm.1 hmu

end Steps

/-! ## The file in place is the one loaded -/

/-- **The watcher has converged** to the file in place: its snapshot is loaded, and
whoever reloads follows the file. -/
structure Converged (w : Config β T) (d : Disk β) (j : ℕ) (f : File β) (t : T)
    (s : Threads.State (Shared β T) (Pc β T)) : Prop where
  disk : s.shared.disk = d
  snap : s.shared.snapshot = some t
  follows : ∀ k, Follows j f s.shared (s.thread k)

/-- **A poll is on its way**: it has seen the file in place, and follows it. -/
structure OnTrack (j : ℕ) (f : File β) (sh : Shared β T) (pc : Pc β T) : Prop where
  follows : Follows j f sh pc
  polled : ∀ info, pc = .polled info → info = f.stat
  ne_polling : pc ≠ .polling
  no_error : ∀ job e, pc ≠ .returning job (some e)

section Runs

variable {w : Config β T} {d : Disk β} {j : ℕ} {f : File β} {t : T} {i : ℕ}
  {s s' : Threads.State (Shared β T) (Pc β T)}

theorem Quiet.step (h : Quiet w s s') : (watching w).system.step s s' := by
  obtain ⟨i, sh', pc', hstep, rfl⟩ := h
  exact .thread i hstep

/-- What was read of the file in place is its snapshot, and is published again and
again. -/
theorem Quiet.converged (h : Quiet w s s') (hr : (watching w).system.Reachable s)
    (hd : InPlace w d j f t) (hc : Converged w d j f t s) : Converged w d j f t s' := by
  obtain ⟨i, sh', pc', hstep, rfl⟩ := h
  obtain ⟨-, hl⟩ := sound_of_reachable hr
  obtain ⟨rfl, hsnap, hfollows⟩ := hc
  refine ⟨hstep.disk_eq, ?_, fun k => ?_⟩
  · rcases hstep.snapshot with heq | ⟨job, info, t', warnings, hpc, ht'⟩
    · exact heq.trans hsnap
    · have hwhole := hl i
      have hinfo := hfollows i
      rw [hpc] at hwhole hinfo
      cases (show info = f.stat from hinfo)
      rw [ht', hd.eq_of_whole hwhole.2.1]
  · by_cases hk : k = i
    · subst hk
      dsimp only
      rw [Function.update_self]
      exact hstep.follows hd (hfollows k)
    · dsimp only
      rw [Function.update_of_ne hk]
      exact hstep.follows_other (hl i) hk (hl k) (hfollows k)

/-- A poll that is over without an error has left the lock free and `lastInfo` as
`stat` said of the file in place. -/
theorem Step.ends {sh sh' : Shared β T} {pc : Pc β T} (h : Step w i sh pc sh' .idle)
    (hs : Sound w sh) (hl : Local w i sh pc) (ht : OnTrack j f sh pc) :
    sh'.mu = none ∧ ∃ t', sh'.snapshot = some t' ∧ Whole w sh.disk f.stat t' := by
  generalize hidle : (Pc.idle : Pc β T) = pc' at h
  cases h with
  | pollStatFails => exact absurd rfl ht.ne_polling
  | @pollSkips info last hmu hlast hch =>
    cases ht.polled info rfl
    rw [fileChanged_eq_false_iff] at hch
    rcases hs.settled hmu with ⟨-, hnone⟩ | ⟨n, info', t', hp, -⟩
    · cases hlast.symm.trans hnone
    · have hinfo := hlast.symm.trans hp.lastInfo
      rw [hch, Option.some.injEq] at hinfo
      exact ⟨hmu, t', hp.snap, hinfo ▸ hp.whole⟩
  | @unlock job err =>
    cases err with
    | some e => exact absurd rfl (ht.no_error job e)
    | none =>
      obtain ⟨-, info, t', hp⟩ := hl
      have hinfo := (ht.follows rfl).symm.trans hp.lastInfo
      rw [Option.some.injEq] at hinfo
      exact ⟨rfl, t', hp.snap, hinfo ▸ hp.whole⟩
  | @parse job j' info buf r hr =>
    have hjob : (w.afterParse job j' info r).job = some job := (job_afterParse ..).1
    rw [← hidle] at hjob
    cases hjob
  | @statAfter job j' info t' warnings f' hf' =>
    have hjob : (w.afterStat job info f'.stat t' warnings : Pc β T).job = some job :=
      (job_afterStat ..).1
    rw [← hidle] at hjob
    cases hjob
  | _ => cases hidle

/-- A poll begins at its `stat`. -/
theorem Step.begins {sh sh' : Shared β T} {pc pc' : Pc β T} (h : Step w i sh pc sh' pc') :
    (pc' = .polling → pc = .idle) ∧ ∀ info, pc' = .polled info → pc = .polling := by
  have hjob : ∀ job, pc'.job = some job → pc' ≠ .polling ∧ ∀ info, pc' ≠ .polled info := by
    intro job hj
    refine ⟨?_, fun info => ?_⟩
    · rintro rfl
      cases hj
    · rintro rfl
      cases hj
  cases h with
  | parse =>
    obtain ⟨h1, h2⟩ := hjob _ (job_afterParse ..).1
    exact ⟨fun h => absurd h h1, fun info h => absurd h (h2 info)⟩
  | statAfter =>
    obtain ⟨h1, h2⟩ := hjob _ (job_afterStat ..).1
    exact ⟨fun h => absurd h h1, fun info h => absurd h (h2 info)⟩
  | _ => simp

/-- **A step on the way**: the poll goes on following the file in place, and if it is
over then the watcher has converged. -/
theorem Quiet.onTrack (h : Quiet w s s') (hr : (watching w).system.Reachable s)
    (hd : InPlace w s.shared.disk j f t) (ht : OnTrack j f s.shared (s.thread i))
    (hne : s.thread i ≠ .idle) (hok : ∀ job e, s'.thread i ≠ .returning job (some e)) :
    OnTrack j f s'.shared (s'.thread i)
      ∧ (s'.thread i = .idle → Converged w s.shared.disk j f t s') := by
  have hl' := (sound_of_reachable (hr.step h.step)).2
  obtain ⟨k, sh', pc', hstep, rfl⟩ := h
  obtain ⟨hs, hl⟩ := sound_of_reachable hr
  dsimp only at hl' hok ⊢
  by_cases hk : i = k
  · subst hk
    rw [Function.update_self] at hok ⊢
    refine ⟨⟨hstep.follows hd ht.follows, ?_, ?_, hok⟩, fun hidle => ?_⟩
    · exact fun info hinfo => absurd (hstep.begins.2 info hinfo) ht.ne_polling
    · exact fun h => absurd (hstep.begins.1 h) hne
    · subst hidle
      obtain ⟨hmu, t', hsnap, hwhole⟩ := hstep.ends hs (hl i) ht
      refine ⟨hstep.disk_eq, by rw [hsnap, hd.eq_of_whole hwhole], fun m => ?_⟩
      refine follows_of_mu (hl' m) ?_
      rw [hmu]
      exact fun h => by cases h
  · rw [Function.update_of_ne hk] at hok ⊢
    exact ⟨{ ht with follows := hstep.follows_other (hl k) hk (hl i) ht.follows },
      fun hidle => absurd hidle hne⟩

theorem Quiet.disk_eq (h : Quiet w s s') : s'.shared.disk = s.shared.disk := by
  obtain ⟨i, sh', pc', hstep, rfl⟩ := h
  exact hstep.disk_eq

/-- Along a poll. -/
theorem PollRun.onTrack (h : PollRun w i s s') (hr : (watching w).system.Reachable s)
    (hd : InPlace w s.shared.disk j f t) (ht : OnTrack j f s.shared (s.thread i))
    (hne : s.thread i ≠ .idle) :
    (watching w).system.Reachable s' ∧ s'.shared.disk = s.shared.disk
      ∧ OnTrack j f s'.shared (s'.thread i)
      ∧ (s'.thread i = .idle → Converged w s.shared.disk j f t s') := by
  induction h with
  | refl => exact ⟨hr, rfl, ht, fun h => absurd h hne⟩
  | step _ hne' hq hok ih =>
    obtain ⟨hr', hdisk, ht', -⟩ := ih
    obtain ⟨ht'', hend⟩ := hq.onTrack hr' (hdisk ▸ hd) ht' hne' hok
    rw [hdisk] at hend
    exact ⟨hr'.step hq.step, hq.disk_eq.trans hdisk, ht'', hend⟩

/-- **From the end of the poll on**, by induction on the quiet steps. -/
theorem PollRun.converged {s'' : Threads.State (Shared β T) (Pc β T)}
    (h : PollRun w i s s') (hr : (watching w).system.Reachable s)
    (hd : InPlace w s.shared.disk j f t) (hi : s.thread i = .polled f.stat)
    (hidle : s'.thread i = .idle) (hquiet : Relation.ReflTransGen (Quiet w) s' s'') :
    (watching w).system.Reachable s'' ∧ Converged w s.shared.disk j f t s'' := by
  have htrack : OnTrack j f s.shared (s.thread i) := by
    rw [hi]
    exact ⟨trivial, fun info h => by cases h; rfl, by simp, by simp⟩
  obtain ⟨hr', -, -, hend⟩ := h.onTrack hr hd htrack (by simp [hi])
  induction hquiet with
  | refl => exact ⟨hr', hend hidle⟩
  | tail _ hq ih => exact ⟨ih.1.step hq.step, hq.converged ih.1 hd ih.2⟩

theorem PollRun.started (h : PollRun w i s s') (hst : s.shared.started = true) :
    s'.shared.started = true := by
  induction h with
  | refl => exact hst
  | step _ _ hq _ ih =>
    obtain ⟨k, sh', pc', hstep, rfl⟩ := hq
    exact hstep.started_of ih

theorem PollRun.quiet (h : PollRun w i s s') : Relation.ReflTransGen (Quiet w) s s' := by
  induction h with
  | refl => exact .refl
  | step _ _ hq _ ih => exact ih.tail hq

/-- The poll of thread `i` takes a step. -/
theorem PollRun.thread {sh sh' : Shared β T} {ls : ℕ → Pc β T} {pc pc' : Pc β T}
    (h : PollRun w i s ⟨sh, Function.update ls i pc⟩) (hpc : pc ≠ .idle)
    (hstep : Step w i sh pc sh' pc') (hok : ∀ job e, pc' ≠ .returning job (some e)) :
    PollRun w i s ⟨sh', Function.update ls i pc'⟩ := by
  refine .step h (by simpa using hpc) ⟨i, sh', pc', ?_, ?_⟩ (by simpa using hok)
  · simpa using hstep
  · simp

/-- **A poll that nobody disturbs reloads a file that has changed**, and meets no
error unless the validation rejects it. -/
theorem pollRun_reload {sh : Shared β T} (ls : ℕ → Pc β T) (hmu : sh.mu = none)
    (hd : InPlace w sh.disk j f t) (hlast : sh.lastInfo ≠ some f.stat) :
    ∃ sh', PollRun w i ⟨sh, Function.update ls i (.polled f.stat)⟩
      ⟨sh', Function.update ls i .idle⟩ := by
  obtain ⟨warnings, ht⟩ := hd.parses
  have hchanged : ∀ last, sh.lastInfo = some last → fileChanged last f.stat = true := by
    intro last hl
    rw [← Bool.not_eq_false, fileChanged_eq_false_iff]
    rintro rfl
    exact hlast hl
  have hpolled := PollRun.refl (w := w) (i := i) ⟨sh, Function.update ls i (.polled f.stat)⟩
  have hwaiting := hpolled.thread (by simp) (.pollReloads hmu hchanged) (by simp)
  have hlocked := hwaiting.thread (by simp) (.lock hmu) (by simp)
  have hopened := hlocked.thread (by simp) (.open hd.path hd.file) (by simp)
  have hreading := hopened.thread (by simp) (.stat hd.file) (by simp)
  have hread := hreading.thread (by simp) (.read f.content.length hd.file) (by simp)
  have hparsed := hread.thread (by simp) (.parse_whole hd.file ht) (by simp)
  have hchecked := hparsed.thread (by simp) (.stat_unchanged hd.file) (by simp)
  have hvalid : ∃ sh', PollRun w i ⟨sh, Function.update ls i (.polled f.stat)⟩
      ⟨sh', Function.update ls i (.validated ⟨.poll, sh.jobs, sh.snap, sh.lastInfo⟩
        f.stat t warnings)⟩ := by
    cases hv : w.validate with
    | false => exact ⟨_, hchecked.thread (by simp) (.noValidation hv) (by simp)⟩
    | true => exact ⟨_, hchecked.thread (by simp) (.accepts hv) (by simp)⟩
  obtain ⟨sh', hvalidated⟩ := hvalid
  exact ⟨_, ((hvalidated.thread (by simp) .store (by simp)).thread (by simp) .setLastInfo
    (by simp)).thread (by simp) .unlock (by simp)⟩

end Runs

/-- **The watcher converges.** Let a poll have seen the file in place, for which the
parser has a snapshot. If the disk is quiet until the poll is over and the poll meets
no error, then, whatever other threads have done in the meantime and do from then
on, the snapshot is that of the file as long as the disk is quiet. -/
theorem poll_converges (w : Config β T) {s s' s'' : Threads.State (Shared β T) (Pc β T)}
    (hr : (watching w).system.Reachable s) {i j : ℕ} {f : File β} {t : T}
    (hfile : InPlace w s.shared.disk j f t) (hi : s.thread i = .polled f.stat)
    (hpoll : PollRun w i s s') (hidle : s'.thread i = .idle)
    (hquiet : Relation.ReflTransGen (Quiet w) s' s'') :
    s''.shared.snapshot = some t :=
  (hpoll.converged hr hfile hi hidle hquiet).2.snap

/-! ## A watcher that polls -/

/-- **A poll that finds another content**: the watcher has loaded `text₀`, the file is
overwritten with `text₁`, and thread 0 has seen this and goes on to the end of the
poll. -/
structure Reloading (w : Config Char T) (text₀ text₁ : Text) (t₀ t₁ : T)
    (s s' : Threads.State (Shared Char T) (Pc Char T)) : Prop where
  reachable : (watching w).system.Reachable s
  started : s.shared.started = true
  parses : w.Parses text₀ t₀
  snap : s.shared.snapshot = some t₀
  lastInfo : s.shared.lastInfo = some (File.stat ⟨1, 0, text₀⟩)
  texts : ∀ p ∈ s.shared.disk.history, p.2 = text₀ ∨ p.2 = text₁
  place : InPlace w s.shared.disk 0 ⟨1, 1, text₁⟩ t₁
  polled : s.thread 0 = .polled (File.stat ⟨1, 1, text₁⟩)
  poll : PollRun w 0 s s'
  idle : s'.thread 0 = .idle

/-- There is such a poll for any two contents that parse. -/
theorem exists_reloading {w : Config Char T} {text₀ text₁ : Text} {t₀ t₁ : T}
    (h₀ : w.Parses text₀ t₀) (h₁ : w.Parses text₁ t₁) :
    ∃ s s', Reloading w text₀ text₁ t₀ t₁ s s' := by
  obtain ⟨sh, hloaded, hst, hmu, hdisk, hsnap, hlast⟩ := exists_started h₀
  -- the file is overwritten
  have hfresh : (MacPolicy.policyDisk text₀).Fresh (File.stat ⟨1, 1, text₁⟩) := by
    intro c hc
    rw [MacPolicy.policyDisk, List.mem_singleton] at hc
    have hmtime : (1 : ℤ) = 0 := congrArg (fun p => p.1.modTime) hc
    exact absurd hmtime (by decide)
  let disk := (MacPolicy.policyDisk text₀).put 0 ⟨1, 1, text₁⟩ hfresh
  have hwritten : sh.disk.Step disk := by
    rw [hdisk]
    exact .write (f := ⟨1, 0, text₀⟩) _ 1 rfl hfresh
  have hchanged : (watching w).system.Reachable ⟨{ sh with disk }, fun _ => .idle⟩ :=
    hloaded.step (Threads.Step.env ⟨disk, hwritten, rfl⟩)
  -- thread 0 sees it
  have hplace : InPlace w disk 0 ⟨1, 1, text₁⟩ t₁ := ⟨rfl, rfl, h₁⟩
  have hpolled := Threads.reachable_of_run (i := 0) hchanged
    (.step (.callPoll hst) (.step (.pollStat hplace.path hplace.file) .refl))
  have hne : sh.lastInfo ≠ some (File.stat ⟨1, 1, text₁⟩) := by
    rw [hlast]
    intro h
    have hmtime : (0 : ℤ) = 1 := congrArg FileInfo.modTime (Option.some.inj h)
    exact absurd hmtime (by decide)
  have hmu' : ({ sh with disk } : Shared Char T).mu = none := hmu
  obtain ⟨sh', hpoll⟩ := pollRun_reload (i := 0) (fun _ => .idle) hmu' hplace hne
  refine ⟨_, _, hpolled, hst, h₀, hsnap, hlast, ?_, hplace, rfl, hpoll, rfl⟩
  rintro p hp
  rcases List.mem_cons.mp hp with rfl | hp
  · exact .inr rfl
  · rw [List.mem_singleton.mp hp]
    exact .inl rfl

/-- The policy file `* @default` is overwritten with `* @blackhole`. -/
theorem poll_converges_policy :
    ∃ s s' : Threads.State (Shared Char MacPolicy.Table) (Pc Char MacPolicy.Table), ∃ t,
      (watching (MacPolicy.watchConfig GoLib.literal "/policy")).system.Reachable s
        ∧ InPlace (MacPolicy.watchConfig GoLib.literal "/policy") s.shared.disk 0
          ⟨1, 1, "* @blackhole\n".toList⟩ t
        ∧ s.shared.lastInfo = some ⟨1, 11, 0⟩
        ∧ PollRun (MacPolicy.watchConfig GoLib.literal "/policy") 0 s s'
        ∧ s'.thread 0 = .idle ∧ s'.shared.snapshot = some t := by
  obtain ⟨t₀, hdefault⟩ := run_default
  obtain ⟨t, warnings, hblackhole⟩ : ∃ t warnings,
      (MacPolicy.watchConfig GoLib.literal "/policy").parse.run "* @blackhole\n".toList
        = .ok (some t, warnings) := ⟨_, _, MacPolicy.run_watchConfig "/policy" rfl⟩
  obtain ⟨s, s', h⟩ := exists_reloading hdefault ⟨warnings, hblackhole⟩
  exact ⟨s, s', _, h.reachable, h.place, h.lastInfo, h.poll, h.idle,
    poll_converges _ h.reachable h.place h.polled h.poll h.idle .refl⟩

end FileWatch
