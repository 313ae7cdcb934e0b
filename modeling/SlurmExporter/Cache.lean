import SlurmExporter.Fetcher
import SlurmExporter.GoTime

/-!
# The GPU metrics cache

`GpuJsonFetcher.FetchMetrics` and `GpuCliFallbackFetcher.FetchMetrics` share one body. With the
`gpuCache` mutex held for the whole call, a cache younger than `limit` answers; otherwise
`fetch` runs, its error is returned and leaves the cache as it was, and its result is stored
with the time `fetch` completed. The calls on one cache are therefore the steps of one state
machine, taken in the order the callers acquire the lock.

A call is modelled by the clock readings it takes and by what `fetch` returns if the call runs
it; a run is a list of calls, and a clock that never goes back orders all its readings.

1. `GpuCache.step`: a fresh cache answers unchanged, a failed fetch leaves it unchanged, a
   successful one is stored with its completion time;
2. `Reach.run`: what every step preserves holds after every run;
3. `fetchMetrics_law`: after every call the cache holds the snapshot of the last successful
   fetch and its completion time, and a call returns either its own fetch's result or that
   snapshot, less than `limit` seconds old;
4. `fetchMetrics_no_refetch`: after a fetch that succeeded and completed at `T`, a call whose
   `time.Since(T).Seconds()` is below `limit` returns that snapshot, whatever `fetch` would
   return, and leaves the cache as it is. A call less than `limit` seconds after `T` may still
   fetch (`fetchMetrics_refetch_within_limit`): `Seconds` rounds;
5. `fetchMetrics_always_fetch`: under a limit that is not positive, or NaN, every call runs
   `fetch`;
6. `fetchMetrics_retry`: a failed fetch leaves the cache as it was, so the next call runs
   `fetch` again.
-/

namespace SlurmExporter

set_option maxRecDepth 20000

/-- `gpuCache`, without its mutex. -/
structure GpuCache where
  t : Time
  limit : F64
  cache : Option GpuMetrics
  duration : ℤ
  deriving DecidableEq

/-- The cache `NewGpuCollector` builds: only `limit` is set. -/
def GpuCache.new (limit : F64) : GpuCache := ⟨Time.zero, limit, none, 0⟩

/-- The four `time.Now()` readings of one `FetchMetrics` call, in the order the code makes them. -/
structure Clock where
  check : Time
  start : Time
  done : Time
  stamp : Time
  deriving DecidableEq

/-- The freshness check: `cache.cache != nil && time.Since(cache.t).Seconds() < cache.limit`. -/
def GpuCache.Fresh (c : GpuCache) (now : Time) : Prop :=
  c.cache.isSome ∧ Duration.seconds (since now c.t) < c.limit

instance (c : GpuCache) (now : Time) : Decidable (c.Fresh now) :=
  inferInstanceAs (Decidable (_ ∧ _))

/-- The rest of `FetchMetrics` after a stale check: `fetch` runs, its error is returned, and its
result is stored with `duration`, `cache` and `t`. -/
def GpuCache.refresh (c : GpuCache) (clock : Clock) (fetched : Counted GpuMetrics) :
    Counted GpuMetrics × GpuCache :=
  match fetched.1 with
  | .error e => ((.error e, fetched.2), c)
  | .ok m => ((.ok m, fetched.2),
      { c with duration := since clock.done clock.start, cache := some m, t := clock.stamp })

/-- `FetchMetrics` on cache `c`, `fetch` returning `fetched` if it runs: the result with what the
call adds to `errorCounter`, and the cache after the call. -/
def GpuCache.fetchMetrics (c : GpuCache) (clock : Clock) (fetched : Counted GpuMetrics) :
    Counted GpuMetrics × GpuCache :=
  match c.cache with
  | some m =>
    if Duration.seconds (since clock.check c.t) < c.limit then ((.ok m, 0), c)
    else c.refresh clock fetched
  | none => c.refresh clock fetched

/-- `GpuJsonFetcher.FetchMetrics`: the scrapers' outputs are read only by a stale call. -/
def GpuJsonFetcher.fetchMetrics (unmarshalSinfo : List Char → Except (List Char) SinfoGpuResponse)
    (unmarshalSacct : List Char → Except (List Char) SacctGpuResponse) (c : GpuCache)
    (clock : Clock) (sinfo sacct : RawBytes) : Counted GpuMetrics × GpuCache :=
  c.fetchMetrics clock (GpuJsonFetcher.fetch unmarshalSinfo unmarshalSacct sinfo sacct)

/-- `GpuCliFallbackFetcher.FetchMetrics`. -/
def GpuCliFallbackFetcher.fetchMetrics (c : GpuCache) (clock : Clock) (sinfo sacct : RawBytes) :
    Counted GpuMetrics × GpuCache :=
  c.fetchMetrics clock (GpuCliFallbackFetcher.fetch sinfo sacct)

/-! ## Runs -/

/-- One call of a run: its clock readings, and what `fetch` returns if the call runs it. -/
structure Call where
  clock : Clock
  outcome : Counted GpuMetrics
  deriving DecidableEq

/-- A call whose four readings fall in nanosecond `n`. -/
def Call.at (n : ℕ) (outcome : Counted GpuMetrics) : Call :=
  ⟨⟨Time.ofNat n, Time.ofNat n, Time.ofNat n, Time.ofNat n⟩, outcome⟩

/-- What a run records of a call: the call, whether it found the cache stale, its result. -/
structure Event where
  call : Call
  fetched : Bool
  result : Counted GpuMetrics
  deriving DecidableEq

def GpuCache.step (c : GpuCache) (k : Call) : Event × GpuCache :=
  (⟨k, !decide (c.Fresh k.clock.check), (c.fetchMetrics k.clock k.outcome).1⟩,
    (c.fetchMetrics k.clock k.outcome).2)

/-- The calls of a run from cache `c`, in lock order: their events, and the last cache. -/
def GpuCache.run (c : GpuCache) : List Call → List Event × GpuCache
  | [] => ([], c)
  | k :: ks => ((c.step k).1 :: ((c.step k).2.run ks).1, ((c.step k).2.run ks).2)

/-- The snapshot `fetch` returned to the last stale call whose `fetch` succeeded, and its stamp. -/
def lastSuccess (es : List Event) : Option (GpuMetrics × Time) :=
  es.foldl (fun last e =>
    if e.fetched then
      match e.call.outcome.1 with
      | .ok m => some (m, e.call.clock.stamp)
      | .error _ => last
    else last) none

def Clock.Ordered (k : Clock) : Prop :=
  k.check.mono ≤ k.start.mono ∧ k.start.mono ≤ k.done.mono ∧ k.done.mono ≤ k.stamp.mono

/-- A clock that never goes back: each call reads after the last reading before it. -/
def ClockFrom : ℤ → List Call → Prop
  | _, [] => True
  | now, k :: ks => now ≤ k.clock.check.mono ∧ k.clock.Ordered ∧ ClockFrom k.clock.stamp.mono ks

instance decClockFrom : (now : ℤ) → (ks : List Call) → Decidable (ClockFrom now ks)
  | _, [] => isTrue trivial
  | _, k :: ks =>
    have := decClockFrom k.clock.stamp.mono ks
    inferInstanceAs (Decidable (_ ∧ (_ ∧ _ ∧ _) ∧ _))

def lastStamp : ℤ → List Call → ℤ
  | now, [] => now
  | _, k :: ks => lastStamp k.clock.stamp.mono ks

/-- The cache holds the last successful fetch of the run, with its completion time. -/
def CacheMatches (es : List Event) (c : GpuCache) : Prop :=
  c.cache = (lastSuccess es).map Prod.fst ∧ ∀ p ∈ lastSuccess es, c.t = p.2

section Step

theorem Clock.Ordered.check_le_stamp {k : Clock} (h : k.Ordered) :
    k.check.mono ≤ k.stamp.mono :=
  h.1.trans (h.2.1.trans h.2.2)

variable {c : GpuCache} {clock : Clock} {f : Counted GpuMetrics}

theorem fetchMetrics_of_fresh {m : GpuMetrics} (hm : c.cache = some m) (h : c.Fresh clock.check) :
    c.fetchMetrics clock f = ((.ok m, 0), c) := by
  simp only [GpuCache.fetchMetrics, hm, if_pos h.2]

theorem fetchMetrics_of_stale (h : ¬ c.Fresh clock.check) :
    c.fetchMetrics clock f = c.refresh clock f := by
  unfold GpuCache.fetchMetrics
  cases hc : c.cache with
  | none => rfl
  | some m => exact if_neg fun hlt => h ⟨by simp [hc], hlt⟩

theorem step_of_fresh {m : GpuMetrics} (hm : c.cache = some m) {k : Call}
    (h : c.Fresh k.clock.check) : c.step k = (⟨k, false, (.ok m, 0)⟩, c) := by
  simp only [GpuCache.step, fetchMetrics_of_fresh hm h, h, decide_True, Bool.not_true]

theorem step_of_stale {k : Call} (h : ¬ c.Fresh k.clock.check) :
    c.step k = (⟨k, true, (c.refresh k.clock k.outcome).1⟩, (c.refresh k.clock k.outcome).2) := by
  simp only [GpuCache.step, fetchMetrics_of_stale h, h, decide_False, Bool.not_false]

theorem step_of_stale_error {k : Call} (h : ¬ c.Fresh k.clock.check) {e : FetchErr}
    (he : k.outcome.1 = .error e) : (c.step k).2 = c := by
  rw [step_of_stale h]; simp only [GpuCache.refresh, he]

theorem step_cases (c : GpuCache) (k : Call) :
    (∃ m, c.cache = some m ∧ c.Fresh k.clock.check ∧ c.step k = (⟨k, false, (.ok m, 0)⟩, c)) ∨
    (∃ e, ¬ c.Fresh k.clock.check ∧ k.outcome.1 = .error e ∧
      c.step k = (⟨k, true, (.error e, k.outcome.2)⟩, c)) ∨
    (∃ m, ¬ c.Fresh k.clock.check ∧ k.outcome.1 = .ok m ∧
      c.step k = (⟨k, true, (.ok m, k.outcome.2)⟩, { c with
        duration := since k.clock.done k.clock.start, cache := some m, t := k.clock.stamp })) := by
  by_cases hf : c.Fresh k.clock.check
  · obtain ⟨m, hm⟩ := Option.isSome_iff_exists.mp hf.1
    exact .inl ⟨m, hm, hf, step_of_fresh hm hf⟩
  · rw [step_of_stale hf]
    cases ho : k.outcome.1 with
    | error e => exact .inr (.inl ⟨e, hf, rfl, by simp only [GpuCache.refresh, ho]⟩)
    | ok m => exact .inr (.inr ⟨m, hf, rfl, by simp only [GpuCache.refresh, ho]⟩)

theorem step_limit (k : Call) : (c.step k).2.limit = c.limit := by
  rcases step_cases c k with ⟨m, -, -, hs⟩ | ⟨e, -, -, hs⟩ | ⟨m, -, -, hs⟩ <;> rw [hs]

theorem lastSuccess_append_unfetched (es : List Event) (k : Call) (r : Counted GpuMetrics) :
    lastSuccess (es ++ [⟨k, false, r⟩]) = lastSuccess es := by
  rw [lastSuccess, List.foldl_append]; rfl

theorem lastSuccess_append_error (es : List Event) {k : Call} {e : FetchErr}
    (he : k.outcome.1 = .error e) (r : Counted GpuMetrics) :
    lastSuccess (es ++ [⟨k, true, r⟩]) = lastSuccess es := by
  simp only [lastSuccess, List.foldl_append, List.foldl_cons, List.foldl_nil, if_true, he]

theorem lastSuccess_append_ok (es : List Event) {k : Call} {m : GpuMetrics}
    (hm : k.outcome.1 = .ok m) (r : Counted GpuMetrics) :
    lastSuccess (es ++ [⟨k, true, r⟩]) = some (m, k.clock.stamp) := by
  simp only [lastSuccess, List.foldl_append, List.foldl_cons, List.foldl_nil, if_true, hm]

/-- One call keeps the cache matching the run, from a cache stamped no later than `now`. -/
theorem CacheMatches.step {es : List Event} {now : ℤ} (h : CacheMatches es c)
    (ht : c.cache.isSome → c.t.mono ≤ now) (k : Call) (hk : now ≤ k.clock.check.mono)
    (ho : k.clock.Ordered) :
    CacheMatches (es ++ [(c.step k).1]) (c.step k).2 ∧
      ((c.step k).2.cache.isSome → (c.step k).2.t.mono ≤ k.clock.stamp.mono) := by
  have hstamp : c.cache.isSome → c.t.mono ≤ k.clock.stamp.mono := fun hs =>
    (ht hs).trans (hk.trans ho.check_le_stamp)
  rcases step_cases c k with ⟨m, -, -, hs⟩ | ⟨e, -, he, hs⟩ | ⟨m, -, hm, hs⟩ <;> rw [hs] <;>
    dsimp only
  · rw [CacheMatches, lastSuccess_append_unfetched]; exact ⟨h, hstamp⟩
  · rw [CacheMatches, lastSuccess_append_error _ he]; exact ⟨h, hstamp⟩
  · rw [CacheMatches, lastSuccess_append_ok _ hm]
    exact ⟨⟨rfl, fun p hp => by cases hp; rfl⟩, fun _ => le_rfl⟩

end Step

/-! ## What every step preserves holds after every run -/

section Run

theorem run_append (c : GpuCache) (ks ks' : List Call) :
    c.run (ks ++ ks') = ((c.run ks).1 ++ ((c.run ks).2.run ks').1, ((c.run ks).2.run ks').2) := by
  induction ks generalizing c with
  | nil => rfl
  | cons k ks ih => rw [List.cons_append]; simp only [GpuCache.run, ih, List.cons_append]

theorem clockFrom_append (now : ℤ) (ks ks' : List Call) :
    ClockFrom now (ks ++ ks') ↔ ClockFrom now ks ∧ ClockFrom (lastStamp now ks) ks' := by
  induction ks generalizing now with
  | nil => simp [ClockFrom, lastStamp]
  | cons k ks ih => rw [List.cons_append]; simp only [ClockFrom, lastStamp, ih, and_assoc]

theorem lastStamp_append (now : ℤ) (ks ks' : List Call) :
    lastStamp now (ks ++ ks') = lastStamp (lastStamp now ks) ks' := by
  induction ks generalizing now with
  | nil => rfl
  | cons k ks ih => exact ih _

theorem le_lastStamp : ∀ {now : ℤ} {ks : List Call}, ClockFrom now ks → now ≤ lastStamp now ks
  | _, [], _ => le_rfl
  | _, _ :: _, ⟨hk, ho, hks⟩ => (hk.trans ho.check_le_stamp).trans (le_lastStamp hks)

theorem ClockFrom.check_mem : ∀ {now : ℤ} {ks : List Call}, ClockFrom now ks → ∀ j ∈ ks,
    now ≤ j.clock.check.mono ∧ j.clock.check.mono ≤ lastStamp now ks
  | _, [], _, _, hj => absurd hj (List.not_mem_nil _)
  | _, k :: ks, ⟨hk, ho, hks⟩, j, hj => by
    rcases List.mem_cons.mp hj with rfl | hj
    · exact ⟨hk, ho.check_le_stamp.trans (le_lastStamp hks)⟩
    · have := ClockFrom.check_mem hks j hj
      exact ⟨hk.trans (ho.check_le_stamp.trans this.1), this.2⟩

/-- The run lemma: what every call preserves under a clock that never goes back holds after
every run. -/
theorem Reach.run (P : ℤ → List Event → GpuCache → Prop)
    (hstep : ∀ now es c k, P now es c → now ≤ k.clock.check.mono → k.clock.Ordered →
      P k.clock.stamp.mono (es ++ [(c.step k).1]) (c.step k).2) :
    ∀ (ks : List Call) (now : ℤ) (es : List Event) (c : GpuCache), P now es c →
      ClockFrom now ks → P (lastStamp now ks) (es ++ (c.run ks).1) (c.run ks).2
  | [], _, es, _, h, _ => by simpa [GpuCache.run, lastStamp] using h
  | k :: ks, now, es, c, h, ⟨hk, ho, hks⟩ => by
    have := Reach.run P hstep ks _ _ _ (hstep now es c k h hk ho) hks
    simpa [GpuCache.run, lastStamp] using this

theorem run_limit (limit : F64) (ks : List Call) :
    ((GpuCache.new limit).run ks).2.limit = limit := by
  suffices ∀ c : GpuCache, (c.run ks).2.limit = c.limit from this _
  induction ks with
  | nil => exact fun _ => rfl
  | cons k ks ih => exact fun c => (ih _).trans (step_limit k)

/-- A run from a new cache matches its events, with a stamp no later than its last reading. -/
theorem cacheMatches_run (limit : F64) {ks : List Call} (hclock : ClockFrom 0 ks) :
    CacheMatches ((GpuCache.new limit).run ks).1 ((GpuCache.new limit).run ks).2 ∧
      (((GpuCache.new limit).run ks).2.cache.isSome →
        ((GpuCache.new limit).run ks).2.t.mono ≤ lastStamp 0 ks) := by
  have := Reach.run (fun now es c => CacheMatches es c ∧ (c.cache.isSome → c.t.mono ≤ now))
    (fun _ _ _ k h hk ho => h.1.step h.2 k hk ho) ks 0 [] (GpuCache.new limit)
    ⟨⟨rfl, fun _ h => by cases h⟩, fun h => by simp [GpuCache.new] at h⟩ hclock
  simpa using this

/-- A cache fresh at every check of a run answers all of its calls and stays as it is. -/
theorem run_of_fresh (c : GpuCache) :
    ∀ ks : List Call, (∀ k ∈ ks, c.Fresh k.clock.check) → (c.run ks).2 = c
  | [], _ => rfl
  | k :: ks, h => by
    have hk := h k (List.mem_cons_self _ _)
    obtain ⟨m, hm⟩ := Option.isSome_iff_exists.mp hk.1
    simp only [GpuCache.run, step_of_fresh hm hk]
    exact run_of_fresh c ks fun j hj => h j (List.mem_cons_of_mem _ hj)

theorem run_of_stale_errors (c : GpuCache) : ∀ (ks : List Call) (now : ℤ),
    (∀ τ : Time, now ≤ τ.mono → ¬ c.Fresh τ) → ClockFrom now ks →
    (∀ k ∈ ks, ∃ e, k.outcome.1 = .error e) → (c.run ks).2 = c
  | [], _, _, _, _ => rfl
  | k :: ks, _, hst, ⟨hk, ho, hks⟩, herr => by
    obtain ⟨e, he⟩ := herr k (List.mem_cons_self _ _)
    simp only [GpuCache.run, step_of_stale_error (hst _ hk) he]
    exact run_of_stale_errors c ks k.clock.stamp.mono
      (fun τ hτ => hst τ (hk.trans (ho.check_le_stamp.trans hτ))) hks
      fun j hj => herr j (List.mem_cons_of_mem _ hj)

end Run

/-! ## The cache law -/

/-- What call `k` after run `ks` observes: the cache matches, errors keep it, snapshots are fresh. -/
def CacheLaw (limit : F64) (ks : List Call) (k : Call) : Prop :=
  let before := (GpuCache.new limit).run ks
  let after := before.2.step k
  CacheMatches (before.1 ++ [after.1]) after.2 ∧
    (∀ e, after.1.result.1 = .error e → after.2 = before.2) ∧
    ∀ m, after.1.result.1 = .ok m →
      (after.1.fetched = true ∧ k.outcome.1 = .ok m) ∨
      (after.1.fetched = false ∧ ∃ T, lastSuccess before.1 = some (m, T) ∧
        T.mono ≤ k.clock.check.mono ∧ AgeBelow (k.clock.check.mono - T.mono) limit)

/-- Every call of every run on a new cache, under a clock that never goes back, obeys
`CacheLaw`. -/
theorem fetchMetrics_law (limit : F64) (ks : List Call) (k : Call)
    (hclock : ClockFrom 0 (ks ++ [k])) : CacheLaw limit ks k := by
  obtain ⟨hks, hk, ho, -⟩ := (clockFrom_append 0 ks [k]).mp hclock
  obtain ⟨hm, ht⟩ := cacheMatches_run limit hks
  have hlim := run_limit limit ks
  simp only [CacheLaw]
  generalize (GpuCache.new limit).run ks = before at hm ht hlim ⊢
  obtain ⟨es, c⟩ := before
  refine ⟨(hm.step ht k hk ho).1, ?_⟩
  rcases step_cases c k with ⟨m, hmc, hf, hs⟩ | ⟨e, -, -, hs⟩ | ⟨m, -, ho', hs⟩ <;> rw [hs] <;>
    dsimp only
  · refine ⟨fun e he => (by cases he), fun m' hm' => .inr ⟨rfl, ?_⟩⟩
    cases hm'
    obtain ⟨p, hp, hpm⟩ := Option.map_eq_some'.mp (hm.1.symm.trans hmc)
    have hT := hm.2 p hp
    have hle : c.t.mono ≤ k.clock.check.mono := (ht hf.1).trans hk
    have hage := ageBelow_since hle hf.2
    rw [hlim] at hage
    exact ⟨p.2, by rw [hp, ← hpm], hT ▸ hle, hT ▸ hage⟩
  · exact ⟨fun _ _ => rfl, fun m hm' => by cases hm'⟩
  · exact ⟨fun e he => (by cases he), fun m' hm' => by cases hm'; exact .inl ⟨rfl, ho'⟩⟩

theorem fetchMetrics_law_one_second :
    ClockFrom 0
      ([Call.at 1 (.ok ⟨0, 0, 0, 0⟩, 0)] ++ [Call.at 1000000001 (.error (.scrape []), 0)]) ∧
    CacheLaw 10 [Call.at 1 (.ok ⟨0, 0, 0, 0⟩, 0)] (Call.at 1000000001 (.error (.scrape []), 0)) :=
  ⟨by decide, fetchMetrics_law 10 _ _ (by decide)⟩

/-! ## No refetch below the limit -/

/-- Limit `0.1`: a call `100ms` after a fetch completed gets its own `fetch`'s snapshot, since
its `Seconds` is the `float64` `0.1` itself. -/
theorem fetchMetrics_refetch_within_limit :
    ClockFrom 0 [Call.at 1 (.ok ⟨0, 0, 0, 0⟩, 0), Call.at 100000001 (.ok ⟨1, 1, 1, 1⟩, 0)] ∧
    ((GpuCache.new 0.1).run [Call.at 1 (.ok ⟨0, 0, 0, 0⟩, 0),
      Call.at 100000001 (.ok ⟨1, 1, 1, 1⟩, 0)]).1.map Event.result =
        [(.ok ⟨0, 0, 0, 0⟩, 0), (.ok ⟨1, 1, 1, 1⟩, 0)] ∧
    AgeBelow (100000001 - 1) 0.1 := by
  decide

/-- A call within `limit` of a successful fetch returns its snapshot and keeps the cache. -/
theorem fetchMetrics_no_refetch (limit : F64) (ks ks' : List Call) (k k' : Call)
    (hclock : ClockFrom 0 (ks ++ k :: ks' ++ [k']))
    (hk : ¬ ((GpuCache.new limit).run ks).2.Fresh k.clock.check) {m : GpuMetrics}
    (hok : k.outcome.1 = .ok m)
    (hfresh : Duration.seconds (since k'.clock.check k.clock.stamp) < limit)
    (o : Counted GpuMetrics) :
    ((GpuCache.new limit).run (ks ++ k :: ks')).2.fetchMetrics k'.clock o =
      ((.ok m, 0), ((GpuCache.new limit).run (ks ++ k :: ks')).2) := by
  rw [List.append_assoc, List.cons_append, clockFrom_append] at hclock
  obtain ⟨-, -, -, hrest⟩ := hclock
  obtain ⟨hks', hk', -, -⟩ := (clockFrom_append _ ks' [k']).mp hrest
  have hlim := run_limit limit ks
  rw [run_append]
  simp only [GpuCache.run]
  set c := ((GpuCache.new limit).run ks).2
  have hc : (c.step k).2 =
      { c with duration := since k.clock.done k.clock.start, cache := some m,
               t := k.clock.stamp } := by
    rw [step_of_stale hk]; simp only [GpuCache.refresh, hok]
  have hfilled : ∀ τ : Time, k.clock.stamp.mono ≤ τ.mono → τ.mono ≤ k'.clock.check.mono →
      (c.step k).2.Fresh τ := fun τ h1 h2 => by
    rw [hc]; exact ⟨rfl, hlim ▸ seconds_since_lt_of_now_le h1 h2 hfresh⟩
  rw [run_of_fresh _ ks' fun j hj =>
    hfilled _ (hks'.check_mem j hj).1 ((hks'.check_mem j hj).2.trans hk')]
  exact fetchMetrics_of_fresh (by rw [hc]) (hfilled _ ((le_lastStamp hks').trans hk') le_rfl)

theorem fetchMetrics_no_refetch_half_second :
    ClockFrom 0 ([] ++ Call.at 1 (.ok ⟨0, 0, 0, 0⟩, 0) :: [] ++
      [Call.at 500000001 (.error (.scrape []), 0)]) ∧
    ¬ ((GpuCache.new 10).run []).2.Fresh (Call.at 1 (.ok ⟨0, 0, 0, 0⟩, 0)).clock.check ∧
    Duration.seconds (since (Time.ofNat 500000001) (Time.ofNat 1)) < 10 ∧
    ((GpuCache.new 10).run [Call.at 1 (.ok ⟨0, 0, 0, 0⟩, 0)]).2.fetchMetrics
        (Call.at 500000001 (.error (.scrape []), 0)).clock (.error (.scrape []), 0) =
      ((.ok ⟨0, 0, 0, 0⟩, 0), ((GpuCache.new 10).run [Call.at 1 (.ok ⟨0, 0, 0, 0⟩, 0)]).2) :=
  ⟨by decide, by decide, by decide,
    fetchMetrics_no_refetch 10 [] [] _ _ (by decide) (by decide) rfl (by decide) _⟩

/-! ## A limit that is not positive -/

/-- Under a poll limit `≤ 0` or NaN, every call of every run on a new cache acts as a stale
call: it runs `fetch`. -/
theorem fetchMetrics_always_fetch (limit : F64) (hlim : ¬ 0 < limit) (ks : List Call) (k : Call)
    (hclock : ClockFrom 0 (ks ++ [k])) (o : Counted GpuMetrics) :
    ((GpuCache.new limit).run ks).2.fetchMetrics k.clock o =
      ((GpuCache.new limit).run ks).2.refresh k.clock o := by
  obtain ⟨hks, hk, -, -⟩ := (clockFrom_append 0 ks [k]).mp hclock
  refine fetchMetrics_of_stale fun hf => ?_
  have ht := (cacheMatches_run limit hks).2 hf.1
  exact not_seconds_since_lt (ht.trans hk) (by rwa [run_limit]) hf.2

theorem fetchMetrics_always_fetch_zero :
    ¬ (0 : F64) < 0 ∧
    ClockFrom 0 ([Call.at 1 (.ok ⟨0, 0, 0, 0⟩, 0)] ++ [Call.at 2 (.error (.scrape []), 0)]) ∧
    ((GpuCache.new 0).run [Call.at 1 (.ok ⟨0, 0, 0, 0⟩, 0)]).2.fetchMetrics
        (Call.at 2 (.error (.scrape []), 0)).clock (.error (.scrape []), 0) =
      ((GpuCache.new 0).run [Call.at 1 (.ok ⟨0, 0, 0, 0⟩, 0)]).2.refresh
        (Call.at 2 (.error (.scrape []), 0)).clock (.error (.scrape []), 0) := by
  have h0 : ¬ (0 : F64) < 0 := by decide
  exact ⟨h0, by decide, fetchMetrics_always_fetch 0 h0 _ _ (by decide) _⟩

/-! ## Errors are not cached -/

/-- After a failed fetch the cache is unchanged, and the next call fetches again. -/
theorem fetchMetrics_retry (limit : F64) (ks ks' : List Call) (k k' : Call)
    (hclock : ClockFrom 0 (ks ++ k :: ks' ++ [k']))
    (hk : ¬ ((GpuCache.new limit).run ks).2.Fresh k.clock.check) {e : FetchErr}
    (herr : k.outcome.1 = .error e) (hfail : ∀ j ∈ ks', ∃ e, j.outcome.1 = .error e) :
    ((GpuCache.new limit).run (ks ++ k :: ks')).2 = ((GpuCache.new limit).run ks).2 ∧
      ∀ o, ((GpuCache.new limit).run ks).2.fetchMetrics k'.clock o =
        ((GpuCache.new limit).run ks).2.refresh k'.clock o := by
  rw [List.append_assoc, List.cons_append, clockFrom_append] at hclock
  obtain ⟨hks, hk0, hko, hrest⟩ := hclock
  obtain ⟨hks', hk', -, -⟩ := (clockFrom_append _ ks' [k']).mp hrest
  have ht := (cacheMatches_run limit hks).2
  rw [run_append]
  simp only [GpuCache.run]
  set c := ((GpuCache.new limit).run ks).2
  have hlater : ∀ τ : Time, k.clock.stamp.mono ≤ τ.mono → ¬ c.Fresh τ := fun τ hτ hf =>
    hk ⟨hf.1, seconds_since_lt_of_now_le ((ht hf.1).trans hk0)
      (hko.check_le_stamp.trans hτ) hf.2⟩
  rw [step_of_stale_error hk herr, run_of_stale_errors c ks' _ hlater hks' hfail]
  exact ⟨rfl, fun _ => fetchMetrics_of_stale (hlater _ ((le_lastStamp hks').trans hk'))⟩

theorem fetchMetrics_retry_next_call :
    ClockFrom 0 ([] ++ Call.at 1 (.error (.scrape []), 0) :: [] ++
      [Call.at 2 (.ok ⟨0, 0, 0, 0⟩, 0)]) ∧
    ¬ ((GpuCache.new 10).run []).2.Fresh (Call.at 1 (.error (.scrape []), 0)).clock.check ∧
    ((GpuCache.new 10).run [Call.at 1 (.error (.scrape []), 0)]).2 =
      ((GpuCache.new 10).run []).2 ∧
    ∀ o, ((GpuCache.new 10).run []).2.fetchMetrics (Call.at 2 (.ok ⟨0, 0, 0, 0⟩, 0)).clock o =
      ((GpuCache.new 10).run []).2.refresh (Call.at 2 (.ok ⟨0, 0, 0, 0⟩, 0)).clock o :=
  ⟨by decide, by decide,
    fetchMetrics_retry 10 [] [] _ _ (by decide) (by decide) rfl fun _ h => by cases h⟩

end SlurmExporter
