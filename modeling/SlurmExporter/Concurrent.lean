import SlurmExporter.Cache

/-!
# Callers of `FetchMetrics` interleaved under the cache mutex

`FetchMetrics` locks the `gpuCache` mutex first and unlocks it when it returns
(`defer gmf.cache.Unlock()`); every read and write of the cache lies in between. Here any number
of callers run interleaved, each through the steps of `FetchMetrics`, with one monotonic clock
that may advance between any two steps, and `fetch` returning, for each caller, whatever it
returns. Between the lock and the return, a caller reads the clock up to four times and writes
`duration`, `cache` and `t` one after the other.

1. `Sys.exec`: one step of one caller, or of the clock; `Sys.execs` runs a schedule of them;
2. `Inv.exec`: every step keeps `Inv`, which relates the shared state to the atomic run of
   `Cache` on the calls returned so far, in the order they released the lock, and the lock
   holder's progress to its pending call;
3. `execs_refines`: after every schedule the events the callers returned, in lock order, are
   the events of the atomic run of their calls, their clock never goes back, and once the lock
   is free the cache is that run's cache. Every result about runs of `Cache` therefore holds
   of every interleaving, with the clock hypothesis discharged;
4. `execs_cacheMatches`: so whenever the lock is free the cache holds the snapshot of the last
   successful fetch, stamped with its completion time;
5. `execs_mutex`: at most one caller is inside `FetchMetrics` at a time;
6. `execs_returns`: the mutex never deadlocks: from every state of every interleaving, some
   schedule (the lock holder, then the caller) returns any caller that has not returned,
   within nine steps. A caller waiting for the lock is `idle`, like one not yet called, and no
   fairness is assumed: under other schedules other callers may take the lock first;
7. `execs_holder_returns`: under every schedule the lock holder has returned after four more of
   its own steps, since no other caller can step while it holds the lock.

The log of returned events is ghost state: it records the lock order the proof needs.
-/

namespace SlurmExporter

set_option maxRecDepth 20000

open Function

/-- Where a caller of `FetchMetrics` is, from before `Lock` to after the deferred `Unlock`. -/
inductive Pc
  | idle
  | locked
  | stale (check : Time)
  | fetching (check start : Time)
  | storing (check start done : Time) (m : GpuMetrics)
  | returned (e : Event)
  deriving DecidableEq

/-- The caller is inside `FetchMetrics`, between `Lock` and the deferred `Unlock`. -/
def Pc.Inside : Pc → Prop
  | .idle => False
  | .returned _ => False
  | _ => True

instance : DecidablePred Pc.Inside := fun p =>
  match p with
  | .idle => isFalse id
  | .locked => isTrue trivial
  | .stale _ => isTrue trivial
  | .fetching _ _ => isTrue trivial
  | .storing _ _ _ _ => isTrue trivial
  | .returned _ => isFalse id

/-- The clock, the cache, the mutex's holder, the callers, and the returned events (ghost). -/
structure Sys where
  now : Time
  cache : GpuCache
  owner : Option ℕ
  pc : ℕ → Pc
  log : List Event

/-- A scheduler's choice: the clock advances to `t`, or caller `i` takes its next step. -/
inductive Action
  | tick (t : Time)
  | run (i : ℕ)
  deriving DecidableEq

def Sys.init (limit : F64) : Sys := ⟨Time.zero, GpuCache.new limit, none, fun _ => .idle, []⟩

def Sys.ret (s : Sys) (i : ℕ) (e : Event) : Sys :=
  { s with owner := none, pc := update s.pc i (.returned e), log := s.log ++ [e] }

section Exec

variable (outcome : ℕ → Counted GpuMetrics)

/-- One step of the clock, which never goes back, or of caller `i` through `FetchMetrics`. -/
def Sys.exec (s : Sys) : Action → Option Sys
  | .tick t => if s.now.mono ≤ t.mono then some { s with now := t } else none
  | .run i =>
    match s.pc i with
    | .idle =>
      if s.owner = none then some { s with owner := some i, pc := update s.pc i .locked }
      else none
    | .locked =>
      match s.cache.cache with
      | some m =>
        if Duration.seconds (since s.now s.cache.t) < s.cache.limit then
          some (s.ret i ⟨⟨⟨s.now, s.now, s.now, s.now⟩, outcome i⟩, false, (.ok m, 0)⟩)
        else some { s with pc := update s.pc i (.stale s.now) }
      | none => some { s with pc := update s.pc i (.stale s.now) }
    | .stale check => some { s with pc := update s.pc i (.fetching check s.now) }
    | .fetching check start =>
      match (outcome i).1 with
      | .error e =>
        some (s.ret i ⟨⟨⟨check, start, start, start⟩, outcome i⟩, true, (.error e, (outcome i).2)⟩)
      | .ok m =>
        some { s with
          cache := { s.cache with duration := since s.now start, cache := some m },
          pc := update s.pc i (.storing check start s.now m) }
    | .storing check start done m =>
      some ({ s with cache := { s.cache with t := s.now } }.ret i
        ⟨⟨⟨check, start, done, s.now⟩, outcome i⟩, true, (.ok m, (outcome i).2)⟩)
    | .returned _ => none

def Sys.execs (s : Sys) : List Action → Option Sys
  | [] => some s
  | a :: as =>
    match s.exec outcome a with
    | some s' => s'.execs as
    | none => none

end Exec

/-! ## The invariant -/

section Inv

variable (limit : F64) (outcome : ℕ → Counted GpuMetrics)

def Sys.calls (s : Sys) : List Call := s.log.map Event.call

def Sys.atomic (s : Sys) : List Event × GpuCache := (GpuCache.new limit).run s.calls

/-- The lock holder's progress through its call, over the atomic run's cache `c`. -/
def Holding (pc : Pc) (cache c : GpuCache) (i : ℕ) (last now : ℤ) : Prop :=
  match pc with
  | .locked => cache = c ∧ last ≤ now
  | .stale check => cache = c ∧ last ≤ check.mono ∧ check.mono ≤ now ∧ ¬ c.Fresh check
  | .fetching check start =>
    cache = c ∧ last ≤ check.mono ∧ check.mono ≤ start.mono ∧ start.mono ≤ now ∧ ¬ c.Fresh check
  | .storing check start done m =>
    (outcome i).1 = .ok m ∧ cache = { c with duration := since done start, cache := some m } ∧
      last ≤ check.mono ∧ check.mono ≤ start.mono ∧ start.mono ≤ done.mono ∧ done.mono ≤ now ∧
      ¬ c.Fresh check
  | _ => False

/-- The log is the atomic run's, only the holder is inside, and the cache is the run's. -/
def Inv (s : Sys) : Prop :=
  s.log = (s.atomic limit).1 ∧ ClockFrom 0 s.calls ∧
    (∀ j, s.owner ≠ some j → ¬ (s.pc j).Inside) ∧
    match s.owner with
    | none => s.cache = (s.atomic limit).2 ∧ lastStamp 0 s.calls ≤ s.now.mono
    | some i =>
      Holding outcome (s.pc i) s.cache (s.atomic limit).2 i (lastStamp 0 s.calls) s.now.mono

end Inv

/-! ## Every step keeps the invariant -/

section Steps

variable {limit : F64} {outcome : ℕ → Counted GpuMetrics}

theorem Holding.mono {pc : Pc} {cache c : GpuCache} {i : ℕ} {last now now' : ℤ}
    (h : Holding outcome pc cache c i last now) (hle : now ≤ now') :
    Holding outcome pc cache c i last now' := by
  cases pc with
  | locked => exact ⟨h.1, h.2.trans hle⟩
  | stale check => exact ⟨h.1, h.2.1, h.2.2.1.trans hle, h.2.2.2⟩
  | fetching check start => exact ⟨h.1, h.2.1, h.2.2.1, h.2.2.2.1.trans hle, h.2.2.2.2⟩
  | storing check start done m =>
    exact ⟨h.1, h.2.1, h.2.2.1, h.2.2.2.1, h.2.2.2.2.1, h.2.2.2.2.2.1.trans hle, h.2.2.2.2.2.2⟩
  | idle => exact h.elim
  | returned e => exact h.elim

theorem Sys.calls_ret (s : Sys) (i : ℕ) (e : Event) :
    (s.ret i e).calls = s.calls ++ [e.call] := by
  simp only [Sys.calls, Sys.ret, List.map_append, List.map_singleton]

theorem Inv.ret {s : Sys} {i : ℕ} {k : Call} {c : GpuCache} (hlog : s.log = (s.atomic limit).1)
    (hclock : ClockFrom 0 s.calls)
    (hothers : ∀ j, j ≠ i → ¬ (s.pc j).Inside)
    (hk : lastStamp 0 s.calls ≤ k.clock.check.mono) (ho : k.clock.Ordered)
    (hnow : k.clock.stamp.mono ≤ s.now.mono) (hcache : c = ((s.atomic limit).2.step k).2) :
    Inv limit outcome ({ s with cache := c }.ret i ((s.atomic limit).2.step k).1) := by
  have hcalls : ({ s with cache := c }.ret i ((s.atomic limit).2.step k).1).calls =
      s.calls ++ [k] :=
    Sys.calls_ret _ _ _
  have hatomic : ({ s with cache := c }.ret i ((s.atomic limit).2.step k).1).atomic limit =
      ((s.atomic limit).1 ++ [((s.atomic limit).2.step k).1], ((s.atomic limit).2.step k).2) := by
    rw [Sys.atomic, hcalls, run_append]; rfl
  refine ⟨?_, ?_, fun j _ => ?_, ?_⟩
  · rw [hatomic]; exact congrArg (· ++ _) hlog
  · rw [hcalls, clockFrom_append]; exact ⟨hclock, hk, ho, trivial⟩
  · by_cases hj : j = i
    · subst hj; simp only [Sys.ret, update_same]; exact id
    · simp only [Sys.ret, update_noteq hj]; exact hothers j hj
  · refine ⟨by rw [hatomic]; exact hcache, ?_⟩
    rw [hcalls, lastStamp_append]; exact hnow

theorem Inv.holding {s : Sys} (h : Inv limit outcome s) {i : ℕ} {p : Pc} (hpc : s.pc i = p)
    (hin : p.Inside) :
    s.owner = some i ∧
      Holding outcome p s.cache (s.atomic limit).2 i (lastStamp 0 s.calls) s.now.mono := by
  have hi : s.owner = some i := by
    by_contra hne
    exact h.2.2.1 i hne (hpc ▸ hin)
  have hown := h.2.2.2
  simp only [hi, hpc] at hown
  exact ⟨hi, hown⟩

theorem Inv.others {s : Sys} (h : Inv limit outcome s) {i : ℕ} (hi : s.owner = some i) :
    ∀ j, j ≠ i → ¬ (s.pc j).Inside :=
  fun j hj => h.2.2.1 j (by rw [hi]; exact fun e => hj (Option.some.inj e).symm)

theorem Inv.move {s : Sys} (h : Inv limit outcome s) {i : ℕ} (hi : s.owner = some i) {p : Pc}
    {cache : GpuCache}
    (hp : Holding outcome p cache (s.atomic limit).2 i (lastStamp 0 s.calls) s.now.mono) :
    Inv limit outcome { s with cache := cache, pc := update s.pc i p } := by
  refine ⟨h.1, h.2.1, fun j hj => ?_, ?_⟩
  · dsimp only at hj ⊢
    rw [update_noteq fun e => hj (by rw [e]; exact hi)]; exact h.2.2.1 j hj
  · dsimp only
    rw [hi]; dsimp only
    rw [update_same]; exact hp

/-- The step lemma: every step of the clock or of a caller keeps the invariant. -/
theorem Inv.exec {s s' : Sys} (h : Inv limit outcome s) {a : Action}
    (hs : s.exec outcome a = some s') : Inv limit outcome s' := by
  obtain ⟨hlog, hclock, hothers, hown⟩ := id h
  cases a with
  | tick t =>
    simp only [Sys.exec] at hs
    split_ifs at hs with ht
    cases hs
    refine ⟨hlog, hclock, hothers, ?_⟩
    cases ho : s.owner with
    | none => rw [ho] at hown; exact ⟨hown.1, hown.2.trans ht⟩
    | some i => rw [ho] at hown; exact hown.mono ht
  | run i =>
    cases hpc : s.pc i with
    | idle =>
      simp only [Sys.exec, hpc] at hs
      split_ifs at hs with hfree
      cases hs
      rw [hfree] at hown
      refine ⟨hlog, hclock, fun j hj => ?_, ?_⟩
      · dsimp only at hj ⊢
        rw [update_noteq fun e => hj (by rw [e])]
        exact hothers j (by rw [hfree]; nofun)
      · dsimp only
        rw [update_same]; exact hown
    | locked =>
      obtain ⟨hi, hc, hlast⟩ := h.holding hpc trivial
      have hstale (hf : ¬ (s.atomic limit).2.Fresh s.now) :
          Inv limit outcome { s with pc := update s.pc i (.stale s.now) } :=
        h.move hi ⟨hc, hlast, le_rfl, hf⟩
      simp only [Sys.exec, hpc] at hs
      split at hs
      · rename_i m hm
        split_ifs at hs with hf
        · cases hs
          have hfresh : (s.atomic limit).2.Fresh s.now := by rw [← hc]; exact ⟨by simp [hm], hf⟩
          have hstep := step_of_fresh (by rw [← hc]; exact hm)
            (k := ⟨⟨s.now, s.now, s.now, s.now⟩, outcome i⟩) hfresh
          have : Inv limit outcome _ := Inv.ret (i := i) (c := s.cache) hlog hclock (h.others hi)
            hlast ⟨le_rfl, le_rfl, le_rfl⟩ le_rfl (by rw [hstep]; exact hc)
          rwa [hstep] at this
        · cases hs
          exact hstale fun hF => hf (by rw [hc]; exact hF.2)
      · rename_i hm
        cases hs
        exact hstale fun hF => by rw [← hc] at hF; simp [GpuCache.Fresh, hm] at hF
    | stale check =>
      obtain ⟨hi, hc, hlast, hcheck, hf⟩ := h.holding hpc trivial
      simp only [Sys.exec, hpc] at hs
      cases hs
      exact h.move hi ⟨hc, hlast, hcheck, le_rfl, hf⟩
    | fetching check start =>
      obtain ⟨hi, hc, hlast, hcheck, hstart, hf⟩ := h.holding hpc trivial
      simp only [Sys.exec, hpc] at hs
      split at hs
      · rename_i e he
        cases hs
        have hstep := step_of_stale (c := (s.atomic limit).2)
          (k := ⟨⟨check, start, start, start⟩, outcome i⟩) hf
        simp only [GpuCache.refresh, he] at hstep
        have : Inv limit outcome _ := Inv.ret (i := i) (c := s.cache) hlog hclock (h.others hi)
          hlast ⟨hcheck, le_rfl, le_rfl⟩ hstart (by rw [hstep]; exact hc)
        rwa [hstep] at this
      · rename_i m hm
        cases hs
        exact h.move hi ⟨hm, by rw [hc], hlast, hcheck, hstart, le_rfl, hf⟩
    | storing check start done m =>
      obtain ⟨hi, hm, hc, hlast, hcheck, hstart, hdone, hf⟩ := h.holding hpc trivial
      simp only [Sys.exec, hpc] at hs
      cases hs
      have hstep := step_of_stale (c := (s.atomic limit).2)
        (k := ⟨⟨check, start, done, s.now⟩, outcome i⟩) hf
      simp only [GpuCache.refresh, hm] at hstep
      have : Inv limit outcome _ := Inv.ret (i := i) (c := { s.cache with t := s.now }) hlog hclock
        (h.others hi) hlast ⟨hcheck, hstart, hdone⟩ le_rfl (by rw [hstep, hc])
      rwa [hstep] at this
    | returned e => simp only [Sys.exec, hpc] at hs; cases hs

theorem Inv.init : Inv limit outcome (Sys.init limit) :=
  ⟨rfl, trivial, fun _ _ => id, rfl, le_rfl⟩

/-- The run lemma: every schedule keeps the invariant. -/
theorem Inv.execs {s s' : Sys} (h : Inv limit outcome s) {as : List Action}
    (hs : s.execs outcome as = some s') : Inv limit outcome s' := by
  induction as generalizing s with
  | nil => cases hs; exact h
  | cons a as ih =>
    simp only [Sys.execs] at hs
    split at hs
    · exact ih (h.exec ‹_›) hs
    · cases hs

end Steps

/-! ## Every interleaving is an atomic run -/

/-- The returned events are the atomic run's, and the free cache is its cache. -/
def AtomicRun (limit : F64) (s : Sys) : Prop :=
  s.log = ((GpuCache.new limit).run (s.log.map Event.call)).1 ∧
    ClockFrom 0 (s.log.map Event.call) ∧
    (s.owner = none → s.cache = ((GpuCache.new limit).run (s.log.map Event.call)).2)

instance (limit : F64) (s : Sys) : Decidable (AtomicRun limit s) :=
  inferInstanceAs (Decidable (_ ∧ _ ∧ _))

/-- Every interleaving of any number of callers is an atomic run of their calls. -/
theorem execs_refines (limit : F64) (outcome : ℕ → Counted GpuMetrics) (as : List Action)
    {s : Sys} (h : (Sys.init limit).execs outcome as = some s) : AtomicRun limit s := by
  obtain ⟨hlog, hclock, -, hown⟩ := Inv.init.execs h
  refine ⟨hlog, hclock, fun hfree => ?_⟩
  rw [hfree] at hown
  exact hown.1

/-- Two callers: the first fetches and stores a snapshot, the second is answered from it. -/
theorem execs_refines_two_callers :
    ∃ s, (Sys.init 10).execs (fun _ => (.ok ⟨0, 0, 0, 0⟩, 0))
        [.run 0, .run 0, .run 0, .run 0, .run 0, .run 1, .run 1] = some s ∧
      s.log.map Event.fetched = [true, false] ∧ AtomicRun 10 s :=
  (fun h => ⟨_, h, by decide, execs_refines _ _ _ h⟩) rfl

/-- Whenever the lock is free, the cache holds the last successful fetch and its stamp. -/
theorem execs_cacheMatches (limit : F64) (outcome : ℕ → Counted GpuMetrics) (as : List Action)
    {s : Sys} (h : (Sys.init limit).execs outcome as = some s) (hfree : s.owner = none) :
    CacheMatches s.log s.cache := by
  obtain ⟨hlog, hclock, -, hown⟩ := Inv.init.execs h
  rw [hfree] at hown
  rw [show s.log = ((GpuCache.new limit).run s.calls).1 from hlog,
    show s.cache = ((GpuCache.new limit).run s.calls).2 from hown.1]
  exact (cacheMatches_run limit hclock).1

theorem execs_cacheMatches_two_callers :
    ∃ s, (Sys.init 10).execs (fun _ => (.ok ⟨0, 0, 0, 0⟩, 0))
        [.run 0, .run 0, .run 0, .run 0, .run 0, .run 1, .run 1] = some s ∧
      s.owner = none ∧ CacheMatches s.log s.cache :=
  (fun h => ⟨_, h, rfl, execs_cacheMatches _ _ _ h rfl⟩) rfl

/-- In every interleaving at most one caller is inside `FetchMetrics`. -/
theorem execs_mutex (limit : F64) (outcome : ℕ → Counted GpuMetrics) (as : List Action)
    {s : Sys} (h : (Sys.init limit).execs outcome as = some s) {i j : ℕ}
    (hi : (s.pc i).Inside) (hj : (s.pc j).Inside) : i = j := by
  have hinv := Inv.init.execs h
  exact Option.some.inj ((hinv.holding rfl hi).1.symm.trans (hinv.holding rfl hj).1)

/-- Caller `0` holds the lock after its first step, and caller `1` cannot take it. -/
theorem execs_mutex_locked :
    ∃ s, (Sys.init 10).execs (fun _ => (.ok ⟨0, 0, 0, 0⟩, 0)) [.run 0] = some s ∧
      (s.pc 0).Inside ∧ s.exec (fun _ => (.ok ⟨0, 0, 0, 0⟩, 0)) (.run 1) = none ∧
      ∀ j, (s.pc j).Inside → j = 0 :=
  (fun h => ⟨_, h, trivial, rfl, fun _ hj => execs_mutex _ _ _ h hj trivial⟩) rfl

/-! ## Every call returns -/

section Progress

variable {limit : F64} {outcome : ℕ → Counted GpuMetrics}

/-- The most steps the lock holder has left before it returns. -/
def Pc.left : Pc → ℕ
  | .locked => 3
  | .stale _ => 2
  | .fetching _ _ => 1
  | _ => 0

theorem Sys.execs_append (s : Sys) (as bs : List Action) :
    s.execs outcome (as ++ bs) = (s.execs outcome as).bind (·.execs outcome bs) := by
  induction as generalizing s with
  | nil => rfl
  | cons a as ih =>
    simp only [List.cons_append, Sys.execs]
    split
    · exact ih _
    · rfl

theorem Sys.exec_run_pc {s s' : Sys} {i j : ℕ} (hs : s.exec outcome (.run i) = some s')
    (hj : j ≠ i) : s'.pc j = s.pc j := by
  simp only [Sys.exec] at hs
  repeat' split at hs
  all_goals cases hs
  all_goals simp only [Sys.ret, update_noteq hj]

theorem Sys.execs_run_pc {s s' : Sys} {i j : ℕ} (hj : j ≠ i) :
    ∀ n, s.execs outcome (List.replicate n (.run i)) = some s' → s'.pc j = s.pc j := by
  intro n
  induction n generalizing s with
  | zero => intro h; cases h; rfl
  | succ n ih =>
    intro h
    simp only [List.replicate_succ, Sys.execs] at h
    split at h
    · rename_i s₁ h₁
      exact (ih h).trans (Sys.exec_run_pc h₁ hj)
    · cases h

theorem Sys.ret_released (s : Sys) (i : ℕ) (e : Event) :
    (s.ret i e).owner = none ∧ (s.ret i e).pc i = .returned e := by
  simp only [Sys.ret, update_same, and_self]

/-- The holder can always step: it returns, or keeps the lock with fewer steps left. -/
theorem Inv.step_holder {s : Sys} (h : Inv limit outcome s) {i : ℕ} (hi : s.owner = some i) :
    ∃ s', s.exec outcome (.run i) = some s' ∧
      ((s'.owner = none ∧ ∃ e, s'.pc i = .returned e) ∨
        (s'.owner = some i ∧ (s'.pc i).left < (s.pc i).left)) := by
  have hhold := h.2.2.2
  simp only [hi] at hhold
  cases hpc : s.pc i with
  | idle => simp only [hpc, Holding] at hhold
  | returned e => simp only [hpc, Holding] at hhold
  | locked =>
    simp only [Sys.exec, hpc]
    split
    · split_ifs
      · exact ⟨_, rfl, .inl ⟨(Sys.ret_released _ _ _).1, _, (Sys.ret_released _ _ _).2⟩⟩
      · exact ⟨_, rfl, .inr ⟨hi, by simp [Pc.left]⟩⟩
    · exact ⟨_, rfl, .inr ⟨hi, by simp [Pc.left]⟩⟩
  | stale check =>
    simp only [Sys.exec, hpc]
    exact ⟨_, rfl, .inr ⟨hi, by simp [Pc.left]⟩⟩
  | fetching check start =>
    simp only [Sys.exec, hpc]
    split
    · exact ⟨_, rfl, .inl ⟨(Sys.ret_released _ _ _).1, _, (Sys.ret_released _ _ _).2⟩⟩
    · exact ⟨_, rfl, .inr ⟨hi, by simp [Pc.left]⟩⟩
  | storing check start done m =>
    simp only [Sys.exec, hpc]
    exact ⟨_, rfl, .inl ⟨(Sys.ret_released _ _ _).1, _, (Sys.ret_released _ _ _).2⟩⟩

/-- Run on its own, the lock holder returns within `left + 1` steps. -/
theorem Inv.holder_returns (k : ℕ) {s : Sys} (h : Inv limit outcome s) {i : ℕ}
    (hi : s.owner = some i) (hk : (s.pc i).left ≤ k) : ∃ n s', n ≤ k + 1 ∧
      s.execs outcome (List.replicate n (.run i)) = some s' ∧ s'.owner = none ∧
        ∃ e, s'.pc i = .returned e := by
  induction k generalizing s with
  | zero =>
    obtain ⟨s₁, h₁, (⟨hfree, e, he⟩ | ⟨-, hlt⟩)⟩ := h.step_holder hi
    · exact ⟨1, s₁, le_rfl, by simp only [List.replicate, Sys.execs, h₁], hfree, e, he⟩
    · omega
  | succ k ih =>
    obtain ⟨s₁, h₁, (⟨hfree, e, he⟩ | ⟨hi₁, hlt⟩)⟩ := h.step_holder hi
    · exact ⟨1, s₁, by omega, by simp only [List.replicate, Sys.execs, h₁], hfree, e, he⟩
    · obtain ⟨n, s', hn, hs', hfree, he⟩ := ih (h.exec h₁) hi₁ (by omega)
      exact ⟨n + 1, s', by omega, by simp only [List.replicate_succ, Sys.execs, h₁, hs'], hfree, he⟩


theorem Inv.free_returns {s : Sys} (h : Inv limit outcome s) (hfree : s.owner = none) {j : ℕ}
    (hj : ∀ e, s.pc j ≠ .returned e) : ∃ n s', n ≤ 5 ∧
      s.execs outcome (List.replicate n (.run j)) = some s' ∧ s'.owner = none ∧
        ∃ e, s'.pc j = .returned e := by
  have hidle : s.pc j = .idle := by
    have hout := h.2.2.1 j (by rw [hfree]; nofun)
    cases hpc : s.pc j with
    | idle => rfl
    | returned e => exact absurd hpc (hj e)
    | _ => rw [hpc] at hout; exact absurd trivial hout
  have h₁ : s.exec outcome (.run j) =
      some { s with owner := some j, pc := update s.pc j .locked } := by
    simp only [Sys.exec, hidle, hfree, if_true]
  obtain ⟨n, s', hn, hs', hfree', he⟩ :=
    Inv.holder_returns 3 (h.exec h₁) (i := j) rfl (by simp [Pc.left])
  refine ⟨n + 1, s', by omega, ?_, hfree', he⟩
  simp only [List.replicate_succ, Sys.execs, h₁, hs']

/-- Deadlock freedom: from every reachable state, any caller that has not returned can still
return, within nine steps and without the clock. -/
theorem execs_returns (limit : F64) (outcome : ℕ → Counted GpuMetrics) (as : List Action)
    {s : Sys} (h : (Sys.init limit).execs outcome as = some s) {j : ℕ}
    (hj : ∀ e, s.pc j ≠ .returned e) : ∃ bs s', bs.length ≤ 9 ∧
      s.execs outcome bs = some s' ∧ s'.owner = none ∧ ∃ e, s'.pc j = .returned e := by
  have hinv := Inv.init.execs h
  cases ho : s.owner with
  | none =>
    obtain ⟨n, s', hn, hs', hfree, he⟩ := hinv.free_returns ho hj
    exact ⟨_, s', by simp only [List.length_replicate]; omega, hs', hfree, he⟩
  | some i =>
    obtain ⟨n, s₁, hn, hs₁, hfree₁, e₁, he₁⟩ := Inv.holder_returns 3 hinv ho (by
      cases s.pc i <;> simp [Pc.left])
    by_cases hij : j = i
    · subst hij
      exact ⟨_, s₁, by simp only [List.length_replicate]; omega, hs₁, hfree₁, e₁, he₁⟩
    · have hj₁ : ∀ e, s₁.pc j ≠ .returned e := by
        rw [Sys.execs_run_pc hij n hs₁]; exact hj
      obtain ⟨m, s', hm, hs', hfree, he⟩ := (hinv.execs hs₁).free_returns hfree₁ hj₁
      refine ⟨List.replicate n (.run i) ++ List.replicate m (.run j), s', ?_, ?_, hfree, he⟩
      · simp only [List.length_append, List.length_replicate]; omega
      · rw [Sys.execs_append, hs₁]; exact hs'

theorem Inv.exec_other {s : Sys} (h : Inv limit outcome s) {i j : ℕ} (hi : s.owner = some i)
    (hj : j ≠ i) : s.exec outcome (.run j) = none := by
  have hout := h.others hi j hj
  cases hpc : s.pc j with
  | idle => simp [Sys.exec, hpc, hi]
  | returned e => simp [Sys.exec, hpc]
  | _ => rw [hpc] at hout; exact absurd trivial hout

theorem Sys.execs_returned {i : ℕ} {e : Event} : ∀ {s s' : Sys} (as : List Action),
    s.pc i = .returned e → s.execs outcome as = some s' → s'.pc i = .returned e
  | _, _, [], hi, hs => by cases hs; exact hi
  | s, _, a :: as, hi, hs => by
    simp only [Sys.execs] at hs
    split at hs
    · rename_i s₁ h₁
      refine Sys.execs_returned as ?_ hs
      cases a with
      | tick t => simp only [Sys.exec] at h₁; split_ifs at h₁; cases h₁; exact hi
      | run j =>
        by_cases hj : i = j
        · subst hj; simp [Sys.exec, hi] at h₁
        · rw [Sys.exec_run_pc h₁ hj]; exact hi
    · cases hs

/-- Over every schedule, the lock holder has returned once it has taken `left + 1` steps: the
other callers cannot step, and the clock does not move it. -/
theorem Inv.execs_holder : ∀ {s s' : Sys} (as : List Action), Inv limit outcome s → ∀ {i : ℕ},
    s.owner = some i → s.execs outcome as = some s' →
      (s'.owner = some i ∧ (s'.pc i).left + as.count (.run i) ≤ (s.pc i).left) ∨
        ∃ e, s'.pc i = .returned e
  | _, _, [], _, _, hi, hs => by cases hs; exact .inl ⟨hi, by simp⟩
  | s, _, a :: as, h, i, hi, hs => by
    simp only [Sys.execs] at hs
    split at hs
    · rename_i s₁ h₁
      cases a with
      | tick t =>
        have hs₁ : s₁.owner = s.owner ∧ s₁.pc = s.pc := by
          simp only [Sys.exec] at h₁; split_ifs at h₁; cases h₁; exact ⟨rfl, rfl⟩
        rcases Inv.execs_holder as (h.exec h₁) (hs₁.1.trans hi) hs with ⟨hi', hle⟩ | hr
        · exact .inl ⟨hi', by simpa [hs₁.2] using hle⟩
        · exact .inr hr
      | run j =>
        by_cases hj : j = i
        · subst hj
          obtain ⟨s₂, h₂, (⟨-, e, he⟩ | ⟨hi₂, hlt⟩)⟩ := h.step_holder hi
          · rw [h₁] at h₂; cases h₂
            exact .inr ⟨e, Sys.execs_returned as he hs⟩
          · rw [h₁] at h₂; cases h₂
            rcases Inv.execs_holder as (h.exec h₁) hi₂ hs with ⟨hi', hle⟩ | hr
            · exact .inl ⟨hi', by simp only [List.count_cons_self]; omega⟩
            · exact .inr hr
        · rw [h.exec_other hi hj] at h₁; cases h₁
    · cases hs

end Progress

theorem execs_returns_second_caller :
    ∃ s, (Sys.init 10).execs (fun _ => (.ok ⟨0, 0, 0, 0⟩, 0)) [.run 0] = some s ∧
      (∀ e, s.pc 1 ≠ .returned e) ∧ ∃ bs s', bs.length ≤ 9 ∧
        s.execs (fun _ => (.ok ⟨0, 0, 0, 0⟩, 0)) bs = some s' ∧ s'.owner = none ∧
          ∃ e, s'.pc 1 = .returned e :=
  (fun h => ⟨_, h, fun _ he => (by cases he), execs_returns _ _ _ h fun _ he => by cases he⟩) rfl

end SlurmExporter
