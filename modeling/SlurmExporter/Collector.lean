import SlurmExporter.Cache
import SlurmExporter.Fallback
import SlurmExporter.Config

/-!
# The GPU collector and its configuration

`NewGpuCollector` builds the fetcher of the mode `NewConfig` settled, with its scrapers' commands
and a new cache of the poll limit, and `GpuCollector.Collect` calls `FetchMetrics` and sends the
four gauges of the snapshot it returns, or nothing.

1. `collect_send`: `Collect` sends the gauges `Describe` announces, in its order, or nothing;
2. `runCollect_run`: a run of `Collect` is a run of the cache on the calls the collector makes,
   so every result about cache runs holds for the collector;
3. `collect_fallback_total_zero`: with the CLI fallback and its default `sinfo` command, every
   `Collect` that sends gauges sends `slurm_gpus_total = 0`.

The scrapers are not modelled: a call of `Collect` comes with what the commands print at that
time.
-/

namespace SlurmExporter

set_option maxRecDepth 20000

open Go

/-! ## `NewGpuCollector`, `Describe` and `Collect` -/

/-- A `prometheus.Desc` without labels: its name and help text. -/
structure Desc where
  fqName : List Char
  help : List Char
  deriving DecidableEq

/-- `GpuCollector`: its four descriptors, and its fetcher by its mode, the commands of its two
scrapers and its cache. -/
structure GpuCollector where
  alloc : Desc
  idle : Desc
  total : Desc
  utilization : Desc
  fallback : Bool
  sinfoGpu : List (List Char)
  sacctGpu : List (List Char)
  cache : GpuCache

def newGpuCollector (config : Config) : GpuCollector :=
  { alloc := ⟨"slurm_gpus_alloc".toList, "Allocated GPUs".toList⟩,
    idle := ⟨"slurm_gpus_idle".toList, "Idle GPUs".toList⟩,
    total := ⟨"slurm_gpus_total".toList, "Total GPUs".toList⟩,
    utilization := ⟨"slurm_gpus_utilization".toList, "Total GPU utilization".toList⟩,
    fallback := config.cliOpts.fallback,
    sinfoGpu := config.cliOpts.sinfoGpu,
    sacctGpu := config.cliOpts.sacctGpu,
    cache := GpuCache.new config.pollLimit }

def GpuCollector.describe (gc : GpuCollector) : List Desc :=
  [gc.alloc, gc.idle, gc.total, gc.utilization]

/-- One call of `Collect`: the clock readings of its `FetchMetrics`, and what the scrapers'
commands print if they run. -/
structure CollectCall where
  clock : Clock
  exec : List (List Char) → RawBytes

section Collector

variable (unmarshalSinfo : List Char → Except (List Char) SinfoGpuResponse)
  (unmarshalSacct : List Char → Except (List Char) SacctGpuResponse)

def GpuCollector.fetchMetrics (gc : GpuCollector) (clock : Clock)
    (exec : List (List Char) → RawBytes) : Counted GpuMetrics × GpuCache :=
  if gc.fallback then
    GpuCliFallbackFetcher.fetchMetrics gc.cache clock (exec gc.sinfoGpu) (exec gc.sacctGpu)
  else
    GpuJsonFetcher.fetchMetrics unmarshalSinfo unmarshalSacct gc.cache clock (exec gc.sinfoGpu)
      (exec gc.sacctGpu)

/-- The gauges `Collect` sends for a result of `FetchMetrics`: none for an error. -/
def GpuCollector.send (gc : GpuCollector) : Except FetchErr GpuMetrics → List (Desc × F64)
  | .error _ => []
  | .ok metrics => [(gc.alloc, metrics.alloc), (gc.idle, metrics.idle),
      (gc.total, metrics.total), (gc.utilization, metrics.utilization)]

/-- `GpuCollector.Collect`: the gauges sent, and the collector after the call. -/
def GpuCollector.collect (gc : GpuCollector) (k : CollectCall) :
    List (Desc × F64) × GpuCollector :=
  (gc.send (gc.fetchMetrics unmarshalSinfo unmarshalSacct k.clock k.exec).1.1,
    { gc with cache := (gc.fetchMetrics unmarshalSinfo unmarshalSacct k.clock k.exec).2 })

def GpuCollector.runCollect (gc : GpuCollector) :
    List CollectCall → List (List (Desc × F64)) × GpuCollector
  | [] => ([], gc)
  | k :: ks =>
    ((gc.collect unmarshalSinfo unmarshalSacct k).1 ::
        ((gc.collect unmarshalSinfo unmarshalSacct k).2.runCollect ks).1,
      ((gc.collect unmarshalSinfo unmarshalSacct k).2.runCollect ks).2)

def GpuCollector.fetch (gc : GpuCollector) (exec : List (List Char) → RawBytes) :
    Counted GpuMetrics :=
  if gc.fallback then GpuCliFallbackFetcher.fetch (exec gc.sinfoGpu) (exec gc.sacctGpu)
  else GpuJsonFetcher.fetch unmarshalSinfo unmarshalSacct (exec gc.sinfoGpu) (exec gc.sacctGpu)

def GpuCollector.call (gc : GpuCollector) (k : CollectCall) : Call :=
  ⟨k.clock, gc.fetch unmarshalSinfo unmarshalSacct k.exec⟩

theorem GpuCollector.fetchMetrics_eq (gc : GpuCollector) (k : CollectCall) :
    gc.fetchMetrics unmarshalSinfo unmarshalSacct k.clock k.exec =
      gc.cache.fetchMetrics k.clock (gc.fetch unmarshalSinfo unmarshalSacct k.exec) := by
  unfold GpuCollector.fetchMetrics GpuCollector.fetch
  split <;> rfl

theorem GpuCollector.collect_eq (gc : GpuCollector) (k : CollectCall) :
    gc.collect unmarshalSinfo unmarshalSacct k =
      (gc.send (gc.cache.step (gc.call unmarshalSinfo unmarshalSacct k)).1.result.1,
        { gc with cache := (gc.cache.step (gc.call unmarshalSinfo unmarshalSacct k)).2 }) := by
  rw [GpuCollector.collect, GpuCollector.fetchMetrics_eq]; rfl

/-- A `Collect` sends no gauge, or one per descriptor of `Describe` with the
snapshot's values. -/
theorem collect_send (gc : GpuCollector) (k : CollectCall) :
    ((gc.collect unmarshalSinfo unmarshalSacct k).1 = [] ∨
      ∃ m, (gc.cache.step (gc.call unmarshalSinfo unmarshalSacct k)).1.result.1 = .ok m ∧
        (gc.collect unmarshalSinfo unmarshalSacct k).1.map Prod.fst = gc.describe ∧
        (gc.collect unmarshalSinfo unmarshalSacct k).1.map Prod.snd =
          [m.alloc, m.idle, m.total, m.utilization]) ∧
    (gc.collect unmarshalSinfo unmarshalSacct k).2 =
      { gc with cache := (gc.cache.step (gc.call unmarshalSinfo unmarshalSacct k)).2 } := by
  rw [GpuCollector.collect_eq]
  refine ⟨?_, rfl⟩
  cases (gc.cache.step (gc.call unmarshalSinfo unmarshalSacct k)).1.result.1 with
  | error e => exact .inl rfl
  | ok m => exact .inr ⟨m, rfl, rfl, rfl⟩

/-- A run of `Collect` calls sends the gauges of the cache's run on its calls. -/
theorem runCollect_run (gc : GpuCollector) (ks : List CollectCall) :
    gc.runCollect unmarshalSinfo unmarshalSacct ks =
      ((gc.cache.run (ks.map (gc.call unmarshalSinfo unmarshalSacct))).1.map
          (fun e => gc.send e.result.1),
        { gc with
          cache := (gc.cache.run (ks.map (gc.call unmarshalSinfo unmarshalSacct))).2 }) := by
  induction ks generalizing gc with
  | nil => rfl
  | cons k ks ih =>
    simp only [GpuCollector.runCollect, GpuCollector.collect_eq, ih, List.map_cons, GpuCache.run]
    rfl

end Collector

/-! ## The fallback total in every scrape -/

theorem run_results {P : GpuMetrics → Prop} (ks : List Call) :
    ∀ c : GpuCache, (∀ m, c.cache = some m → P m) →
      (∀ k ∈ ks, ∀ m, k.outcome.1 = .ok m → P m) →
      ∀ e ∈ (c.run ks).1, ∀ m, e.result.1 = .ok m → P m := by
  induction ks with
  | nil => intro _ _ _ e he; cases he
  | cons k ks ih =>
    intro c hc hks e he m hm
    have hk := hks k (List.mem_cons_self _ _)
    have hrest := fun k' hk' => hks k' (List.mem_cons_of_mem _ hk')
    rcases step_cases c k with ⟨m', hm', -, hs⟩ | ⟨e', -, -, hs⟩ | ⟨m', -, ho, hs⟩ <;>
      simp only [GpuCache.run, hs, List.mem_cons] at he <;> rcases he with rfl | he
    · cases hm; exact hc m hm'
    · exact ih c hc hrest e he m hm
    · cases hm
    · exact ih c hc hrest e he m hm
    · cases hm; exact hk m ho
    · exact ih _ (fun m'' h => by cases h; exact hk m' ho) hrest e he m hm

/-- With the default fallback `sinfo` command, a successful fetch reports `Total = 0`. -/
theorem GpuCollector.fetch_fallback_total
    (unmarshalSinfo : List Char → Except (List Char) SinfoGpuResponse)
    (unmarshalSacct : List Char → Except (List Char) SacctGpuResponse)
    {gc : GpuCollector} (hfb : gc.fallback = true) (hcmd : gc.sinfoGpu = sinfoGpuFallback)
    {exec : List (List Char) → RawBytes} {gs : List (List Char)} (hgs : ∀ g ∈ gs, SinfoGres g)
    (hexec : exec sinfoGpuFallback = .ok (sinfoGresOutput gs)) {m : GpuMetrics}
    (hm : (gc.fetch unmarshalSinfo unmarshalSacct exec).1 = .ok m) : m.total = 0 := by
  rw [GpuCollector.fetch, if_pos hfb, GpuCliFallbackFetcher.fetch, hcmd, hexec] at hm
  exact fetchWith_total (by rw [GpuCliFallbackFetcher.fetchTotalGpus_gresRows hgs]) hm

/-- The gauge sent on `slurm_gpus_total` carries the snapshot's `Total`. -/
theorem newGpuCollector_send_total {cfg : Config} {r : Except FetchErr GpuMetrics}
    {p : Desc × F64} (hp : p ∈ (newGpuCollector cfg).send r)
    (hpd : p.1 = (newGpuCollector cfg).total) : ∃ m, r = .ok m ∧ p.2 = m.total := by
  cases r with
  | error e => cases hp
  | ok m =>
    refine ⟨m, rfl, ?_⟩
    simp only [GpuCollector.send, List.mem_cons, List.mem_singleton, List.not_mem_nil,
      or_false] at hp
    rcases hp with rfl | rfl | rfl | rfl <;>
      first | rfl | exact absurd hpd (by simp only [newGpuCollector]; decide)

/-- With the CLI fallback and the default `sinfo` command, every `Collect` that sends
gauges sends `slurm_gpus_total = 0`, whatever the nodes' GRES strings. -/
theorem collect_fallback_total_zero
    (unmarshalSinfo : List Char → Except (List Char) SinfoGpuResponse)
    (unmarshalSacct : List Char → Except (List Char) SacctGpuResponse)
    {cliFlags : CliFlags} {excludeFilter : Except (List Char) Unit}
    {lookupEnv : List Char → Option (List Char)} {cfg : Config}
    (hcfg : newConfig cliFlags excludeFilter lookupEnv = .ok cfg)
    (hfb : cliFlags.slurmCliFallback = true) (hov : cliFlags.slurmSinfoGpuOverride = [])
    (ks : List CollectCall)
    (hsinfo : ∀ k ∈ ks, ∃ gs, (∀ g ∈ gs, SinfoGres g) ∧
      k.exec sinfoGpuFallback = .ok (sinfoGresOutput gs)) :
    ∀ sent ∈ ((newGpuCollector cfg).runCollect unmarshalSinfo unmarshalSacct ks).1,
      ∀ p ∈ sent, p.1 = (newGpuCollector cfg).total → p.2 = 0 := by
  obtain ⟨-, -, -, -, -, hopts, -⟩ := newConfig_settles hcfg
  have hf : cfg.cliOpts.fallback = true := by rw [hopts]; exact hfb
  have hs : cfg.cliOpts.sinfoGpu = sinfoGpuFallback := by
    rw [hopts]; simp only [settledCommand, hov, hfb]; rfl
  rw [runCollect_run]
  intro sent hsent p hp hpd
  obtain ⟨e, he, rfl⟩ := List.mem_map.mp hsent
  obtain ⟨m, hm, hpm⟩ := newGpuCollector_send_total hp hpd
  rw [hpm]
  refine @run_results (fun m => m.total = 0) _ _ (fun m h => by cases h) ?_ e he m hm
  intro k hk m hm
  obtain ⟨k, hk', rfl⟩ := List.mem_map.mp hk
  obtain ⟨gs, hgs, hexec⟩ := hsinfo k hk'
  exact GpuCollector.fetch_fallback_total _ _ hf hs hgs hexec hm

/-- One `Collect` with the default fallback commands on a node with two GPUs. -/
theorem collect_fallback_total_zero_gpu2 :
    ∃ cfg, newConfig { slurmGpusEnabled := true, slurmCliFallback := true } (.ok ())
        (fun _ => none) = .ok cfg ∧
      ∀ sent ∈ ((newGpuCollector cfg).runCollect (fun _ => .error []) (fun _ => .error [])
          [⟨⟨.zero, .zero, .zero, .zero⟩, fun _ => .ok (sinfoGresOutput ["gpu:2".toList])⟩]).1,
        ∀ p ∈ sent, p.1 = (newGpuCollector cfg).total → p.2 = 0 :=
  (fun h => ⟨_, h, collect_fallback_total_zero _ _ h rfl rfl _ fun k hk =>
    ⟨["gpu:2".toList], by decide, by rw [List.mem_singleton.mp hk]⟩⟩) rfl

end SlurmExporter
