import SlurmExporter.Gres
import SlurmExporter.Csv

/-!
# The GPU fetchers

`gpus.go` has two fetchers of `GpuMetrics` of the same shape:

1. `GpuJsonFetcher` decodes the JSON of `sinfo --json` and `sacct ... --json`; a non-empty
   `errors` list fails the fetch with its first message and adds its length to `errorCounter`;
2. `GpuCliFallbackFetcher` reads the `|`-separated rows of `sinfo -h -O Gres:30|` with
   `encoding/csv` (a parse error adds one to `errorCounter`) and the lines of
   `sacct ... --noheader --parsable2`.

Each sums `parseGresGpuCount` from `0.0` over the nodes (the total) and over the jobs (the
allocated GPUs), and `fetch` combines the two into `GpuMetrics`.

`json.Unmarshal` is not modelled: a JSON fetcher takes its decoder `unmarshal` as a parameter,
and every statement about it holds for every decoding of the document.
-/

namespace SlurmExporter

set_option maxRecDepth 20000

open Go

structure GpuMetrics where
  alloc : F64
  idle : F64
  total : F64
  utilization : F64
  deriving DecidableEq

structure SinfoGpuNode where
  gres : List Char
  deriving DecidableEq

/-- `sinfoGpuResponse`, without `Meta`, which no function reads. -/
structure SinfoGpuResponse where
  errors : List (List Char)
  nodes : List SinfoGpuNode
  deriving DecidableEq

structure SacctGpuJob where
  allocGRES : List Char
  deriving DecidableEq

/-- `sacctGpuResponse`, without `Meta`, which no function reads. -/
structure SacctGpuResponse where
  errors : List (List Char)
  jobs : List SacctGpuJob
  deriving DecidableEq

/-- The errors of a GPU fetch: the scraper's, the decoder's, the response's, or the CSV
reader's. -/
inductive FetchErr
  | scrape (msg : List Char)
  | unmarshal (msg : List Char)
  | api (msg : List Char)
  | csv (e : Csv.ReadErr)
  deriving DecidableEq

abbrev RawBytes := Except (List Char) (List Char)

/-- A fetch's result, with the amount it adds to `errorCounter`. -/
abbrev Counted (α : Type) := Except FetchErr α × ℕ

/-! ## The JSON fetchers -/

/-- The body of both `GpuJsonFetcher` counts: a failure, or the sum from `0.0` of the GRES
counts. -/
def jsonGpuCount {R : Type} (unmarshal : List Char → Except (List Char) R)
    (errors : R → List (List Char)) (gres : R → List (List Char)) (cliJson : RawBytes) :
    Counted F64 :=
  match cliJson with
  | .error e => (.error (.scrape e), 0)
  | .ok bytes =>
    match unmarshal bytes with
    | .error e => (.error (.unmarshal e), 0)
    | .ok resp =>
      match errors resp with
      | e :: es => (.error (.api e), es.length + 1)
      | [] => (.ok ((gres resp).foldl (fun total g => total + parseGresGpuCount g) 0), 0)

/-- `GpuJsonFetcher.fetchTotalGpus`: the nodes' GRES strings. -/
def GpuJsonFetcher.fetchTotalGpus (unmarshal : List Char → Except (List Char) SinfoGpuResponse) :
    RawBytes → Counted F64 :=
  jsonGpuCount unmarshal SinfoGpuResponse.errors fun r => r.nodes.map SinfoGpuNode.gres

/-- `GpuJsonFetcher.fetchAllocatedGpus`: the jobs' allocated GRES strings. -/
def GpuJsonFetcher.fetchAllocatedGpus
    (unmarshal : List Char → Except (List Char) SacctGpuResponse) : RawBytes → Counted F64 :=
  jsonGpuCount unmarshal SacctGpuResponse.errors fun r => r.jobs.map SacctGpuJob.allocGRES

theorem jsonGpuCount_ok {R : Type} {unmarshal : List Char → Except (List Char) R}
    {errors : R → List (List Char)} {gres : R → List (List Char)} {doc : List Char} {resp : R}
    (hdoc : unmarshal doc = .ok resp) (he : errors resp = []) :
    jsonGpuCount unmarshal errors gres (.ok doc) =
      (.ok (((gres resp).map parseGresGpuCount).foldl (· + ·) 0), 0) := by
  simp only [jsonGpuCount, hdoc, he, List.foldl_map]

theorem GpuJsonFetcher.fetchTotalGpus_ok
    {unmarshal : List Char → Except (List Char) SinfoGpuResponse}
    {doc : List Char} {resp : SinfoGpuResponse} (hdoc : unmarshal doc = .ok resp)
    (he : resp.errors = []) :
    GpuJsonFetcher.fetchTotalGpus unmarshal (.ok doc) =
      (.ok ((resp.nodes.map fun n => parseGresGpuCount n.gres).foldl (· + ·) 0), 0) := by
  rw [GpuJsonFetcher.fetchTotalGpus, jsonGpuCount_ok hdoc he, List.map_map]; rfl

theorem GpuJsonFetcher.fetchAllocatedGpus_ok
    {unmarshal : List Char → Except (List Char) SacctGpuResponse} {doc : List Char}
    {resp : SacctGpuResponse} (hdoc : unmarshal doc = .ok resp) (he : resp.errors = []) :
    GpuJsonFetcher.fetchAllocatedGpus unmarshal (.ok doc) =
      (.ok ((resp.jobs.map fun j => parseGresGpuCount j.allocGRES).foldl (· + ·) 0), 0) := by
  rw [GpuJsonFetcher.fetchAllocatedGpus, jsonGpuCount_ok hdoc he, List.map_map]; rfl

/-! ## The fallback fetchers -/

/-- `GpuCliFallbackFetcher.fetchTotalGpus`: the second field of every row of two fields or more,
trimmed. -/
def GpuCliFallbackFetcher.fetchTotalGpus (sinfoOutput : RawBytes) : Counted F64 :=
  match sinfoOutput with
  | .error e => (.error (.scrape e), 0)
  | .ok out =>
    let out := trimSpace out
    if out = [] then (.ok 0, 0)
    else
      match Csv.readAll '|' out with
      | .error e => (.error (.csv e), 1)
      | .ok records =>
        (.ok (records.foldl (fun totalGpus record =>
          if record.length < 2 then totalGpus
          else totalGpus + parseGresGpuCount (trimSpace (record.getD 1 []))) 0), 0)

/-- `GpuCliFallbackFetcher.fetchAllocatedGpus`: every non-empty trimmed line, its quotes
trimmed. -/
def GpuCliFallbackFetcher.fetchAllocatedGpus (sacctOutput : RawBytes) : Counted F64 :=
  match sacctOutput with
  | .error e => (.error (.scrape e), 0)
  | .ok out =>
    let out := trimSpace out
    if out = [] then (.ok 0, 0)
    else
      (.ok ((out.splitOn '\n').foldl (fun allocGpus line =>
        let line := trimSpace line
        if line = [] then allocGpus
        else allocGpus + parseGresGpuCount (trim line ['"'])) 0), 0)

/-! ## `fetch` -/

/-- `Idle = Total - Alloc`, and `Utilization = Alloc / Total` when `Total > 0`, else `0`. -/
def gpuMetrics (totalGpus allocGpus : F64) : GpuMetrics :=
  { alloc := allocGpus, idle := totalGpus - allocGpus, total := totalGpus,
    utilization := if 0 < totalGpus then allocGpus / totalGpus else 0 }

/-- The body of `fetch` in both fetchers: the total, then the allocated GPUs. -/
def fetchWith (total alloc : Counted F64) : Counted GpuMetrics :=
  match total.1 with
  | .error e => (.error e, total.2)
  | .ok totalGpus => (alloc.1.map (gpuMetrics totalGpus), total.2 + alloc.2)

def GpuJsonFetcher.fetch (unmarshalSinfo : List Char → Except (List Char) SinfoGpuResponse)
    (unmarshalSacct : List Char → Except (List Char) SacctGpuResponse) (sinfo sacct : RawBytes) :
    Counted GpuMetrics :=
  fetchWith (GpuJsonFetcher.fetchTotalGpus unmarshalSinfo sinfo)
    (GpuJsonFetcher.fetchAllocatedGpus unmarshalSacct sacct)

def GpuCliFallbackFetcher.fetch (sinfo sacct : RawBytes) : Counted GpuMetrics :=
  fetchWith (GpuCliFallbackFetcher.fetchTotalGpus sinfo)
    (GpuCliFallbackFetcher.fetchAllocatedGpus sacct)

theorem fetchWith_ok {total alloc : Counted F64} {m : GpuMetrics} {n : ℕ}
    (h : fetchWith total alloc = (.ok m, n)) : m = gpuMetrics m.total m.alloc := by
  unfold fetchWith at h
  split at h
  · cases h
  · rename_i t _
    cases ha : alloc.1 with
    | error e => rw [ha] at h; cases h
    | ok a =>
      rw [ha] at h
      simp only [Except.map, Prod.mk.injEq, Except.ok.injEq] at h
      rw [← h.1]; rfl

theorem fetchWith_total {total alloc : Counted F64} {t : F64} {m : GpuMetrics}
    (ht : total.1 = .ok t) (h : (fetchWith total alloc).1 = .ok m) : m.total = t := by
  unfold fetchWith at h
  rw [ht] at h
  cases ha : alloc.1 with
  | error e => rw [ha] at h; cases h
  | ok a =>
    rw [ha] at h
    cases h
    simp only [gpuMetrics]

/-! ## The gauges

`fetch` computes `Total` and `Alloc` from two commands and never compares them, so a successful
fetch can report more allocated than total GPUs. Where `0 ≤ Alloc ≤ Total`, the derived gauges are
in range. -/

/-- With no node and one job on `gpu:2`, either fetcher reports `Alloc = 2` and
`Total = 0`. -/
theorem fetch_alloc_exceeds_total :
    GpuCliFallbackFetcher.fetch (.ok []) (.ok "gpu:2".toList) = (.ok (gpuMetrics 0 2), 0) ∧
      GpuJsonFetcher.fetch (fun _ => .ok ⟨[], []⟩) (fun _ => .ok ⟨[], [⟨"gpu:2".toList⟩]⟩)
        (.ok []) (.ok []) = (.ok (gpuMetrics 0 2), 0) ∧
      ¬ (gpuMetrics 0 2).alloc ≤ (gpuMetrics 0 2).total ∧ ¬ 0 ≤ (gpuMetrics 0 2).idle := by
  decide

theorem gpuMetrics_gauges {t a : F64} (h0 : 0 ≤ a) (hle : a ≤ t) (hfin : a.isFinite = true) :
    0 ≤ (gpuMetrics t a).idle ∧ 0 ≤ (gpuMetrics t a).utilization ∧
      (gpuMetrics t a).utilization ≤ 1 := by
  simp only [gpuMetrics]
  refine ⟨F64.zero_le_sub h0 hle hfin, ?_⟩
  split_ifs with ht
  · exact F64.div_mem_unit h0 hle ht hfin
  · exact ⟨F64.zero_le_zero, by
      rw [F64.le_iff, F64.zero_eq, F64.one_eq]; exact ⟨rfl, rfl, Int.natCast_nonneg _⟩⟩

/-- The gauges of a successful fetch, in range when `0 ≤ Alloc ≤ Total`. -/
theorem fetch_gauges {unmarshalSinfo : List Char → Except (List Char) SinfoGpuResponse}
    {unmarshalSacct : List Char → Except (List Char) SacctGpuResponse} {sinfo sacct : RawBytes}
    {m : GpuMetrics} {n : ℕ}
    (h : GpuJsonFetcher.fetch unmarshalSinfo unmarshalSacct sinfo sacct = (.ok m, n) ∨
      GpuCliFallbackFetcher.fetch sinfo sacct = (.ok m, n)) :
    m.idle = m.total - m.alloc ∧
      m.utilization = (if 0 < m.total then m.alloc / m.total else 0) ∧
      (0 ≤ m.alloc → m.alloc ≤ m.total → m.alloc.isFinite = true →
        0 ≤ m.idle ∧ 0 ≤ m.utilization ∧ m.utilization ≤ 1) := by
  have hm : m = gpuMetrics m.total m.alloc := by rcases h with h | h <;> exact fetchWith_ok h
  refine ⟨by rw [hm]; simp only [gpuMetrics], by rw [hm]; simp only [gpuMetrics],
    fun h0 hle hfin => ?_⟩
  rw [hm]; exact gpuMetrics_gauges h0 hle hfin

/-- Four GPUs on the node and two allocated: the JSON fetcher reports `Idle = 2` and
`Utilization = 0.5`, both in range. -/
theorem fetch_gauges_four_two :
    GpuJsonFetcher.fetch (fun _ => .ok ⟨[], [⟨"gpu:4".toList⟩]⟩)
        (fun _ => .ok ⟨[], [⟨"gpu:2".toList⟩]⟩) (.ok []) (.ok []) = (.ok (gpuMetrics 4 2), 0) ∧
      (gpuMetrics 4 2).idle = (gpuMetrics 4 2).total - (gpuMetrics 4 2).alloc ∧
      0 ≤ (gpuMetrics 4 2).idle ∧ 0 ≤ (gpuMetrics 4 2).utilization ∧
      (gpuMetrics 4 2).utilization ≤ 1 := by
  have h : GpuJsonFetcher.fetch (fun _ => .ok ⟨[], [⟨"gpu:4".toList⟩]⟩)
      (fun _ => .ok ⟨[], [⟨"gpu:2".toList⟩]⟩) (.ok []) (.ok []) = (.ok (gpuMetrics 4 2), 0) := by
    decide
  have hg := fetch_gauges (.inl h)
  have h0 : (0 : F64) ≤ (gpuMetrics 4 2).alloc := by decide
  have hle : (gpuMetrics 4 2).alloc ≤ (gpuMetrics 4 2).total := by
    decide
  exact ⟨h, hg.1, hg.2.2 h0 hle rfl⟩

/-! ## Whole counts

Slurm prints GPU counts as decimal numerals. Then no sum the JSON fetcher computes is rounded,
and its gauges are exact, whatever the order of the nodes, the jobs and their tokens. -/

/-- Whole counts below `2 ^ 53` are summed without rounding. -/
theorem jsonGpuCount_whole {R : Type} {unmarshal : List Char → Except (List Char) R}
    {errors : R → List (List Char)} {gres : R → List (List Char)} {doc : List Char} {resp : R}
    (hdoc : unmarshal doc = .ok resp) (he : errors resp = []) {ns : List ℕ}
    (hw : List.Forall₂ (fun g n => 0 + parseGresGpuCount g = F64.ofNat n) (gres resp) ns)
    (hn : ns.sum < 2 ^ 53) :
    jsonGpuCount unmarshal errors gres (.ok doc) = (.ok (F64.ofNat ns.sum), 0) := by
  rw [jsonGpuCount_ok hdoc he]
  simpa using F64.foldl_add_exact (List.forall₂_map_left_iff.mpr hw) 0 (by omega)

section
variable {tss jss : List (List GresToken)} {doc : List Char}

theorem GpuJsonFetcher.fetchTotalGpus_whole
    {unmarshal : List Char → Except (List Char) SinfoGpuResponse}
    (hdoc : unmarshal doc = .ok ⟨[], tss.map fun ts => ⟨legacyGres ts⟩⟩)
    (h : ∀ t ∈ tss.flatten, t.Valid ∧ t.Whole) (hn : gresGpus tss < 2 ^ 53) :
    GpuJsonFetcher.fetchTotalGpus unmarshal (.ok doc) = (.ok (F64.ofNat (gresGpus tss)), 0) := by
  have hw := forall₂_zero_add_whole h hn
  rw [gresGpus_eq] at hn ⊢
  exact jsonGpuCount_whole hdoc rfl (by simpa only [List.map_map] using hw) hn

theorem GpuJsonFetcher.fetchAllocatedGpus_whole
    {unmarshal : List Char → Except (List Char) SacctGpuResponse}
    (hdoc : unmarshal doc = .ok ⟨[], jss.map fun js => ⟨legacyGres js⟩⟩)
    (h : ∀ t ∈ jss.flatten, t.Valid ∧ t.Whole) (hn : gresGpus jss < 2 ^ 53) :
    GpuJsonFetcher.fetchAllocatedGpus unmarshal (.ok doc) =
      (.ok (F64.ofNat (gresGpus jss)), 0) := by
  have hw := forall₂_zero_add_whole h hn
  rw [gresGpus_eq] at hn ⊢
  exact jsonGpuCount_whole hdoc rfl (by simpa only [List.map_map] using hw) hn

end

/-- The gauges of whole totals: `Idle = N - A` exactly, `Utilization` nearest `A / N`. -/
theorem gpuMetrics_ofNat {n a : ℕ} (hle : a ≤ n) (hn : n < 2 ^ 53) :
    gpuMetrics (F64.ofNat n) (F64.ofNat a) =
      ⟨F64.ofNat a, F64.ofNat (n - a), F64.ofNat n,
        if n = 0 then 0 else F64.round false (a * F64.unit) n⟩ := by
  simp only [gpuMetrics, F64.ofNat_sub_ofNat hle hn, F64.zero_lt_ofNat_iff hn]
  rcases Nat.eq_zero_or_pos n with rfl | hpos
  · simp
  · rw [if_pos hpos, if_neg hpos.ne', F64.ofNat_div_ofNat (hle.trans_lt hn) hn hpos]

/-- Whole GPU counts below `2 ^ 53` give exact gauges, whatever the order of nodes, jobs and
tokens. -/
theorem GpuJsonFetcher.fetch_whole
    {unmarshalSinfo : List Char → Except (List Char) SinfoGpuResponse}
    {unmarshalSacct : List Char → Except (List Char) SacctGpuResponse}
    {sinfoDoc sacctDoc : List Char} {tss jss : List (List GresToken)}
    (hsinfo : unmarshalSinfo sinfoDoc = .ok ⟨[], tss.map fun ts => ⟨legacyGres ts⟩⟩)
    (hsacct : unmarshalSacct sacctDoc = .ok ⟨[], jss.map fun js => ⟨legacyGres js⟩⟩)
    (h : ∀ t ∈ tss.flatten ++ jss.flatten, t.Valid ∧ t.Whole)
    (hle : gresGpus jss ≤ gresGpus tss) (hn : gresGpus tss < 2 ^ 53) :
    GpuJsonFetcher.fetch unmarshalSinfo unmarshalSacct (.ok sinfoDoc) (.ok sacctDoc) =
      (.ok ⟨F64.ofNat (gresGpus jss), F64.ofNat (gresGpus tss - gresGpus jss),
        F64.ofNat (gresGpus tss), if gresGpus tss = 0 then 0
          else F64.round false (gresGpus jss * F64.unit) (gresGpus tss)⟩, 0) := by
  rw [GpuJsonFetcher.fetch, fetchWith,
    GpuJsonFetcher.fetchTotalGpus_whole hsinfo (fun t ht => h t (List.mem_append_left _ ht)) hn,
    GpuJsonFetcher.fetchAllocatedGpus_whole hsacct (fun t ht => h t (List.mem_append_right _ ht))
      (hle.trans_lt hn)]
  simp only [Except.map, gpuMetrics_ofNat hle hn]

/-- Nodes `gpu:tesla:4(IDX:0-3)` and `gpu:2,mps:100`, jobs `gpu:1` and `gpu:tesla:2`: `Total = 6`,
`Alloc = 3`, `Idle = 6 - 3`. -/
theorem fetch_whole_six_three :
    ∃ tss jss : List (List GresToken),
      tss = [[⟨"gpu:tesla:4".toList, some "IDX:0-3".toList⟩],
        [⟨"gpu:2".toList, none⟩, ⟨"mps:100".toList, none⟩]] ∧
      jss = [[⟨"gpu:1".toList, none⟩], [⟨"gpu:tesla:2".toList, none⟩]] ∧
      (∀ t ∈ tss.flatten ++ jss.flatten, t.Valid ∧ t.Whole) ∧
      gresGpus jss = 3 ∧ gresGpus tss = 6 ∧
      GpuJsonFetcher.fetch (fun _ => .ok ⟨[], tss.map fun ts => ⟨legacyGres ts⟩⟩)
          (fun _ => .ok ⟨[], jss.map fun js => ⟨legacyGres js⟩⟩) (.ok []) (.ok []) =
        (.ok ⟨F64.ofNat (gresGpus jss), F64.ofNat (gresGpus tss - gresGpus jss),
          F64.ofNat (gresGpus tss), if gresGpus tss = 0 then 0
            else F64.round false (gresGpus jss * F64.unit) (gresGpus tss)⟩, 0) :=
  ⟨_, _, rfl, rfl, by decide, by decide, by decide,
    GpuJsonFetcher.fetch_whole rfl rfl (by decide) (by decide) (by decide)⟩

/-! ## The error counter

`errorCounter` counts the errors a Slurm API response reports and the CSV reader's failures,
nothing else: a failed command or an undecodable document fails the fetch without a count. -/

theorem fetchWith_counter {P : FetchErr → Prop} {total alloc : Counted F64}
    (ht : total.2 ≠ 0 ↔ ∃ e, total.1 = .error e ∧ P e)
    (ha : alloc.2 ≠ 0 ↔ ∃ e, alloc.1 = .error e ∧ P e) :
    (fetchWith total alloc).2 ≠ 0 ↔ ∃ e, (fetchWith total alloc).1 = .error e ∧ P e := by
  unfold fetchWith
  cases h : total.1 with
  | error e => simpa [h] using ht
  | ok t =>
    have h0 : total.2 = 0 := by
      by_contra hne
      obtain ⟨e, he, -⟩ := ht.mp hne
      rw [h] at he; cases he
    simp only [h0, Nat.zero_add, ha]
    cases alloc.1 <;> simp [Except.map]

theorem jsonGpuCount_counter {R : Type} {unmarshal : List Char → Except (List Char) R}
    {errors : R → List (List Char)} {gres : R → List (List Char)} {cliJson : RawBytes} :
    (jsonGpuCount unmarshal errors gres cliJson).2 ≠ 0 ↔
      ∃ e, (jsonGpuCount unmarshal errors gres cliJson).1 = .error e ∧ ∃ msg, e = .api msg := by
  unfold jsonGpuCount
  split
  · simp
  · split
    · simp
    · split <;> simp

theorem GpuCliFallbackFetcher.fetchTotalGpus_counter {sinfoOutput : RawBytes} :
    (GpuCliFallbackFetcher.fetchTotalGpus sinfoOutput).2 ≠ 0 ↔
      ∃ e, (GpuCliFallbackFetcher.fetchTotalGpus sinfoOutput).1 = .error e ∧
        ∃ pe, e = .csv pe := by
  unfold GpuCliFallbackFetcher.fetchTotalGpus
  split
  · simp
  · dsimp only
    split_ifs
    · simp
    · split <;> simp

theorem GpuCliFallbackFetcher.fetchAllocatedGpus_counter {sacctOutput : RawBytes} :
    (GpuCliFallbackFetcher.fetchAllocatedGpus sacctOutput).2 ≠ 0 ↔
      ∃ e, (GpuCliFallbackFetcher.fetchAllocatedGpus sacctOutput).1 = .error e ∧
        ∃ pe, e = .csv pe := by
  unfold GpuCliFallbackFetcher.fetchAllocatedGpus
  split
  · simp
  · dsimp only
    split_ifs <;> simp

theorem exists_error_of_kind {α β : Type} {x : Except FetchErr α} {f : β → FetchErr} :
    (∃ e, x = .error e ∧ ∃ b, e = f b) ↔ ∃ b, x = .error (f b) :=
  ⟨fun ⟨_, h, b, he⟩ => ⟨b, he ▸ h⟩, fun ⟨b, h⟩ => ⟨_, h, b, rfl⟩⟩

/-- A fetch adds to `errorCounter` exactly when a Slurm API response reports an error, or the
CSV reader fails. -/
theorem fetch_errorCounter (unmarshalSinfo : List Char → Except (List Char) SinfoGpuResponse)
    (unmarshalSacct : List Char → Except (List Char) SacctGpuResponse) (sinfo sacct : RawBytes) :
    ((GpuJsonFetcher.fetch unmarshalSinfo unmarshalSacct sinfo sacct).2 ≠ 0 ↔
      ∃ msg, (GpuJsonFetcher.fetch unmarshalSinfo unmarshalSacct sinfo sacct).1 =
        .error (.api msg)) ∧
    ((GpuCliFallbackFetcher.fetch sinfo sacct).2 ≠ 0 ↔
      ∃ e, (GpuCliFallbackFetcher.fetch sinfo sacct).1 = .error (.csv e)) :=
  ⟨(fetchWith_counter jsonGpuCount_counter jsonGpuCount_counter).trans exists_error_of_kind,
    (fetchWith_counter GpuCliFallbackFetcher.fetchTotalGpus_counter
      GpuCliFallbackFetcher.fetchAllocatedGpus_counter).trans exists_error_of_kind⟩

end SlurmExporter
