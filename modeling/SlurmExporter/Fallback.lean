import SlurmExporter.Fetcher

/-!
# The fallback fetchers against the JSON fetchers

`GpuCliFallbackFetcher` stands in for `GpuJsonFetcher` when the JSON output of `sinfo` and
`sacct` is not available. This module compares the two on the text that the fallback commands of
`NewConfig` print for the same nodes and jobs:

1. `sinfo -h -O Gres:30|` prints one row per node, the GRES column followed by `|`. The fallback
   counts the second field of each row, which is empty, so its total is `0` whatever the nodes'
   GRES strings, while the JSON fetcher sums their counts;
2. `sacct ... --noheader --parsable2` prints one allocated GRES string per line. The fallback
   skips empty lines and the JSON fetcher counts an empty string as `0.0`, so the two agree.
-/

namespace SlurmExporter

set_option maxRecDepth 20000

open Go

/-! ## The total of the fallback

`NewConfig` sets the fallback `sinfo` command to `sinfo -h -O Gres:30|`: one row per node, the
GRES column padded to 30 characters and followed by `|`. `encoding/csv` reads such a row as two
fields, the column and the empty field after the `|`; `fetchTotalGpus` counts the second, so
every row counts `0`. -/

section FallbackTotal

/-- The `Gres:30` column: a GRES string padded with spaces to 30 characters. -/
def gresColumn (g : List Char) : List Char := g ++ List.replicate (30 - g.length) ' '

def pipeRows (ys : List (List Char)) : List Char := (ys.map fun y => y ++ ['|', '\n']).flatten

/-- The output of `sinfo -h -O Gres:30|` for nodes with these GRES strings. -/
def sinfoGresOutput (gs : List (List Char)) : List Char := pipeRows (gs.map gresColumn)

/-- A GRES string as the `Gres:30` column shows it: at most 30 characters, without `|`, quotes
or white space. -/
def SinfoGres (g : List Char) : Prop :=
  g.length ≤ 30 ∧ ∀ c ∈ g, c ≠ '|' ∧ c ≠ '"' ∧ isSpace c = false

instance : DecidablePred SinfoGres := fun g =>
  inferInstanceAs (Decidable (g.length ≤ 30 ∧ ∀ c ∈ g, c ≠ '|' ∧ c ≠ '"' ∧ isSpace c = false))

theorem mem_gresColumn {g : List Char} {c : Char} (h : c ∈ gresColumn g) : c ∈ g ∨ c = ' ' := by
  rcases List.mem_append.mp h with h | h
  exacts [.inl h, .inr (List.eq_of_mem_replicate h)]

theorem SinfoGres.not_mem_gresColumn {g : List Char} (hg : SinfoGres g) {c : Char}
    (hc : c ∈ ['|', '"', '\n', '\r']) : c ∉ gresColumn g := by
  intro hm
  rcases mem_gresColumn hm with hm | rfl
  · obtain ⟨h1, h2, h3⟩ := hg.2 c hm
    simp only [List.mem_cons, List.mem_singleton, List.not_mem_nil, or_false] at hc
    rcases hc with rfl | rfl | rfl | rfl
    exacts [h1 rfl, h2 rfl, absurd h3 (by decide), absurd h3 (by decide)]
  · revert hc; decide

theorem mem_pipeRows {ys : List (List Char)} {c : Char} (h : c ∈ pipeRows ys) :
    (∃ y ∈ ys, c ∈ y) ∨ c = '|' ∨ c = '\n' := by
  simp only [pipeRows, List.mem_flatten, List.mem_map] at h
  obtain ⟨_, ⟨y, hy, rfl⟩, h⟩ := h
  simp only [List.mem_append, List.mem_cons, List.mem_singleton, List.not_mem_nil,
    or_false] at h
  rcases h with h | h | h
  exacts [.inl ⟨y, hy, h⟩, .inr (.inl h), .inr (.inr h)]

theorem splitOn_pipeRows {ys : List (List Char)} (h : ∀ y ∈ ys, '\n' ∉ y) :
    (pipeRows ys).splitOn '\n' = ys.map (· ++ ['|']) ++ [[]] := by
  induction ys with
  | nil => rfl
  | cons y ys ih =>
    have hy : '\n' ∉ y ++ ['|'] := by simpa using h y (List.mem_cons_self _ _)
    rw [pipeRows, List.map_cons, List.flatten_cons,
      show y ++ ['|', '\n'] ++ (ys.map fun y => y ++ ['|', '\n']).flatten =
        (y ++ ['|']) ++ '\n' :: pipeRows ys by simp [pipeRows],
      splitOn_append_cons, splitOn_of_not_mem hy, ih fun z hz => h z (List.mem_cons_of_mem _ hz)]
    rfl

theorem pipeRows_ends : ∀ ys : List (List Char), ys ≠ [] → ∃ w, pipeRows ys = w ++ ['|', '\n'] := by
  intro ys hys
  obtain ⟨zs, z, rfl⟩ := List.eq_nil_or_concat ys |>.resolve_left hys
  exact ⟨pipeRows zs ++ z, by simp [pipeRows]⟩

theorem splitOn_trimSpace_pipeRows {y : List Char} {ys : List (List Char)}
    (h : ∀ z ∈ y :: ys, '\n' ∉ z) :
    (trimSpace (pipeRows (y :: ys))).splitOn '\n' =
      (y.dropWhile isSpace ++ ['|']) :: ys.map (· ++ ['|']) := by
  have hbar : isSpace '|' = false := by decide
  have hd : (pipeRows (y :: ys)).dropWhile isSpace =
      y.dropWhile isSpace ++ '|' :: '\n' :: pipeRows ys := by
    rw [show pipeRows (y :: ys) = y ++ '|' :: '\n' :: pipeRows ys by simp [pipeRows],
      dropWhile_append_cons_of_not hbar]
  obtain ⟨w, hw⟩ := pipeRows_ends (y :: ys) (List.cons_ne_nil _ _)
  have hw' : (pipeRows (y :: ys)).dropWhile isSpace = (w.dropWhile isSpace ++ ['|']) ++ ['\n'] := by
    rw [hw, show w ++ ['|', '\n'] = w ++ '|' :: ['\n'] from rfl, dropWhile_append_cons_of_not hbar]
    simp
  have ht : trimSpace (pipeRows (y :: ys)) = w.dropWhile isSpace ++ ['|'] := by
    rw [trimSpace, hw', dropWhileRight_append_of (by decide), dropWhileRight_append_of_not hbar]
  have hy : '\n' ∉ y.dropWhile isSpace ++ ['|'] := by
    simp only [List.mem_append, List.mem_singleton, not_or]
    exact ⟨fun e => h y (List.mem_cons_self _ _) ((List.dropWhile_suffix _).subset e), by decide⟩
  have e : y.dropWhile isSpace ++ '|' :: '\n' :: pipeRows ys =
      (y.dropWhile isSpace ++ ['|']) ++ '\n' :: pipeRows ys := by simp
  have h0 : ([] : List Char).splitOn '\n' = [[]] := rfl
  have hsplit := congrArg (List.splitOn '\n') (hd.symm.trans hw')
  rw [← ht, splitOn_append_cons, h0, e, splitOn_append_cons, splitOn_of_not_mem hy,
    splitOn_pipeRows fun z hz => h z (List.mem_cons_of_mem _ hz), ← List.append_assoc] at hsplit
  exact (List.append_cancel_right hsplit).symm

/-- A row `z|` is two fields, `z` and the empty field. -/
theorem splitOn_pipe_row {z : List Char} (hz : '|' ∉ z) : (z ++ ['|']).splitOn '|' = [z, []] := by
  rw [show z ++ ['|'] = z ++ '|' :: [] from rfl, splitOn_append_cons, splitOn_of_not_mem hz]
  rfl

theorem foldl_empty_second (zs : List (List Char)) :
    (zs.map fun z => [z, []]).foldl (fun totalGpus record =>
      if record.length < 2 then totalGpus
      else totalGpus + parseGresGpuCount (trimSpace (record.getD 1 []))) 0 = 0 := by
  have h0 : parseGresGpuCount (trimSpace []) = F64.posZero :=
    (parseGresGpuCountWith_sentinel (.inl rfl)).trans F64.zero_eq
  rw [List.foldl_map]
  refine List.foldl_fixed' (fun z => ?_) zs
  have hlen : ¬ [z, []].length < 2 := by simp
  simp only [hlen, if_false]
  exact (congrArg _ h0).trans (F64.add_posZero F64.zero_ne_negZero)

theorem SinfoGres.not_mem_columns {gs : List (List Char)} (hg : ∀ g ∈ gs, SinfoGres g) {c : Char}
    (hc : c ∈ ['|', '"', '\n', '\r']) : ∀ y ∈ gs.map gresColumn, c ∉ y := by
  intro y hy
  obtain ⟨g, hgs, rfl⟩ := List.mem_map.mp hy
  exact (hg g hgs).not_mem_gresColumn hc

theorem lines_sinfoGresOutput {g : List Char} {gs : List (List Char)}
    (hg : ∀ g' ∈ g :: gs, SinfoGres g') :
    (trimSpace (sinfoGresOutput (g :: gs))).splitOn '\n' =
      ((gresColumn g).dropWhile isSpace :: gs.map gresColumn).map (· ++ ['|']) :=
  splitOn_trimSpace_pipeRows (SinfoGres.not_mem_columns hg (by decide))

/-- `encoding/csv` reads the trimmed rows of `sinfo -h -O Gres:30|` as records of two fields, the
second one empty. -/
theorem readAll_sinfoGresOutput {g : List Char} {gs : List (List Char)}
    (hg : ∀ g' ∈ g :: gs, SinfoGres g') :
    Csv.readAll '|' (trimSpace (sinfoGresOutput (g :: gs))) =
      .ok (((gresColumn g).dropWhile isSpace :: gs.map gresColumn).map fun z => [z, []]) := by
  have hcol : ∀ c ∈ ['|', '"', '\n', '\r'], ∀ y ∈ (g :: gs).map gresColumn, c ∉ y :=
    fun _ hc => SinfoGres.not_mem_columns hg hc
  have hbar : ∀ z ∈ (gresColumn g).dropWhile isSpace :: gs.map gresColumn, '|' ∉ z :=
    List.forall_mem_cons.mpr ⟨fun h => hcol '|' (by decide) _ (List.mem_cons_self _ _)
        ((List.dropWhile_suffix _).subset h),
      fun z hz => hcol '|' (by decide) z (List.mem_cons_of_mem _ hz)⟩
  have hout : ∀ c ∈ ['"', '\r'], c ∉ trimSpace (sinfoGresOutput (g :: gs)) := by
    intro c hc h
    rcases mem_pipeRows ((trimSpace_sublist _).subset h) with ⟨y, hy, h⟩ | h | h
    · exact hcol c (by simp only [List.mem_cons] at hc ⊢; tauto) y hy h
    all_goals (subst h; revert hc; decide)
  rw [@Csv.readAll_plain '|' (by decide) _ (hout '"' (by decide)) (hout '\r' (by decide)) 2 (by
      rw [lines_sinfoGresOutput hg]
      intro l hl _
      obtain ⟨z, hz, rfl⟩ := List.mem_map.mp hl
      rw [splitOn_pipe_row (hbar z hz)]; rfl),
    lines_sinfoGresOutput hg, List.filter_eq_self.mpr (by simp), List.map_map]
  exact congrArg Except.ok (List.map_congr_left fun z hz => splitOn_pipe_row (hbar z hz))

theorem GpuCliFallbackFetcher.fetchTotalGpus_gresRows {gs : List (List Char)}
    (hg : ∀ g ∈ gs, SinfoGres g) :
    GpuCliFallbackFetcher.fetchTotalGpus (.ok (sinfoGresOutput gs)) = (.ok 0, 0) := by
  cases gs with
  | nil => rfl
  | cons g gs =>
    have hne : trimSpace (sinfoGresOutput (g :: gs)) ≠ [] := fun h => by
      simpa [h] using lines_sinfoGresOutput hg
    simp only [GpuCliFallbackFetcher.fetchTotalGpus, hne, if_false, readAll_sinfoGresOutput hg,
      foldl_empty_second]

/-- On the output of `sinfo -h -O Gres:30|` the fallback total is `0`, while the JSON
fetcher sums the nodes' counts. -/
theorem fetchTotalGpus_sinfoGresOutput {gs : List (List Char)} (hg : ∀ g ∈ gs, SinfoGres g)
    {unmarshal : List Char → Except (List Char) SinfoGpuResponse} {doc : List Char}
    (hdoc : unmarshal doc = .ok ⟨[], gs.map SinfoGpuNode.mk⟩) :
    GpuCliFallbackFetcher.fetchTotalGpus (.ok (sinfoGresOutput gs)) = (.ok 0, 0) ∧
      GpuJsonFetcher.fetchTotalGpus unmarshal (.ok doc) =
        (.ok ((gs.map parseGresGpuCount).foldl (· + ·) 0), 0) := by
  refine ⟨GpuCliFallbackFetcher.fetchTotalGpus_gresRows hg, ?_⟩
  rw [GpuJsonFetcher.fetchTotalGpus_ok hdoc rfl, List.map_map]; rfl

/-- One node with `gpu:2`: the fallback reports `0` GPUs where the JSON fetcher reports `2`. -/
theorem fetchTotalGpus_sinfoGresOutput_gpu2 :
    GpuCliFallbackFetcher.fetchTotalGpus (.ok (sinfoGresOutput ["gpu:2".toList])) = (.ok 0, 0) ∧
      GpuJsonFetcher.fetchTotalGpus (fun _ => .ok ⟨[], [⟨"gpu:2".toList⟩]⟩) (.ok []) =
        (.ok 2, 0) := by
  obtain ⟨h1, h2⟩ := @fetchTotalGpus_sinfoGresOutput ["gpu:2".toList] (by decide)
    (fun _ => .ok ⟨[], [⟨"gpu:2".toList⟩]⟩) [] rfl
  exact ⟨h1, h2.trans (by decide)⟩

end FallbackTotal

/-! ## The allocated GPUs of the fallback

`fetchAllocatedGpus` of the fallback skips the lines that are empty once trimmed, where the JSON
fetcher scores an empty `allocated_gres` as `0.0`. A sum from `0.0` does not see `0.0` terms
(`F64.foldl_add_eq_of_filter`), so the two agree on every list of jobs. -/

section FallbackAlloc

theorem parseGresGpuCount_nil : parseGresGpuCount [] = F64.posZero :=
  (parseGresGpuCountWith_sentinel (.inl rfl)).trans F64.zero_eq

theorem foldl_trimmed_lines (f : List Char → F64) (a : F64) (ls : List (List Char)) :
    ls.foldl (fun allocGpus line =>
      if trimSpace line = [] then allocGpus else allocGpus + f (trimSpace line)) a =
      (((ls.map trimSpace).filter (· ≠ [])).map f).foldl (· + ·) a := by
  induction ls generalizing a with
  | nil => rfl
  | cons l ls ih =>
    by_cases h : trimSpace l = []
    · simp only [List.foldl_cons, h, if_true, ih, List.map_cons, ne_eq, not_true_eq_false,
        decide_False, List.filter_cons_of_neg, Bool.false_eq_true, not_false_eq_true]
    · simp only [List.foldl_cons, h, if_false, ih, List.map_cons, ne_eq, not_false_eq_true,
        decide_True, List.filter_cons_of_pos]

/-- `GpuCliFallbackFetcher.fetchAllocatedGpus` sums the counts of the non-empty trimmed lines of
the output, their quotes trimmed. -/
theorem GpuCliFallbackFetcher.fetchAllocatedGpus_ok (out : List Char) :
    GpuCliFallbackFetcher.fetchAllocatedGpus (.ok out) =
      (.ok (((trimLines out).map fun l => parseGresGpuCount (trim l ['"'])).foldl (· + ·) 0),
        0) := by
  rw [← trimLines_trimSpace]
  dsimp only [GpuCliFallbackFetcher.fetchAllocatedGpus]
  by_cases h : trimSpace out = []
  · rw [if_pos h, h]; rfl
  · rw [if_neg h]
    exact congrArg (fun t => (Except.ok t, 0))
      (foldl_trimmed_lines (fun l => parseGresGpuCount (trim l ['"'])) 0 _)

/-- The output of `sacct ... --noheader --parsable2` for jobs with these allocated GRES strings,
with or without a final newline. -/
def sacctOutput (js : List (List Char)) (trailing : Bool) : List Char :=
  ['\n'].intercalate js ++ if trailing then ['\n'] else []

/-- An allocated GRES string as one line of `sacct --parsable2`: no line break, and neither white
space nor a quote at either end. -/
def SacctGres (j : List Char) : Prop :=
  '\n' ∉ j ∧ (∀ c ∈ j.head?, isSpace c = false ∧ c ≠ '"') ∧
    ∀ c ∈ j.getLast?, isSpace c = false ∧ c ≠ '"'

instance : DecidablePred SacctGres := fun j =>
  inferInstanceAs (Decidable ('\n' ∉ j ∧ (∀ c ∈ j.head?, isSpace c = false ∧ c ≠ '"') ∧
    ∀ c ∈ j.getLast?, isSpace c = false ∧ c ≠ '"'))

theorem SacctGres.trimSpace_eq {j : List Char} (h : SacctGres j) : trimSpace j = j :=
  trimSpace_eq_self (fun c hc => (h.2.1 c hc).1) (fun c hc => (h.2.2 c hc).1)

theorem SacctGres.trim_eq {j : List Char} (h : SacctGres j) : trim j ['"'] = j :=
  trim_eq_self (fun c hc => by simpa using (h.2.1 c hc).2)
    (fun c hc => by simpa using (h.2.2 c hc).2)

theorem trimLines_sacctOutput {js : List (List Char)} (hj : ∀ j ∈ js, SacctGres j)
    (trailing : Bool) : trimLines (sacctOutput js trailing) = js.filter (· ≠ []) := by
  have hbody : trimLines (['\n'].intercalate js) = js.filter (· ≠ []) := by
    cases js with
    | nil => rfl
    | cons j js =>
      rw [trimLines, List.splitOn_intercalate _ '\n' (fun j hj' => (hj j hj').1)
          (List.cons_ne_nil _ _),
          (List.map_congr_left fun j hj' => (hj j hj').trimSpace_eq).trans (List.map_id _)]
  cases trailing
  · simpa [sacctOutput] using hbody
  · rw [sacctOutput, if_pos rfl, trimLines_append_space (by decide), hbody]

theorem filter_map_parseGresGpuCount (l : List (List Char)) :
    ((l.filter (· ≠ [])).map parseGresGpuCount).filter (· ≠ F64.posZero) =
      (l.map parseGresGpuCount).filter (· ≠ F64.posZero) := by
  induction l with
  | nil => rfl
  | cons j l ih =>
    by_cases hj : j = []
    · subst hj; simpa [parseGresGpuCount_nil] using ih
    · rw [List.filter_cons_of_pos (by simpa using hj)]
      simp only [List.map_cons, List.filter_cons, ih]

/-- On the output of `sacct ... --parsable2` the fallback's allocated GPUs are the JSON
fetcher's, whatever empty lines it holds. -/
theorem fetchAllocatedGpus_sacctOutput {js : List (List Char)} (hj : ∀ j ∈ js, SacctGres j)
    (trailing : Bool) {unmarshal : List Char → Except (List Char) SacctGpuResponse}
    {doc : List Char} (hdoc : unmarshal doc = .ok ⟨[], js.map SacctGpuJob.mk⟩) :
    GpuCliFallbackFetcher.fetchAllocatedGpus (.ok (sacctOutput js trailing)) =
      GpuJsonFetcher.fetchAllocatedGpus unmarshal (.ok doc) := by
  rw [GpuCliFallbackFetcher.fetchAllocatedGpus_ok, trimLines_sacctOutput hj,
    GpuJsonFetcher.fetchAllocatedGpus_ok hdoc rfl, List.map_map,
    List.map_congr_left fun j hj' => congrArg parseGresGpuCount
      (hj j (List.mem_of_mem_filter hj')).trim_eq]
  exact congrArg (fun t => (Except.ok t, 0))
    (F64.foldl_add_eq_of_filter (filter_map_parseGresGpuCount js))

/-- Empty lines in the middle and a final newline: the fallback and the JSON fetcher both count
`3`. -/
theorem fetchAllocatedGpus_sacctOutput_gaps :
    GpuCliFallbackFetcher.fetchAllocatedGpus
        (.ok (sacctOutput ["gpu:1".toList, [], "gpu:a100:2".toList] true)) =
      GpuJsonFetcher.fetchAllocatedGpus
        (fun _ => .ok ⟨[], ["gpu:1".toList, [], "gpu:a100:2".toList].map SacctGpuJob.mk⟩)
        (.ok []) :=
  fetchAllocatedGpus_sacctOutput (by decide) true rfl

end FallbackAlloc

end SlurmExporter
