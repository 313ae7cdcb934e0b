import SlurmExporter.Strconv

/-!
# `NewConfig`

`NewConfig` (`server.go`) turns the command-line flags and two environment variables into the
exporter's `Config`. It compiles the exclude pattern, fills in the defaults, and then applies, in
this order: `POLL_LIMIT`, the poll-limit flag, `LOGLEVEL`, the log-level flag, the listen address
and metrics path, the command overrides, the trace rate and path, the CLI fallback's commands for
the four commands it replaces, and last the job fetcher that the jobs and trace collectors share,
built from the poll limit and `squeue` command settled before it. `Config` holds pointers to
`cliOpts` and `traceConf`, so it holds their final values: the model builds it from those.

1. `newConfig_error`: `NewConfig` fails exactly on a pattern `regexp.Compile` rejects or a
   `POLL_LIMIT` that `ParseFloat` rejects;
2. `newConfig_settles`: a setting is its flag when that is set, else its environment variable
   when it has one and that is set, else its default; a command is its override split at spaces,
   else in fallback mode the CLI command for the four commands that have one, else the default;
3. `newConfig_pollLimit_decimal`: `POLL_LIMIT` set to decimal digits, leading zeros included,
   is the number they spell, unless the flag is positive.

`regexp.Compile` is a parameter: what it returns on the pattern. A compiled pattern is kept as its
source text, which is what `String()` returns.
-/

namespace SlurmExporter

set_option maxRecDepth 20000

open Go

/-! ## The data -/

/-- `slog.Level`, an `int`. -/
abbrev Level := ℤ

def levelDebug : Level := -4
def levelInfo : Level := 0
def levelWarn : Level := 4
def levelError : Level := 8

def logLevelMap : List (List Char × Level) :=
  [("debug".toList, levelDebug), ("info".toList, levelInfo), ("warn".toList, levelWarn),
    ("error".toList, levelError)]

/-- `logLevelMap[name]`: Go's map index gives the zero `Level`, `LevelInfo`, for a missing key. -/
def logLevelOf (name : List Char) : Level := (logLevelMap.lookup name).getD 0

/-- `CliFlags`. A field left unset is Go's zero value. -/
structure CliFlags where
  slurmLicEnabled : Bool := false
  slurmDiagEnabled : Bool := false
  slurmGpusEnabled : Bool := false
  slurmCliFallback : Bool := false
  traceEnabled : Bool := false
  sacctEnabled : Bool := false
  slurmPollLimit : F64 := 0
  logLevel : List Char := []
  listenAddress : List Char := []
  metricsPath : List Char := []
  slurmSqueueOverride : List Char := []
  slurmSinfoOverride : List Char := []
  slurmDiagOverride : List Char := []
  slurmAcctOverride : List Char := []
  slurmSinfoGpuOverride : List Char := []
  slurmSacctGpuOverride : List Char := []
  traceRate : UInt64 := 0
  tracePath : List Char := []
  slurmLicenseOverride : List Char := []
  metricsExcludeFilterRegex : List Char := []

/-- `CliOpts`; the compiled exclude pattern is kept as its source text. -/
structure CliOpts where
  sinfo : List (List Char)
  squeue : List (List Char)
  sacctmgr : List (List Char)
  lic : List (List Char)
  sdiag : List (List Char)
  sinfoGpu : List (List Char)
  sacctGpu : List (List Char)
  licEnabled : Bool
  diagsEnabled : Bool
  gpusEnabled : Bool
  fallback : Bool
  sacctEnabled : Bool
  excludeFilter : List Char
  deriving DecidableEq

/-- The job fetcher the jobs and trace collectors share, with its command and cache limit. -/
inductive SharedFetcher
  | jobCliFallbackFetcher (squeue : List (List Char)) (cacheLimit : F64)
  | jobJsonFetcher (squeue : List (List Char)) (cacheLimit : F64)
  deriving DecidableEq

structure TraceConfig where
  enabled : Bool
  path : List Char
  rate : UInt64
  sharedFetcher : SharedFetcher
  deriving DecidableEq

structure Config where
  traceConf : TraceConfig
  pollLimit : F64
  logLevel : Level
  listenAddress : List Char
  metricsPath : List Char
  cliOpts : CliOpts
  deriving DecidableEq

/-- The errors of `NewConfig`: `regexp.Compile`'s on the exclude pattern, and `ParseFloat`'s on
`POLL_LIMIT`. -/
inductive ConfigErr
  | regexp (msg : List Char)
  | pollLimit (e : Strconv.NumErr)
  deriving DecidableEq

/-! ## The commands -/

def squeueJson : List (List Char) := ["squeue".toList, "--json".toList]

def sinfoJson : List (List Char) := ["sinfo".toList, "--json".toList]

def licJson : List (List Char) := ["scontrol".toList, "show".toList, "lic".toList, "--json".toList]

def sdiagJson : List (List Char) := ["sdiag".toList, "--json".toList]

def sacctmgrDefault : List (List Char) :=
  ["sacctmgr".toList, "show".toList, "assoc".toList,
    "format=User,Account,GrpCPU,GrpMem,GrpJobs,GrpSubmit".toList, "--noheader".toList,
    "--parsable2".toList]

def sinfoGpuJson : List (List Char) := ["sinfo".toList, "--json".toList]

def sacctGpuJson : List (List Char) :=
  ["sacct".toList, "-a".toList, "-X".toList, "--format=AllocGRES".toList,
    "--state=RUNNING".toList, "--json".toList]

/-- The `squeue` command of the CLI fallback, printing one JSON object per job. -/
def squeueFallback : List (List Char) :=
  ["squeue".toList, "--states=all".toList, "-h".toList, "-r".toList, "-o".toList,
    ("\x7b\"a\": \"%a\", \"id\": %A, \"end_time\": \"%e\", \"u\": \"%u\", \"state\": \"%T\", " ++
      "\"p\": \"%P\", \"cpu\": %C, \"mem\": \"%m\", \"array_id\": \"%K\", \"r\": \"%R\"\x7d").toList]

def sinfoFallback : List (List Char) :=
  ["sinfo".toList, "-h".toList, "-O".toList,
    ("StateCompact:12|,Memory:15|,NodeHost:30|,CPUsLoad:12|,Partition:15|,FreeMem:15|," ++
      "CPUsState:15|,Weight:10|,AllocMem:15").toList]

def sinfoGpuFallback : List (List Char) :=
  ["sinfo".toList, "-h".toList, "-O".toList, "Gres:30|".toList]

def sacctGpuFallback : List (List Char) :=
  ["sacct".toList, "-a".toList, "-X".toList, "--format=AllocGRES".toList,
    "--state=RUNNING".toList, "--noheader".toList, "--parsable2".toList]

/-- An override: `strings.Split(override, " ")` when it is set, else the command. -/
def overrideCommand (override : List Char) (cmd : List (List Char)) : List (List Char) :=
  if override ≠ [] then override.splitOn ' ' else cmd

/-- The fallback block's replacement: the CLI command when there is no override. -/
def fallbackCommand (override : List Char) (cli cmd : List (List Char)) : List (List Char) :=
  if override = [] then cli else cmd

/-! ## `NewConfig` -/

/-- `POLL_LIMIT` as `ParseFloat` reads it when it is set, else the default `10`. -/
def envPollLimit (lookupEnv : List Char → Option (List Char)) : Except Strconv.NumErr F64 :=
  match lookupEnv "POLL_LIMIT".toList with
  | some lm => Strconv.parseFloat lm
  | none => .ok 10

/-- `NewConfig`. `excludeFilter` is what `regexp.Compile` returns on the exclude pattern, and
`lookupEnv` is `os.LookupEnv`. -/
def newConfig (cliFlags : CliFlags) (excludeFilter : Except (List Char) Unit)
    (lookupEnv : List Char → Option (List Char)) : Except ConfigErr Config :=
  match excludeFilter with
  | .error err => .error (.regexp err)
  | .ok () =>
    match envPollLimit lookupEnv with
    | .error err => .error (.pollLimit err)
    | .ok pollLimit =>
      let pollLimit := if 0 < cliFlags.slurmPollLimit then cliFlags.slurmPollLimit else pollLimit
      let logLevel := match lookupEnv "LOGLEVEL".toList with
        | some lvl => logLevelOf lvl
        | none => levelInfo
      let logLevel := if cliFlags.logLevel ≠ [] then logLevelOf cliFlags.logLevel else logLevel
      let listenAddress :=
        if cliFlags.listenAddress ≠ [] then cliFlags.listenAddress else ":9092".toList
      let metricsPath := if cliFlags.metricsPath ≠ [] then cliFlags.metricsPath else "/metrics".toList
      let squeue := overrideCommand cliFlags.slurmSqueueOverride squeueJson
      let sinfo := overrideCommand cliFlags.slurmSinfoOverride sinfoJson
      let sdiag := overrideCommand cliFlags.slurmDiagOverride sdiagJson
      let sacctmgr := overrideCommand cliFlags.slurmAcctOverride sacctmgrDefault
      let rate := if cliFlags.traceRate ≠ 0 then cliFlags.traceRate else 10
      let path := if cliFlags.tracePath ≠ [] then cliFlags.tracePath else "/trace".toList
      let lic := overrideCommand cliFlags.slurmLicenseOverride licJson
      let sinfoGpu := overrideCommand cliFlags.slurmSinfoGpuOverride sinfoGpuJson
      let sacctGpu := overrideCommand cliFlags.slurmSacctGpuOverride sacctGpuJson
      let fallback := cliFlags.slurmCliFallback
      let squeue :=
        if fallback then fallbackCommand cliFlags.slurmSqueueOverride squeueFallback squeue
        else squeue
      let sinfo :=
        if fallback then fallbackCommand cliFlags.slurmSinfoOverride sinfoFallback sinfo else sinfo
      let sinfoGpu := if fallback then
          fallbackCommand cliFlags.slurmSinfoGpuOverride sinfoGpuFallback sinfoGpu
        else sinfoGpu
      let sacctGpu := if fallback then
          fallbackCommand cliFlags.slurmSacctGpuOverride sacctGpuFallback sacctGpu
        else sacctGpu
      let sharedFetcher := if fallback then .jobCliFallbackFetcher squeue pollLimit
        else .jobJsonFetcher squeue pollLimit
      .ok { traceConf := ⟨cliFlags.traceEnabled, path, rate, sharedFetcher⟩,
            pollLimit, logLevel, listenAddress, metricsPath,
            cliOpts :=
              { sinfo, squeue, sacctmgr, lic, sdiag, sinfoGpu, sacctGpu,
                licEnabled := cliFlags.slurmLicEnabled, diagsEnabled := cliFlags.slurmDiagEnabled,
                gpusEnabled := cliFlags.slurmGpusEnabled, fallback,
                sacctEnabled := cliFlags.sacctEnabled,
                excludeFilter := cliFlags.metricsExcludeFilterRegex } }
/-! ## What `NewConfig` settles -/

/-- A command as `NewConfig` settles it: override, else the CLI command in fallback mode, else
the default. -/
def settledCommand (fallback : Bool) (override : List Char) (cli cmd : List (List Char)) :
    List (List Char) :=
  if override ≠ [] then override.splitOn ' ' else if fallback then cli else cmd

theorem fallback_overrideCommand (fallback : Bool) (override : List Char)
    (cli cmd : List (List Char)) :
    (if fallback then fallbackCommand override cli (overrideCommand override cmd)
      else overrideCommand override cmd) = settledCommand fallback override cli cmd := by
  by_cases ho : override = [] <;> cases fallback <;>
    simp [fallbackCommand, overrideCommand, settledCommand, ho]

theorem logLevelOf_of_not_mem {name : List Char} (hn : name ∉ logLevelMap.map Prod.fst) :
    logLevelOf name = levelInfo := by
  unfold logLevelOf
  rw [List.lookup_eq_none_iff.mpr fun p hp =>
    bne_iff_ne.mpr fun he => hn (by rw [he]; exact List.mem_map_of_mem Prod.fst hp)]
  rfl

theorem envPollLimit_ok {lookupEnv : List Char → Option (List Char)} {limit : F64}
    (h : envPollLimit lookupEnv = .ok limit) :
    lookupEnv "POLL_LIMIT".toList = none ∧ limit = 10 ∨
      ∃ lm, lookupEnv "POLL_LIMIT".toList = some lm ∧ Strconv.parseFloat lm = .ok limit := by
  unfold envPollLimit at h
  split at h
  · exact .inr ⟨_, ‹_›, h⟩
  · exact .inl ⟨‹_›, (Except.ok.inj h).symm⟩

section
variable {cliFlags : CliFlags} {excludeFilter : Except (List Char) Unit}
  {lookupEnv : List Char → Option (List Char)} {cfg : Config}

/-- Every setting of a successful `NewConfig`: its flag when set, else its environment
variable, else its default. -/
theorem newConfig_settles (h : newConfig cliFlags excludeFilter lookupEnv = .ok cfg) :
    excludeFilter = .ok () ∧
    (∃ limit, (lookupEnv "POLL_LIMIT".toList = none ∧ limit = 10 ∨
        ∃ lm, lookupEnv "POLL_LIMIT".toList = some lm ∧ Strconv.parseFloat lm = .ok limit) ∧
      cfg.pollLimit = if 0 < cliFlags.slurmPollLimit then cliFlags.slurmPollLimit else limit) ∧
    cfg.logLevel = (if cliFlags.logLevel ≠ [] then logLevelOf cliFlags.logLevel
      else (lookupEnv "LOGLEVEL".toList).elim levelInfo logLevelOf) ∧
    cfg.listenAddress =
      (if cliFlags.listenAddress ≠ [] then cliFlags.listenAddress else ":9092".toList) ∧
    cfg.metricsPath = (if cliFlags.metricsPath ≠ [] then cliFlags.metricsPath else "/metrics".toList) ∧
    cfg.cliOpts =
      { sinfo := settledCommand cliFlags.slurmCliFallback cliFlags.slurmSinfoOverride
          sinfoFallback sinfoJson,
        squeue := settledCommand cliFlags.slurmCliFallback cliFlags.slurmSqueueOverride
          squeueFallback squeueJson,
        sacctmgr := overrideCommand cliFlags.slurmAcctOverride sacctmgrDefault,
        lic := overrideCommand cliFlags.slurmLicenseOverride licJson,
        sdiag := overrideCommand cliFlags.slurmDiagOverride sdiagJson,
        sinfoGpu := settledCommand cliFlags.slurmCliFallback cliFlags.slurmSinfoGpuOverride
          sinfoGpuFallback sinfoGpuJson,
        sacctGpu := settledCommand cliFlags.slurmCliFallback cliFlags.slurmSacctGpuOverride
          sacctGpuFallback sacctGpuJson,
        licEnabled := cliFlags.slurmLicEnabled, diagsEnabled := cliFlags.slurmDiagEnabled,
        gpusEnabled := cliFlags.slurmGpusEnabled, fallback := cliFlags.slurmCliFallback,
        sacctEnabled := cliFlags.sacctEnabled,
        excludeFilter := cliFlags.metricsExcludeFilterRegex } ∧
    cfg.traceConf = ⟨cliFlags.traceEnabled,
      if cliFlags.tracePath ≠ [] then cliFlags.tracePath else "/trace".toList,
      if cliFlags.traceRate ≠ 0 then cliFlags.traceRate else 10,
      if cfg.cliOpts.fallback then .jobCliFallbackFetcher cfg.cliOpts.squeue cfg.pollLimit
        else .jobJsonFetcher cfg.cliOpts.squeue cfg.pollLimit⟩ := by
  rcases excludeFilter with e | ⟨⟩
  · cases h
  cases hl : envPollLimit lookupEnv with
  | error e => simp only [newConfig, hl, reduceCtorEq] at h
  | ok limit =>
    simp only [newConfig, hl, Except.ok.injEq] at h
    subst h
    refine ⟨rfl, ⟨limit, envPollLimit_ok hl, by dsimp only⟩, ?_, rfl, rfl, ?_, by dsimp only⟩
    · cases lookupEnv "LOGLEVEL".toList <;> rfl
    · simp only [fallback_overrideCommand]

/-- `POLL_LIMIT` set to decimal digits is the number they spell, as a `float64`, unless the flag
is positive; a number whose `float64` is infinite is an error. -/
theorem newConfig_pollLimit_decimal (ds : List Char) (hne : ds ≠ [])
    (hds : ∀ c ∈ ds, Strconv.isDigit c = true) (henv : lookupEnv "POLL_LIMIT".toList = some ds) :
    (newConfig cliFlags (.ok ()) lookupEnv).map Config.pollLimit =
      if (F64.ofNat (Strconv.decimalValue ds)).isFinite then
        .ok (if 0 < cliFlags.slurmPollLimit then cliFlags.slurmPollLimit
          else F64.ofNat (Strconv.decimalValue ds))
      else .error (.pollLimit .errRange) := by
  have hp : envPollLimit lookupEnv = Strconv.parseFloat ds := by unfold envPollLimit; rw [henv]
  rw [Strconv.parseFloat_decimal hne hds] at hp
  unfold newConfig
  rw [hp]
  by_cases hf : (F64.ofNat (Strconv.decimalValue ds)).isFinite = true
  · rw [if_pos hf, if_pos hf]; rfl
  · rw [if_neg hf, if_neg hf]; rfl

theorem newConfig_pollLimit_leading_zeros :
    (newConfig {} (.ok ()) fun _ => some "0025".toList).map Config.pollLimit = .ok 25 :=
  Eq.trans (newConfig_pollLimit_decimal "0025".toList (by decide) (by decide) rfl) (by decide)

/-- `NewConfig` fails exactly on a pattern that does not compile or a `POLL_LIMIT`
`ParseFloat` rejects. -/
theorem newConfig_error (err : ConfigErr) :
    newConfig cliFlags excludeFilter lookupEnv = .error err ↔
      (∃ e, excludeFilter = .error e ∧ err = .regexp e) ∨
      (excludeFilter = .ok () ∧ ∃ lm e, lookupEnv "POLL_LIMIT".toList = some lm ∧
        Strconv.parseFloat lm = .error e ∧ err = .pollLimit e) := by
  constructor
  · intro h
    rcases excludeFilter with e | ⟨⟩
    · exact .inl ⟨e, rfl, (Except.error.inj h).symm⟩
    refine .inr ⟨rfl, ?_⟩
    cases hp : lookupEnv "POLL_LIMIT".toList with
    | none => simp only [newConfig, envPollLimit, hp, reduceCtorEq] at h
    | some lm =>
      cases hq : Strconv.parseFloat lm with
      | error e =>
        simp only [newConfig, envPollLimit, hp, hq, Except.error.injEq] at h
        exact ⟨lm, e, rfl, hq, h.symm⟩
      | ok limit => simp only [newConfig, envPollLimit, hp, hq, reduceCtorEq] at h
  · rintro (⟨e, rfl, rfl⟩ | ⟨rfl, lm, e, hp, hq, rfl⟩)
    · rfl
    · simp only [newConfig, envPollLimit, hp, hq]

end

end SlurmExporter
