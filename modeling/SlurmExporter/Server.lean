import SlurmExporter.Config

/-!
# `InitPromServer` and `NewPromHTTPServer`

`InitPromServer` (`server.go`) gives `slog` a default handler of the configured level, registers
the node and jobs collectors with `prometheus.MustRegister`, and then, each when its setting is
on, the trace collector (after routing its upload handler at the trace path with
`http.HandleFunc`) and the licence, diagnostics, account-limit and GPU collectors, logging a line
at `LevelInfo` for each. It returns `NewPromHTTPServer`'s handler for the exclude pattern. The
`cext` package's `InitPromServer` registers the node and jobs collectors only, with C fetchers,
and returns `promhttp.Handler()`.

The state these calls change is a `Process`: the level of the default logger, the records it
wrote, the collectors of `prometheus.DefaultRegisterer` and the patterns of
`http.DefaultServeMux`. `MustRegister` panics on a collector already registered and `HandleFunc`
on an empty pattern or one already routed; a panic is the `Except`'s error.

1. `initPromServer_eq`: `InitPromServer` runs one registration per collector kind, in order;
   `Registration.run_eq_ok` says what one does, `foldlM_run_eq_ok` what a sequence does;
2. `initPromServer_eq_ok`: `InitPromServer` returns exactly when none of the collectors the
   configuration enables is registered yet and, with tracing on, the trace path is a new,
   non-empty pattern; it then leaves `Process.started`;
3. `initPromServer_twice`, `newConfig_initPromServer`: a second start-up panics, and every
   configuration `NewConfig` returns starts in a fresh process;
4. `serve_newPromHTTPServer`: a scrape serves what the default gatherer returns, less the
   families whose name a non-empty exclude pattern matches;
5. `cext_initPromServer`: the `cext` start-up is the exporter's with the optional settings off;
6. `newConfig_startupLog`: the start-up lines are written unless the level's name is exactly
   `warn` or `error`.

Collectors are told apart by kind: two collectors of one kind describe the same metrics, which is
what makes `Register` refuse the second. Clashes between the descriptors of different kinds and
the pattern syntax of newer `net/http` versions are not modelled. A compiled pattern is its source
text, and its `MatchString` is a parameter.
-/

namespace SlurmExporter

/-! ## The process -/

/-- The collectors `InitPromServer` can register. -/
inductive CollectorKind
  | node | jobs | trace | lic | diags | limit | gpu
  deriving DecidableEq, Repr

inductive Panic
  /-- `Register`'s `AlreadyRegisteredError`, which `MustRegister` panics with. -/
  | alreadyRegistered (c : CollectorKind)
  /-- `http: invalid pattern`. -/
  | invalidPattern
  /-- `http: multiple registrations for ` the pattern. -/
  | multipleRegistrations (pattern : List Char)
  deriving DecidableEq

/-- The process-wide state the start-up calls change. -/
structure Process where
  /-- The level of `slog`'s default handler. -/
  logLevel : Level
  /-- The records it wrote, with their level. -/
  log : List (Level × List Char)
  /-- The collectors of `prometheus.DefaultRegisterer`. -/
  registry : List CollectorKind
  /-- The patterns of `http.DefaultServeMux`. -/
  mux : List (List Char)
  deriving DecidableEq

namespace Process

def setDefault (p : Process) (level : Level) : Process := { p with logLevel := level }

/-- `slog.Info(msg)`: the handler writes a record whose level is at least its own. -/
def info (p : Process) (msg : List Char) : Process :=
  if p.logLevel ≤ levelInfo then { p with log := p.log ++ [(levelInfo, msg)] } else p

/-- `prometheus.MustRegister(c)`; that collectors clash exactly when of one kind is assumed of
`client_golang`, not under `src/`. -/
def mustRegister (p : Process) (c : CollectorKind) : Except Panic Process :=
  if c ∈ p.registry then .error (.alreadyRegistered c)
  else .ok { p with registry := p.registry ++ [c] }

/-- `http.HandleFunc`, with the `net/http` rules assumed (not under `src/`): an empty or routed
pattern panics. -/
def handleFunc (p : Process) (pattern : List Char) : Except Panic Process :=
  if pattern = [] then .error .invalidPattern
  else if pattern ∈ p.mux then .error (.multipleRegistrations pattern)
  else .ok { p with mux := p.mux ++ [pattern] }

theorem info_eq (p : Process) (msg : List Char) :
    p.info msg =
      { p with log := p.log ++ if p.logLevel ≤ levelInfo then [(levelInfo, msg)] else [] } := by
  unfold info; split <;> simp

end Process

/-! ## `NewPromHTTPServer` -/

/-- The handler `NewPromHTTPServer` returns: `promhttp.Handler()`, or `promhttp.HandlerFor` the
`GathererFunc` that drops the families the exclude pattern matches. -/
inductive Handler
  | promhttp
  | filtered (excludeFilter : List Char)
  deriving DecidableEq

/-- `NewPromHTTPServer`; `none` is a nil pattern. -/
def newPromHTTPServer (metricsExcludeFilter : Option (List Char)) (p : Process) :
    Process × Handler :=
  match metricsExcludeFilter with
  | none => (p, .promhttp)
  | some f =>
    if f = [] then (p, .promhttp)
    else (p.info ("filtering metrics based on regex: ".toList ++ f), .filtered f)

section Gather
variable {MF E : Type} (getName : MF → List Char)

/-- The exclude filter's `GathererFunc`; `matchString` is the compiled pattern's `MatchString`. -/
def filteredGatherer (matchString : List Char → Bool) (gather : Except E (List MF)) :
    Except E (List MF) := do
  let allMetrics ← gather
  pure (allMetrics.foldl (fun filteredMetrics mf =>
    if !matchString (getName mf) then filteredMetrics ++ [mf] else filteredMetrics) [])

/-- What a scrape of the handler serves, from what the default gatherer returns. -/
def Handler.serve (matchString : List Char → List Char → Bool) :
    Handler → Except E (List MF) → Except E (List MF)
  | .promhttp, gather => gather
  | .filtered f, gather => filteredGatherer getName (matchString f) gather

theorem foldl_filteredMetrics (keep : MF → Bool) (acc ms : List MF) :
    ms.foldl (fun acc mf => if keep mf then acc ++ [mf] else acc) acc = acc ++ ms.filter keep := by
  induction ms generalizing acc with
  | nil => simp
  | cons mf ms ih => by_cases h : keep mf <;> simp [ih, h, List.filter_cons]

/-- A scrape serves the gathered families less those a non-empty exclude pattern matches. -/
theorem serve_newPromHTTPServer (matchString : List Char → List Char → Bool)
    (metricsExcludeFilter : Option (List Char)) (p : Process) (gather : Except E (List MF)) :
    (newPromHTTPServer metricsExcludeFilter p).2.serve getName matchString gather =
      if metricsExcludeFilter.getD [] = [] then gather
      else (List.filter fun mf => !matchString (metricsExcludeFilter.getD []) (getName mf)) <$>
        gather := by
  rcases metricsExcludeFilter with _ | f
  · rfl
  by_cases hf : f = []
  · simp [newPromHTTPServer, hf, Handler.serve]
  · simp only [newPromHTTPServer, hf, if_false, Handler.serve, filteredGatherer, Option.getD]
    cases gather
    · rfl
    · exact congrArg Except.ok (foldl_filteredMetrics (fun mf => !matchString f (getName mf)) [] _)

end Gather

/-! ## `InitPromServer` -/

/-- One of `InitPromServer`'s optional collectors: when `enabled`, log `msg` and register `c`. -/
def registerIf (enabled : Bool) (msg : List Char) (c : CollectorKind) (p : Process) :
    Except Panic Process :=
  if enabled then (p.info msg).mustRegister c else pure p

/-- `InitPromServer`. -/
def initPromServer (config : Config) (p : Process) : Except Panic (Process × Handler) := do
  let p := p.setDefault config.logLevel
  let p ← p.mustRegister .node
  let p ← p.mustRegister .jobs
  let traceconf := config.traceConf
  let p ← if traceconf.enabled then do
      let p :=
        p.info ("trace path enabled at path: ".toList ++ config.listenAddress ++ traceconf.path)
      let p ← p.handleFunc traceconf.path
      p.mustRegister .trace
    else pure p
  let cliOpts := config.cliOpts
  let p ← registerIf cliOpts.licEnabled "licence collection enabled".toList .lic p
  let p ← registerIf cliOpts.diagsEnabled "daemon diagnostic collection enabled".toList .diags p
  let p ← registerIf cliOpts.sacctEnabled "account limit collection enabled".toList .limit p
  let p ← registerIf cliOpts.gpusEnabled "GPU metrics collection enabled".toList .gpu p
  pure (newPromHTTPServer (some cliOpts.excludeFilter) p)

/-! ## What `InitPromServer` sets up

`InitPromServer` is a sequence of registrations, one per collector it enables: the node and jobs
collectors, then each optional collector whose setting is on, after its log line and, for the
trace collector, its upload route. One registration panics or extends the process
(`Registration.run_eq_ok`); the sequence returns exactly when every registration finds its
collector and its route new (`foldlM_run_eq_ok`, `readyAll_iff`). -/

def optional {α : Type} (b : Bool) (x : α) : List α := if b then [x] else []

@[simp] theorem optional_true {α : Type} (x : α) : optional true x = [x] := rfl

@[simp] theorem optional_false {α : Type} (x : α) : optional false x = [] := rfl

@[simp] theorem mem_optional {α : Type} {b : Bool} {x y : α} :
    y ∈ optional b x ↔ b = true ∧ y = x := by
  cases b <;> simp [optional]

@[simp] theorem map_optional {α β : Type} (g : α → β) (b : Bool) (x : α) :
    (optional b x).map g = optional b (g x) := by
  cases b <;> rfl

theorem filterMap_optional {α β : Type} (f : α → Option β) (b : Bool) (x : α) :
    (optional b x).filterMap f = (f x).elim [] (optional b) := by
  cases b <;> cases h : f x <;> simp [optional, h]

theorem optional_sublist {α : Type} (b : Bool) (x : α) : List.Sublist (optional b x) [x] := by
  cases b <;> simp [optional]

theorem foldlM_optional {α β : Type} (f : β → α → Except Panic β) (b : Bool) (x : α) (a : β) :
    (optional b x).foldlM f a = if b then f a x else pure a := by
  cases b <;> simp [optional]

/-- One registration: log `msg`, route `pattern` and register `kind`. -/
structure Registration where
  kind : CollectorKind
  msg : Option (List Char)
  pattern : Option (List Char)

namespace Registration

def run (p : Process) (g : Registration) : Except Panic Process := do
  let p := match g.msg with
    | some msg => p.info msg
    | none => p
  let p ← match g.pattern with
    | some pattern => p.handleFunc pattern
    | none => pure p
  p.mustRegister g.kind

/-- What a registration needs: its route and its collector are new. -/
def Ready (p : Process) (g : Registration) : Prop :=
  (∀ pattern ∈ g.pattern, pattern ≠ [] ∧ pattern ∉ p.mux) ∧ g.kind ∉ p.registry

end Registration

def Process.add (p : Process) (g : Registration) : Process :=
  { p with
    log := p.log ++ if p.logLevel ≤ levelInfo then g.msg.toList.map (levelInfo, ·) else [],
    registry := p.registry ++ [g.kind], mux := p.mux ++ g.pattern.toList }

def ReadyAll : Process → List Registration → Prop
  | _, [] => True
  | p, g :: gs => g.Ready p ∧ ReadyAll (p.add g) gs

/-- The registrations `InitPromServer` makes for a configuration, in its order. -/
def registrations (config : Config) : List Registration :=
  [⟨.node, none, none⟩, ⟨.jobs, none, none⟩] ++
    optional config.traceConf.enabled ⟨.trace,
      some ("trace path enabled at path: ".toList ++ config.listenAddress ++ config.traceConf.path),
      some config.traceConf.path⟩ ++
    optional config.cliOpts.licEnabled ⟨.lic, some "licence collection enabled".toList, none⟩ ++
    optional config.cliOpts.diagsEnabled
      ⟨.diags, some "daemon diagnostic collection enabled".toList, none⟩ ++
    optional config.cliOpts.sacctEnabled
      ⟨.limit, some "account limit collection enabled".toList, none⟩ ++
    optional config.cliOpts.gpusEnabled ⟨.gpu, some "GPU metrics collection enabled".toList, none⟩

/-- `InitPromServer` is its registrations, run in order, then `NewPromHTTPServer`. -/
theorem initPromServer_eq (config : Config) (p : Process) :
    initPromServer config p =
      (registrations config).foldlM Registration.run (p.setDefault config.logLevel) >>=
        fun p => pure (newPromHTTPServer (some config.cliOpts.excludeFilter) p) := by
  by_cases ht : config.traceConf.enabled = true <;>
    simp only [initPromServer, registrations, registerIf, Registration.run, List.foldlM_append,
      foldlM_optional, List.foldlM_cons, List.foldlM_nil, bind_assoc, pure_bind, bind_pure, ht,
      if_true, Bool.false_eq_true, if_false]

/-- The collectors a configuration enables, in the order they are registered. -/
def enabledCollectors (config : Config) : List CollectorKind := (registrations config).map (·.kind)

/-- The lines `InitPromServer` logs at `LevelInfo`: its registrations', then the filter's. -/
def startupLog (config : Config) : List (List Char) :=
  (registrations config).filterMap (·.msg) ++
    optional (config.cliOpts.excludeFilter ≠ [])
      ("filtering metrics based on regex: ".toList ++ config.cliOpts.excludeFilter)

def servedHandler (config : Config) : Handler :=
  if config.cliOpts.excludeFilter = [] then .promhttp else .filtered config.cliOpts.excludeFilter

def Process.started (p : Process) (config : Config) : Process :=
  { logLevel := config.logLevel,
    log := p.log ++ if config.logLevel ≤ levelInfo
      then (startupLog config).map (levelInfo, ·) else [],
    registry := p.registry ++ enabledCollectors config,
    mux := p.mux ++ (registrations config).filterMap (·.pattern) }

theorem registrations_patterns (config : Config) :
    (registrations config).filterMap (·.pattern) =
      optional config.traceConf.enabled config.traceConf.path := by
  simp only [registrations, List.filterMap_append, filterMap_optional, List.filterMap_cons,
    List.filterMap_nil, Option.elim, List.append_nil, List.nil_append]

theorem registrations_kinds_nodup (config : Config) :
    ((registrations config).map (·.kind)).Nodup := by
  simp only [registrations, List.map_append, map_optional]
  refine List.Nodup.sublist ((((((List.Sublist.refl _).append (optional_sublist _ _)).append
    (optional_sublist _ _)).append (optional_sublist _ _)).append (optional_sublist _ _)).append
    (optional_sublist _ _)) (by decide)

section Stages
variable {α : Type} {p q : Process} {f : Process → Except Panic α} {r : α}

theorem mustRegister_eq_ok {c : CollectorKind} :
    p.mustRegister c = .ok q ↔ c ∉ p.registry ∧ q = { p with registry := p.registry ++ [c] } := by
  unfold Process.mustRegister; split <;> simp [*, eq_comm]

theorem handleFunc_bind {pattern : List Char} :
    p.handleFunc pattern >>= f = .ok r ↔
      pattern ≠ [] ∧ pattern ∉ p.mux ∧ f { p with mux := p.mux ++ [pattern] } = .ok r := by
  unfold Process.handleFunc; split_ifs <;> simp [*, bind, Except.bind]

/-- One registration panics, or extends the process by its line, route and collector. -/
theorem Registration.run_eq_ok {g : Registration} : g.run p = .ok q ↔ g.Ready p ∧ q = p.add g := by
  rcases g with ⟨kind, _ | msg, _ | pattern⟩ <;>
    simp [Registration.run, Registration.Ready, Process.add, Process.info_eq, mustRegister_eq_ok,
      handleFunc_bind, and_assoc]

/-- Registrations run in order return exactly when each is ready after those before it. -/
theorem foldlM_run_eq_ok : ∀ (gs : List Registration) (p q : Process),
    gs.foldlM Registration.run p = .ok q ↔ ReadyAll p gs ∧ q = gs.foldl Process.add p
  | [], p, q => by simp [ReadyAll, pure, Except.pure, eq_comm]
  | g :: gs, p, q => by
    simp only [List.foldlM_cons, except_bind_eq_ok, Registration.run_eq_ok, List.foldl_cons,
      ReadyAll, foldlM_run_eq_ok gs]
    constructor
    · rintro ⟨_, ⟨hg, rfl⟩, h⟩; exact ⟨⟨hg, h.1⟩, h.2⟩
    · rintro ⟨⟨hg, h⟩, rfl⟩; exact ⟨_, ⟨hg, rfl⟩, h, rfl⟩

theorem foldl_add (gs : List Registration) (p : Process) :
    gs.foldl Process.add p =
      { p with
        log := p.log ++ if p.logLevel ≤ levelInfo
          then (gs.filterMap (·.msg)).map (levelInfo, ·) else [],
        registry := p.registry ++ gs.map (·.kind),
        mux := p.mux ++ gs.filterMap (·.pattern) } := by
  induction gs generalizing p with
  | nil => split_ifs <;> simp
  | cons g gs ih =>
    rw [List.foldl_cons, ih]
    rcases g with ⟨kind, _ | msg, _ | pattern⟩ <;> by_cases hl : p.logLevel ≤ levelInfo <;>
      simp [Process.add, hl]

theorem Registration.ready_add {g g' : Registration} (hk : g'.kind ≠ g.kind)
    (hp : ∀ pattern ∈ g'.pattern, pattern ∉ g.pattern) : g'.Ready (p.add g) ↔ g'.Ready p := by
  simp only [Registration.Ready, Process.add, List.mem_append, List.mem_singleton,
    Option.mem_toList, hk, or_false]
  exact and_congr_left fun _ =>
    forall₂_congr fun pattern h => and_congr_right fun _ => by simp [hp pattern h]

/-- With distinct collectors and routes, each registration needs only the first process. -/
theorem readyAll_iff : ∀ {gs : List Registration}, (gs.map (·.kind)).Nodup →
    (gs.filterMap (·.pattern)).Nodup → ∀ p, ReadyAll p gs ↔ ∀ g ∈ gs, g.Ready p
  | [], _, _, _ => by simp [ReadyAll]
  | g :: gs, hk, hp, p => by
    rw [List.map_cons, List.nodup_cons] at hk
    have hpat : ∀ g' ∈ gs, ∀ pattern ∈ g'.pattern, pattern ∉ g.pattern := fun g' hg' x hx hxg => by
      rw [List.filterMap_cons, Option.mem_def.mp hxg] at hp
      exact (List.nodup_cons.mp hp).1 (List.mem_filterMap.mpr ⟨g', hg', hx⟩)
    have hp' : (gs.filterMap (·.pattern)).Nodup := by
      rw [List.filterMap_cons] at hp
      split at hp
      · exact hp
      · exact (List.nodup_cons.mp hp).2
    rw [ReadyAll, readyAll_iff hk.2 hp', List.forall_mem_cons]
    exact and_congr_right fun _ => forall₂_congr fun g' hg' =>
      Registration.ready_add (fun he => hk.1 (he ▸ List.mem_map_of_mem _ hg')) (hpat g' hg')

end Stages

theorem newPromHTTPServer_some (f : List Char) (p : Process) :
    newPromHTTPServer (some f) p =
      ({ p with
          log := p.log ++ optional (decide (f ≠ []) && decide (p.logLevel ≤ levelInfo))
            (levelInfo, "filtering metrics based on regex: ".toList ++ f) },
        if f = [] then .promhttp else .filtered f) := by
  by_cases hf : f = [] <;> simp [newPromHTTPServer, hf, Process.info_eq, optional]

theorem newPromHTTPServer_foldl_add (config : Config) (p : Process) :
    newPromHTTPServer (some config.cliOpts.excludeFilter)
        ((registrations config).foldl Process.add (p.setDefault config.logLevel)) =
      (p.started config, servedHandler config) := by
  rw [foldl_add, newPromHTTPServer_some]
  by_cases hl : config.logLevel ≤ levelInfo <;> by_cases hf : config.cliOpts.excludeFilter = [] <;>
    simp [hl, hf, Process.started, Process.setDefault, startupLog, enabledCollectors, servedHandler]

/-- `InitPromServer` returns exactly when each registration is ready, with the started process. -/
theorem initPromServer_eq_ok {config : Config} {p q : Process} {h : Handler} :
    initPromServer config p = .ok (q, h) ↔
      (∀ g ∈ registrations config, g.Ready p) ∧ q = p.started config ∧
        h = servedHandler config := by
  have hready := readyAll_iff (registrations_kinds_nodup config)
    (by rw [registrations_patterns]; cases config.traceConf.enabled <;> simp)
    (p.setDefault config.logLevel)
  rw [initPromServer_eq, except_bind_eq_ok]
  constructor
  · rintro ⟨_, hrun, hfin⟩
    obtain ⟨hr, rfl⟩ := (foldlM_run_eq_ok _ _ _).mp hrun
    rw [newPromHTTPServer_foldl_add] at hfin
    cases hfin
    exact ⟨hready.mp hr, rfl, rfl⟩
  · rintro ⟨hr, rfl, rfl⟩
    exact ⟨_, (foldlM_run_eq_ok _ _ _).mpr ⟨hready.mpr hr, rfl⟩,
      by rw [newPromHTTPServer_foldl_add]; rfl⟩

theorem initPromServer_of_node_mem {config : Config} {p : Process}
    (h : CollectorKind.node ∈ p.registry) :
    initPromServer config p = .error (.alreadyRegistered .node) := by
  simp [initPromServer, Process.setDefault, Process.mustRegister, h, bind, Except.bind]

/-- After an `InitPromServer` has returned, every later one in the process panics. -/
theorem initPromServer_twice {config : Config} {p q : Process} {h : Handler}
    (hinit : initPromServer config p = .ok (q, h)) (config' : Config) :
    initPromServer config' q = .error (.alreadyRegistered .node) := by
  obtain ⟨-, rfl, -⟩ := initPromServer_eq_ok.mp hinit
  exact initPromServer_of_node_mem
    (List.mem_append_right _ (List.mem_map_of_mem _ (List.mem_cons_self _ _)))

section
variable {cliFlags : CliFlags} {excludeFilter : Except (List Char) Unit}
  {lookupEnv : List Char → Option (List Char)} {cfg : Config}

/-- From an empty process, every configuration of `NewConfig` starts, with its enabled routes. -/
theorem newConfig_initPromServer (hcfg : newConfig cliFlags excludeFilter lookupEnv = .ok cfg)
    (level : Level) (log : List (Level × List Char)) :
    ∃ q, initPromServer cfg ⟨level, log, [], []⟩ =
        .ok (q, if cliFlags.metricsExcludeFilterRegex = [] then .promhttp
          else .filtered cliFlags.metricsExcludeFilterRegex) ∧
      q.registry = enabledCollectors cfg ∧
      (CollectorKind.gpu ∈ q.registry ↔ cliFlags.slurmGpusEnabled = true) ∧
      q.mux = optional cliFlags.traceEnabled
        (if cliFlags.tracePath ≠ [] then cliFlags.tracePath else "/trace".toList) := by
  obtain ⟨-, -, -, -, -, hopts, htrace⟩ := newConfig_settles hcfg
  have hpath : cfg.traceConf.path ≠ [] := by rw [htrace]; split_ifs <;> simp_all
  have hready : ∀ g ∈ registrations cfg, g.Ready ⟨level, log, [], []⟩ := fun g hg =>
    ⟨fun pattern hp => ⟨by
      have := List.mem_filterMap.mpr ⟨g, hg, hp⟩
      rw [registrations_patterns, mem_optional] at this
      exact this.2 ▸ hpath, List.not_mem_nil _⟩, List.not_mem_nil _⟩
  refine ⟨_, initPromServer_eq_ok.mpr ⟨hready, rfl, ?_⟩, rfl, ?_, ?_⟩
  · simp [servedHandler, hopts]
  · simp [Process.started, enabledCollectors, registrations, hopts]
  · simp [Process.started, registrations_patterns, htrace]

end

theorem logLevelOf_le_levelInfo (name : List Char) :
    logLevelOf name ≤ levelInfo ↔ ¬(name = "warn".toList ∨ name = "error".toList) := by
  by_cases hm : name ∈ logLevelMap.map Prod.fst
  · simp only [logLevelMap, List.map_cons, List.map_nil, List.mem_cons, List.not_mem_nil,
      or_false] at hm
    rcases hm with rfl | rfl | rfl | rfl <;> decide
  · rw [logLevelOf_of_not_mem hm]
    simp only [logLevelMap, List.map_cons, List.map_nil, List.mem_cons, List.not_mem_nil,
      or_false, not_or] at hm
    simp only [le_refl, hm.2.2.1, hm.2.2.2, or_self, not_false_eq_true]

section
variable {cliFlags : CliFlags} {excludeFilter : Except (List Char) Unit}
  {lookupEnv : List Char → Option (List Char)} {cfg : Config}

/-- The level `NewConfig` settles is that of the flag's name, else of `LOGLEVEL`'s. -/
theorem newConfig_logLevel_name (hcfg : newConfig cliFlags excludeFilter lookupEnv = .ok cfg) :
    cfg.logLevel = logLevelOf (if cliFlags.logLevel ≠ [] then cliFlags.logLevel
      else (lookupEnv "LOGLEVEL".toList).getD []) := by
  rw [(newConfig_settles hcfg).2.2.1]
  split_ifs
  · rfl
  · cases lookupEnv "LOGLEVEL".toList <;> rfl

/-- The start-up lines are written unless the level's name is exactly `warn` or `error`. -/
theorem newConfig_startupLog (hcfg : newConfig cliFlags excludeFilter lookupEnv = .ok cfg)
    {p q : Process} {h : Handler} (hinit : initPromServer cfg p = .ok (q, h)) :
    q.log = p.log ++
      if (if cliFlags.logLevel ≠ [] then cliFlags.logLevel
          else (lookupEnv "LOGLEVEL".toList).getD []) ∈ ["warn".toList, "error".toList] then []
      else (startupLog cfg).map (levelInfo, ·) := by
  obtain ⟨-, rfl, -⟩ := initPromServer_eq_ok.mp hinit
  simp only [Process.started, newConfig_logLevel_name hcfg, logLevelOf_le_levelInfo, List.mem_cons,
    List.mem_singleton, List.not_mem_nil, or_false]
  split_ifs <;> rfl

end

/-- `--slurm.log-level WARN` is not `warn`: the GPU collector's start-up line is written. -/
example : ((newConfig { slurmGpusEnabled := true, logLevel := "WARN".toList } (.ok ())
      (fun _ => none)).toOption.bind fun cfg =>
        (initPromServer cfg ⟨levelInfo, [], [], []⟩).toOption.map (·.1.log)) =
    some [(levelInfo, "GPU metrics collection enabled".toList)] := by
  decide

/-! ## The `cext` start-up -/

namespace Cext

/-- The C fetchers `cext`'s `InitPromServer` returns for its caller to destroy. -/
inductive Destructor
  | nodeFetcher | jobFetcher
  deriving DecidableEq

/-- `cext`'s `InitPromServer`: the node and jobs collectors, with C fetchers, and
`promhttp.Handler()`. -/
def initPromServer (config : Config) (p : Process) :
    Except Panic ((Process × Handler) × List Destructor) := do
  let p := p.setDefault config.logLevel
  let p ← p.mustRegister .node
  let p ← p.mustRegister .jobs
  pure ((p, .promhttp), [.nodeFetcher, .jobFetcher])

end Cext

/-- `config` with tracing, the optional collectors and the exclude pattern off. -/
def Config.minimal (config : Config) : Config :=
  let cliOpts := { config.cliOpts with
    licEnabled := false, diagsEnabled := false, sacctEnabled := false, gpusEnabled := false,
    excludeFilter := [] }
  { config with traceConf := { config.traceConf with enabled := false }, cliOpts }

/-- The `cext` start-up is the exporter's with every optional setting off, plus two C fetchers. -/
theorem cext_initPromServer (config : Config) (p : Process) :
    Cext.initPromServer config p =
      (·, [.nodeFetcher, .jobFetcher]) <$> initPromServer config.minimal p := by
  simp [Cext.initPromServer, initPromServer, Config.minimal, registerIf, newPromHTTPServer]

end SlurmExporter
