import Ofelia.Go.Sort.Pdqsort
import Ofelia.Dispatch.Global

/-! `LoadWebhookMiddlewares`, which reads the webhook config file, sorts its
definitions by priority with `sort.Slice`, registers every definition and builds
the global middlewares in that order. The machine it runs on is a parameter: the
value of `WEBHOOK_CONFIG` and, for each path, whether `os.Stat` finds a file and
what reading and decoding it gives.

Proved: the loader returns the middlewares of a permutation of the file's
entries in ascending priority order, and a registry holding the last entry of
each name in that order; a file that fails validation gives neither. But
`sort.Slice` does not keep file order among equal priorities, so the
middlewares' order among them need not be the file's; and a job's chain of these
middlewares spawns its deliveries in descending priority order, since each `Run`
spawns only after `ctx.Next()` has run the rest of the chain. -/

namespace Ofelia.Dispatch

open Config Delivery

def defaultWebhookConfigPath : GoString := lit "/etc/config/middlewares.json"

/-- `WebhookFileConfig`. -/
structure WebhookFileConfig where
  webhookConfigFile : GoString
  deriving DecidableEq, Repr

/-- What the loader reads of the machine: `os.Getenv("WEBHOOK_CONFIG")`, empty
when unset, and for each path `none` when `os.Stat` reports no file, and
otherwise what reading and decoding the file gives. -/
structure Machine where
  webhookConfigEnv : GoString
  files : GoString → Option FileContents

/-- The loader's log lines. -/
inductive LoadLog where
  | configNotFound (path : GoString)
  | parseFailed (path : GoString) (err : ConfigError)
  | noWebhooks (path : GoString)
  | createFailed (name : GoString) (err : InvalidBackoff)
  | loaded (name webhookType : GoString) (active : Bool) (priority : GoInt)
  deriving DecidableEq, Repr

/-- The comparison `LoadWebhookMiddlewares` gives `sort.Slice`. -/
def byPriority (x y : WebhookDefinition) : Bool := decide (x.priority.val < y.priority.val)

/-- The path the loader reads: `WEBHOOK_CONFIG`, else the configured file, else
the default. -/
def configPath (config : WebhookFileConfig) (machine : Machine) : GoString :=
  let configPath := machine.webhookConfigEnv
  let configPath := if configPath = [] then config.webhookConfigFile else configPath
  if configPath = [] then defaultWebhookConfigPath else configPath

/-- The loop of `LoadWebhookMiddlewares` over the sorted definitions: each is
registered, and its middleware appended when `NewWebhookFromDefinition` builds
one. -/
def loadDefinitions :
    WebhookRegistry → List WebhookDefinition → List Webhook × WebhookRegistry × List (Level × LoadLog)
  | registry, [] => ([], registry, [])
  | registry, def_ :: defs =>
    let registry := registry.register def_
    match newWebhookFromDefinition def_ with
    | .error err =>
      let (middlewares, registry, logs) := loadDefinitions registry defs
      (middlewares, registry, (.error, .createFailed def_.name err) :: logs)
    | .ok middleware =>
      let (middlewares, registry, logs) := loadDefinitions registry defs
      (middleware :: middlewares, registry,
        (.notice, .loaded def_.name def_.type def_.active def_.priority) :: logs)

/-- `LoadWebhookMiddlewares`: the middlewares, the registry and the log. -/
def loadWebhookMiddlewares (config : WebhookFileConfig) (machine : Machine) :
    List Webhook × WebhookRegistry × List (Level × LoadLog) :=
  let registry := newWebhookRegistry
  let configPath := configPath config machine
  match machine.files configPath with
  | none => ([], registry, [(.debug, .configNotFound configPath)])
  | some contents =>
    match parseWebhookConfigFile contents with
    | .error err => ([], registry, [(.error, .parseFailed configPath err)])
    | .ok [] => ([], registry, [(.debug, .noWebhooks configPath)])
    | .ok webhookDefs => loadDefinitions registry (Sort.slice byPriority webhookDefs)

/-! ### Sample config files -/

/-- A definition of type `all` that the loader accepts. -/
def allDefinition (name url : GoString) (priority : GoInt) : WebhookDefinition :=
  { name, type := webhookTypeAll, active := true, priority, url, method := lit "POST",
    headers := some StringMap.empty, body := .null, onlyOnError := false, timeout := 10,
    retry := none }

/-- A machine whose only file is the default config file, holding `defs`. -/
def defaultFileMachine (defs : List WebhookDefinition) : Machine :=
  { webhookConfigEnv := [],
    files := fun p => if p = defaultWebhookConfigPath then some (.decoded defs) else none }

/-- Two webhooks, the one with the lower priority first in the file. -/
def twoPriorities : List WebhookDefinition :=
  [allDefinition (lit "first") (lit "http://127.0.0.1/first") 1,
    allDefinition (lit "second") (lit "http://127.0.0.1/second") 2]

/-! ### What the loader returns -/

/-- The loop builds the middlewares of the definitions it can, in order. -/
theorem loadDefinitions_middlewares (registry : WebhookRegistry) (defs : List WebhookDefinition) :
    (loadDefinitions registry defs).1 = defs.filterMap fun d => (newWebhookFromDefinition d).toOption := by
  induction defs generalizing registry with
  | nil => rfl
  | cons d defs ih =>
    simp only [loadDefinitions, List.filterMap_cons]
    cases newWebhookFromDefinition d <;> simp [ih, Except.toOption]

/-- The loop registers every definition, the last of a name winning. -/
theorem loadDefinitions_registry (registry : WebhookRegistry) (defs : List WebhookDefinition) (n : GoString) :
    (loadDefinitions registry defs).2.1.get n =
      (defs.reverse.find? fun d => decide (n = d.name)).or (registry.get n) := by
  induction defs generalizing registry with
  | nil => rfl
  | cons d defs ih =>
    have h : (loadDefinitions registry (d :: defs)).2.1 = (loadDefinitions (registry.register d) defs).2.1 := by
      simp only [loadDefinitions]
      split <;> rfl
    rw [h, ih, List.reverse_cons, List.find?_append, Option.or_assoc, get_register]
    congr 1
    by_cases hn : n = d.name <;> simp [hn]

/-- For a config file that `os.Stat` finds: when every entry passes validation,
the middlewares are those of a permutation of the entries in ascending priority
order, one for each entry whose webhook can be built, in that order, and the
registry maps every name to the last entry of that name in that order. When
validation fails there are no middlewares and the registry is empty. -/
theorem loadWebhookMiddlewares_result (config : WebhookFileConfig) (machine : Machine) (contents : FileContents)
    (hfile : machine.files (configPath config machine) = some contents) :
    match parseWebhookConfigFile contents with
    | .error _ => (loadWebhookMiddlewares config machine).1 = [] ∧
        ∀ n, (loadWebhookMiddlewares config machine).2.1.get n = none
    | .ok defs => ∃ sorted : List WebhookDefinition, sorted.Perm defs ∧
        sorted.Pairwise (fun x y => x.priority.val ≤ y.priority.val) ∧
        (loadWebhookMiddlewares config machine).1 =
          sorted.filterMap (fun d => (newWebhookFromDefinition d).toOption) ∧
        ∀ n, (loadWebhookMiddlewares config machine).2.1.get n = sorted.reverse.find? fun d => decide (n = d.name) := by
  simp only [loadWebhookMiddlewares, hfile]
  rcases parseWebhookConfigFile contents with err | _ | ⟨d, defs⟩
  · exact ⟨rfl, fun _ => rfl⟩
  · exact ⟨[], List.Perm.refl _, List.Pairwise.nil, rfl, fun _ => rfl⟩
  · obtain ⟨hp, hs⟩ := Sort.slice_perm_sorted (fun d : WebhookDefinition => d.priority.val) (d :: defs)
    refine ⟨_, hp, hs, loadDefinitions_middlewares _ _, fun n => ?_⟩
    rw [loadDefinitions_registry, get_newWebhookRegistry, Option.or_none]
    rfl

/-- The file of `twoPriorities` at the default path. -/
theorem loadWebhookMiddlewares_result_twoPriorities :
    (defaultFileMachine twoPriorities).files (configPath ⟨[]⟩ (defaultFileMachine twoPriorities)) =
        some (.decoded twoPriorities) ∧
      ∃ sorted : List WebhookDefinition, sorted.Perm twoPriorities ∧
        sorted.Pairwise (fun x y => x.priority.val ≤ y.priority.val) ∧
        (loadWebhookMiddlewares ⟨[]⟩ (defaultFileMachine twoPriorities)).1 =
          sorted.filterMap (fun d => (newWebhookFromDefinition d).toOption) ∧
        ∀ n, (loadWebhookMiddlewares ⟨[]⟩ (defaultFileMachine twoPriorities)).2.1.get n =
          sorted.reverse.find? fun d => decide (n = d.name) :=
  ⟨rfl, loadWebhookMiddlewares_result ⟨[]⟩ (defaultFileMachine twoPriorities) (.decoded twoPriorities) rfl⟩

/-! ### Order among equal priorities -/

/-- Thirteen webhooks: twelve of priority 1 and, last, one of priority 0. -/
def thirteenDefinitions : List WebhookDefinition :=
  (List.range 13).map fun i =>
    allDefinition (lit "w" ++ [48 + (i / 10).toUInt8, 48 + (i % 10).toUInt8]) (lit "http://127.0.0.1/")
      (if i = 12 then 0 else 1)

/-- The middlewares loaded from `thirteenDefinitions` come in priority order, but
`sort.Slice` has moved `w06` before `w00` and `w01` to the end, against the
file order of the twelve webhooks of priority 1. -/
theorem loadWebhookMiddlewares_reorders_ties :
    parseWebhookConfigFile (.decoded thirteenDefinitions) = .ok thirteenDefinitions ∧
    (loadWebhookMiddlewares ⟨[]⟩ (defaultFileMachine thirteenDefinitions)).1.map (·.name) =
      [lit "w12", lit "w06", lit "w02", lit "w03", lit "w04", lit "w05", lit "w00", lit "w07",
        lit "w08", lit "w09", lit "w10", lit "w11", lit "w01"] := by
  decide

/-! ### Spawn order of a loaded chain -/

/-- The webhook a spawned delivery is for. -/
def Spawn.name : Spawn → GoString
  | .global w => w.name
  | .perJob d => d.name

/-- Installed as a job's chain, the middlewares loaded from `twoPriorities` spawn
the delivery of priority 2 before that of priority 1, for every outcome. -/
theorem loadWebhookMiddlewares_spawn_order (o : Outcome) :
    (spawned (runChain o (loadWebhookMiddlewares ⟨[]⟩ (defaultFileMachine twoPriorities)).1).2).map
      Spawn.name = [lit "second", lit "first"] := by
  rw [(runChain_spawned o _).2]
  cases o.failed <;> decide

end Ofelia.Dispatch
