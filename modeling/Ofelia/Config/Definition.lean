import Ofelia.Json.Decode

/-! Webhook definitions as the JSON config file decodes them, and
`parseWebhookConfigFile`, which validates every entry and fills in the
defaults. Reading the file and decoding a `WebhooksFile` from its text are not
modelled: the function starts from what `os.ReadFile` and `json.Unmarshal` give.

Proved: the file fails exactly when some entry has an empty `url` or a `type`
outside `error`, `info`, `all`; the error names the first such entry (its index,
or its name); otherwise every entry comes back in file order with only its
defaults filled in. -/

namespace Ofelia.Config

/-- A Go `map[string]string`: its entries, each key once, in the order a `range`
loop happens to visit them. -/
structure StringMap where
  entries : List (GoString × GoString)
  nodup : (entries.map Prod.fst).Nodup
  deriving DecidableEq

def StringMap.empty : StringMap := ⟨[], List.nodup_nil⟩

instance : Repr StringMap := ⟨fun m n => reprPrec m.entries n⟩

/-- `RetryConfig`. -/
structure RetryConfig where
  count : GoInt
  backoff : GoString
  deriving DecidableEq, Repr

/-- `WebhookDefinition`. A nil `Headers` map is `none`; a nil `Body` is `null`. -/
structure WebhookDefinition where
  name : GoString
  type : GoString
  active : Bool
  priority : GoInt
  url : GoString
  method : GoString
  headers : Option StringMap
  body : Json.Value
  onlyOnError : Bool
  timeout : GoInt
  retry : Option RetryConfig
  deriving DecidableEq, Repr

def webhookTypeError : GoString := lit "error"

def webhookTypeInfo : GoString := lit "info"

def webhookTypeAll : GoString := lit "all"

/-- `defaultTimeout.Seconds()`. -/
def defaultTimeoutSeconds : GoInt := 10

/-- The errors of `parseWebhookConfigFile`, one per `fmt.Errorf` site:
`"failed to read file: %w"`, `"failed to parse JSON: %w"`,
`"webhook at index %d is missing required 'url' field"`,
`"webhook %q is missing required 'type' field"`, and
`"webhook %q has invalid type: invalid webhook type %q, must be one of: ..."`. -/
inductive ConfigError where
  | readFile (err : GoString)
  | parseJSON (err : Json.DecodeError)
  | missingURL (index : Nat)
  | missingType (name : GoString)
  | invalidType (name type : GoString)
  deriving DecidableEq, Repr

/-- `validateWebhookType`: the offending type on failure. -/
def validateWebhookType (webhookType : GoString) : Except GoString Unit :=
  if webhookType = webhookTypeError ∨ webhookType = webhookTypeInfo ∨ webhookType = webhookTypeAll
  then .ok () else .error webhookType

/-- The three defaults the loop writes back into `config.Webhooks[i]`. -/
def setDefaults (def_ : WebhookDefinition) : WebhookDefinition :=
  let d1 := if def_.method = [] then { def_ with method := lit "POST" } else def_
  let d2 := if def_.timeout = 0 then { d1 with timeout := defaultTimeoutSeconds } else d1
  if def_.headers = none then { d2 with headers := some StringMap.empty } else d2

/-- The validation loop of `parseWebhookConfigFile` from index `i` on. -/
def validateFrom (i : Nat) : List WebhookDefinition → Except ConfigError (List WebhookDefinition)
  | [] => .ok []
  | def_ :: defs =>
    if def_.url = [] then .error (.missingURL i)
    else if def_.type = [] then .error (.missingType def_.name)
    else match validateWebhookType def_.type with
      | .error t => .error (.invalidType def_.name t)
      | .ok () =>
        match validateFrom (i + 1) defs with
        | .error e => .error e
        | .ok rest => .ok (setDefaults def_ :: rest)

/-- What reading and decoding the file give. -/
inductive FileContents where
  | readError (err : GoString)
  | malformed (err : Json.DecodeError)
  | decoded (webhooks : List WebhookDefinition)

/-- `parseWebhookConfigFile`. -/
def parseWebhookConfigFile : FileContents → Except ConfigError (List WebhookDefinition)
  | .readError e => .error (.readFile e)
  | .malformed e => .error (.parseJSON e)
  | .decoded defs => validateFrom 0 defs

/-! ### Validation -/

/-- An entry the loop refuses. -/
def Invalid (d : WebhookDefinition) : Prop :=
  d.url = [] ∨ d.type ∉ [webhookTypeError, webhookTypeInfo, webhookTypeAll]

instance : DecidablePred Invalid := fun d => by unfold Invalid; infer_instance

theorem validateWebhookType_ok_iff (t : GoString) :
    validateWebhookType t = .ok () ↔ t ∈ [webhookTypeError, webhookTypeInfo, webhookTypeAll] := by
  unfold validateWebhookType
  split_ifs with h <;> simp_all

theorem nil_not_mem_webhookTypes : ([] : GoString) ∉ [webhookTypeError, webhookTypeInfo, webhookTypeAll] := by
  decide

/-- The error the loop reports on an invalid entry at index `i`. -/
def entryError (i : Nat) (d : WebhookDefinition) : ConfigError :=
  if d.url = [] then .missingURL i else if d.type = [] then .missingType d.name
  else .invalidType d.name d.type

/-- One entry: the loop goes on past it exactly when it is valid. -/
theorem validateFrom_cons (i : Nat) (d : WebhookDefinition) (defs : List WebhookDefinition) :
    validateFrom i (d :: defs) =
      if Invalid d then .error (entryError i d)
      else (validateFrom (i + 1) defs).map (setDefaults d :: ·) := by
  by_cases hu : d.url = []
  · simp [validateFrom, Invalid, entryError, hu]
  by_cases ht : d.type = []
  · rw [if_pos (.inr (ht ▸ nil_not_mem_webhookTypes))]
    simp [validateFrom, entryError, hu, ht]
  by_cases hv : d.type ∈ [webhookTypeError, webhookTypeInfo, webhookTypeAll]
  · rw [if_neg (by simp [Invalid, hu, hv])]
    simp only [validateFrom, hu, ht, ite_false, (validateWebhookType_ok_iff _).2 hv]
    cases validateFrom (i + 1) defs <;> rfl
  · have : validateWebhookType d.type = .error d.type := by
      simp only [validateWebhookType]; simp_all
    rw [if_pos (.inr hv)]
    simp [validateFrom, entryError, this, hu, ht]

theorem validateFrom_of_valid (i : Nat) (defs : List WebhookDefinition)
    (h : ∀ d ∈ defs, ¬ Invalid d) : validateFrom i defs = .ok (defs.map setDefaults) := by
  induction defs generalizing i with
  | nil => rfl
  | cons d defs ih =>
    rw [validateFrom_cons, if_neg (h d (.head _)), ih _ fun d hd => h d (.tail _ hd)]
    rfl

/-- The error names the first invalid entry. -/
theorem validateFrom_first_invalid (i : Nat) (pre post : List WebhookDefinition)
    (d : WebhookDefinition) (hpre : ∀ d ∈ pre, ¬ Invalid d) (hd : Invalid d) :
    validateFrom i (pre ++ d :: post) = .error (entryError (i + pre.length) d) := by
  induction pre generalizing i with
  | nil => rw [List.nil_append, validateFrom_cons, if_pos hd]; rfl
  | cons p pre ih =>
    rw [List.cons_append, validateFrom_cons, if_neg (hpre p (.head _)),
      ih _ fun d hd => hpre d (.tail _ hd)]
    simp [Except.map, Nat.add_right_comm, Nat.add_assoc]

/-- A refused file names its first invalid entry: by its index when its `url`
is empty, by its name when its `type` is empty or none of the three. -/
theorem parseWebhookConfigFile_first_invalid (pre post : List WebhookDefinition) (d : WebhookDefinition)
    (hpre : ∀ d ∈ pre, ¬ Invalid d) (hd : Invalid d) :
    parseWebhookConfigFile (.decoded (pre ++ d :: post)) = .error (entryError pre.length d) := by
  rw [parseWebhookConfigFile, validateFrom_first_invalid 0 pre post d hpre hd, Nat.zero_add]

/-- An entry with the given type and a URL. -/
def typedDefinition (type : GoString) : WebhookDefinition :=
  { name := type, type, active := true, priority := 0, url := lit "https://example.com/hook", method := [],
    headers := none, body := .null, onlyOnError := false, timeout := 0, retry := none }

theorem parseWebhookConfigFile_first_invalid_slack :
    (∀ d ∈ [typedDefinition webhookTypeAll], ¬ Invalid d) ∧ Invalid (typedDefinition (lit "slack")) ∧
      parseWebhookConfigFile (.decoded ([typedDefinition webhookTypeAll] ++
          typedDefinition (lit "slack") :: [typedDefinition []])) =
        .error (entryError [typedDefinition webhookTypeAll].length (typedDefinition (lit "slack"))) :=
  ⟨by decide, by decide, parseWebhookConfigFile_first_invalid _ _ _ (by decide) (by decide)⟩

theorem validateFrom_error_iff (i : Nat) (defs : List WebhookDefinition) :
    (∃ e, validateFrom i defs = .error e) ↔ ∃ d ∈ defs, Invalid d := by
  induction defs generalizing i with
  | nil => simp [validateFrom]
  | cons d defs ih =>
    rw [validateFrom_cons]
    by_cases hd : Invalid d
    · simp [hd]
    · have hmap : ∀ r : Except ConfigError (List WebhookDefinition),
          (∃ e, r.map (setDefaults d :: ·) = .error e) ↔ ∃ e, r = .error e := by
        intro r; cases r <;> simp [Except.map]
      rw [if_neg hd, hmap, ih]
      simp [hd]

/-- The defaults, field by field. -/
theorem setDefaults_eq (d : WebhookDefinition) : setDefaults d =
    { d with method := if d.method = [] then lit "POST" else d.method,
             timeout := if d.timeout = 0 then 10 else d.timeout,
             headers := some (d.headers.getD StringMap.empty) } := by
  obtain ⟨_, _, _, _, _, method, headers, _, _, timeout, _⟩ := d
  by_cases hm : method = [] <;> by_cases ht : timeout = 0 <;> cases headers <;>
    simp [setDefaults, hm, ht, defaultTimeoutSeconds]

/-- A decoded file is refused exactly when one of its entries has an empty
`url` or a `type` other than `error`, `info` and `all`; otherwise every entry
comes back in file order with an empty `Method` set to `POST`, a zero `Timeout`
set to 10 and a nil `Headers` set to an empty map, and nothing else changed. -/
theorem parseWebhookConfigFile_decoded (defs : List WebhookDefinition) :
    (∃ e, parseWebhookConfigFile (.decoded defs) = .error e) ∧
      (∃ d ∈ defs, d.url = [] ∨ d.type ∉ [webhookTypeError, webhookTypeInfo, webhookTypeAll]) ∨
    parseWebhookConfigFile (.decoded defs) = .ok (defs.map fun d =>
      { d with method := if d.method = [] then lit "POST" else d.method,
               timeout := if d.timeout = 0 then 10 else d.timeout,
               headers := some (d.headers.getD StringMap.empty) }) ∧
      ∀ d ∈ defs, ¬ (d.url = [] ∨ d.type ∉ [webhookTypeError, webhookTypeInfo, webhookTypeAll]) := by
  by_cases h : ∃ d ∈ defs, Invalid d
  · exact .inl ⟨(validateFrom_error_iff 0 defs).2 h, h⟩
  · push_neg at h
    refine .inr ⟨?_, h⟩
    rw [parseWebhookConfigFile, validateFrom_of_valid 0 defs h]
    congr 2; funext d; exact setDefaults_eq d

/-! ### Registry -/

/-- `WebhookRegistry`: definitions by name. Lookups after loading only read it. -/
structure WebhookRegistry where
  webhooks : GoString → Option WebhookDefinition

/-- `NewWebhookRegistry`. -/
def newWebhookRegistry : WebhookRegistry := ⟨fun _ => none⟩

/-- `Register`: the definition replaces any earlier one of the same name. -/
def WebhookRegistry.register (r : WebhookRegistry) (def_ : WebhookDefinition) : WebhookRegistry :=
  ⟨fun n => if n = def_.name then some def_ else r.webhooks n⟩

/-- `Get`. -/
def WebhookRegistry.get (r : WebhookRegistry) (name : GoString) : Option WebhookDefinition :=
  r.webhooks name

@[simp] theorem get_newWebhookRegistry (n : GoString) : newWebhookRegistry.get n = none := rfl

@[simp] theorem get_register (r : WebhookRegistry) (d : WebhookDefinition) (n : GoString) :
    (r.register d).get n = if n = d.name then some d else r.get n := rfl

end Ofelia.Config
