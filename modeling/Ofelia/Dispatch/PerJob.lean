import Ofelia.Dispatch.Global
import Ofelia.Json.RoundTrip

/-! The per-job dispatcher: `parseWebhookNames`, `NewWebhookFromConfig`, which
resolves a job's two name lists against the registry, and
`(*PerJobWebhook).Run`, which fires one list or the other by outcome.

Proved: `parseWebhookNames` reads back the JSON array `json.Marshal` writes
for any list of valid UTF-8 names, and a list of trimmed names free of commas
and `[` joined by `,` or `, `, except the one name `null`, whose comma form is
the JSON literal that decodes as a nil slice; construction fails exactly when
some parsed name is missing from the registry or has a type its list does not allow, and otherwise keeps the
registry's definitions for the parsed names in order; `Run` spawns one delivery
per active definition of the list the outcome picks, and each of them has a type
the global classification selects for that outcome. -/

namespace Ofelia.Dispatch

open Config Delivery Template

/-- `WebhookConfig`, the per-job settings `webhook-error-names` and
`webhook-info-names`. -/
structure WebhookConfig where
  webhookErrorNames : GoString
  webhookInfoNames : GoString
  deriving DecidableEq, Repr

/-- Modelled from the spec: `IsEmpty` of package `middlewares` is not under
src/; a config is empty when it equals its zero value, both lists unset. -/
def isEmpty (c : WebhookConfig) : Bool := c.webhookErrorNames = [] && c.webhookInfoNames = []

/-- `parseWebhookNames`: a JSON array of strings, or else a comma-separated
list whose parts are trimmed and kept when nonempty. -/
def parseWebhookNames (namesStr : GoString) : List GoString :=
  if namesStr = [] then []
  else match Json.unmarshalStrings namesStr with
    | .ok names => names
    | .error _ => ((namesStr.splitOn 0x2C).map trimSpace).filter (· ≠ [])

/-- `PerJobWebhook`. -/
structure PerJobWebhook where
  errorWebhooks : List WebhookDefinition
  infoWebhooks : List WebhookDefinition
  deriving DecidableEq, Repr

/-- The errors of `NewWebhookFromConfig`: `"%s references unknown webhook %q"`
and `"webhook %q has type %q but is referenced in %s (must be %q or %q)"`, with
the list's setting name and its allowed type. -/
inductive ReferenceError where
  | unknown (list name : GoString)
  | wrongType (name type list allowed : GoString)
  deriving DecidableEq, Repr

def errorNamesSetting : GoString := lit "webhook-error-names"

def infoNamesSetting : GoString := lit "webhook-info-names"

/-- One validation loop of `NewWebhookFromConfig`: every name must be registered
with type `allowed` or `all`. The first output lists the names of inactive
definitions, each noticed as `"Webhook %q is inactive and will not fire"`. -/
def collectWebhooks (registry : WebhookRegistry) (list allowed : GoString) :
    List GoString → List GoString × Except ReferenceError (List WebhookDefinition)
  | [] => ([], .ok [])
  | name :: names =>
    match registry.get name with
    | none => ([], .error (.unknown list name))
    | some d =>
      if d.type ≠ allowed ∧ d.type ≠ webhookTypeAll then
        ([], .error (.wrongType name d.type list allowed))
      else
        let rest := collectWebhooks registry list allowed names
        ((if d.active then [] else [name]) ++ rest.1, rest.2.map (d :: ·))

/-- `NewWebhookFromConfig`: the inactive names noticed, and the dispatcher
(`none` for the nil middleware) or the error. -/
def newWebhookFromConfig (c : WebhookConfig) (registry : WebhookRegistry) :
    List GoString × Except ReferenceError (Option PerJobWebhook) :=
  if isEmpty c then ([], .ok none)
  else
    let errorNames := parseWebhookNames c.webhookErrorNames
    let infoNames := parseWebhookNames c.webhookInfoNames
    if errorNames = [] ∧ infoNames = [] then ([], .ok none)
    else
      match collectWebhooks registry errorNamesSetting webhookTypeError errorNames with
      | (n1, .error e) => (n1, .error e)
      | (n1, .ok errorWebhooks) =>
        match collectWebhooks registry infoNamesSetting webhookTypeInfo infoNames with
        | (n2, .error e) => (n1 ++ n2, .error e)
        | (n2, .ok infoWebhooks) => (n1 ++ n2, .ok (some ⟨errorWebhooks, infoWebhooks⟩))

/-- `(*PerJobWebhook).Run` after `ctx.Next()`: the list the outcome picks, each
active definition spawned and each inactive one logged as skipped. -/
def PerJobWebhook.run (w : PerJobWebhook) (failed : Bool) (next : Option GoString × List RunEvent) :
    Option GoString × List RunEvent :=
  let webhooks := if failed then w.errorWebhooks else w.infoWebhooks
  (next.1, next.2 ++ webhooks.map fun d =>
    if d.active then .spawn (.perJob d) else .log (.skippedInactive d.name))

/-- `(*PerJobWebhook).sendWebhook`: it builds a webhook from the definition,
then repeats the rendering and sending of `(*Webhook).sendWebhook` with the
definition's fields, logging under its own prefix. -/
def PerJobWebhook.sendWebhook (lib : Lib) (net : Net) (def_ : WebhookDefinition) (ctx : Context)
    (orders : Nat → RangeOrder) (fuel : Nat) : Option (List Effect) :=
  match newWebhookFromDefinition def_ with
  | .error e => some [.log .error (.perJobCreateFailed def_.name e)]
  | .ok webhook =>
    let data := buildTemplateData lib ctx
    match executeTemplate lib def_.url data with
    | .error e => some [.log .error (.perJobUrlTemplateFailed def_.name e)]
    | .ok url =>
      match renderBody lib def_.body data with
      | .error e => some [.log .error (.perJobBodyTemplateFailed def_.name e)]
      | .ok bodyBytes =>
        match renderHeaders lib data ((orders 0).visit (entriesOf def_.headers)) with
        | .error (key, e) => some [.log .error (.perJobHeaderTemplateFailed def_.name key e)]
        | .ok headers =>
          (sendWithRetry webhook
            (fun i => sendRequest net webhook url ((orders (i + 1)).visit headers) bodyBytes i) fuel).map
            fun (fx, err) => fx ++ [match err with
              | some e => .log .error (.perJobFailedAfterRetries def_.name e)
              | none => .log .debug (.perJobSentSuccessfully def_.name url)]

/-! ### Name lists -/

theorem intercalate_cons_cons (sep x y : GoString) (ys : List GoString) :
    sep.intercalate (x :: y :: ys) = x ++ sep ++ sep.intercalate (y :: ys) := by
  simp [List.intercalate, List.intersperse_cons_cons]

theorem intercalate_cons_head (sep y : GoString) (c : UInt8) : ∀ l : List GoString,
    sep.intercalate ((c :: y) :: l) = c :: sep.intercalate (y :: l)
  | [] => by simp [List.intercalate]
  | z :: l => by rw [intercalate_cons_cons, intercalate_cons_cons]; rfl

/-- Joining by `, ` is joining by `,` with a space before every name but the first. -/
theorem intercalate_comma_space : ∀ (x : GoString) (xs : List GoString),
    [0x2C].intercalate (x :: xs.map (0x20 :: ·)) = (lit ", ").intercalate (x :: xs)
  | x, [] => rfl
  | x, y :: ys => by
    rw [List.map_cons, intercalate_cons_cons, intercalate_cons_head, intercalate_comma_space y ys,
      intercalate_cons_cons]
    simp [show lit ", " = [0x2C, 0x20] from rfl]

/-- The comma-separated fallback of `parseWebhookNames` splits names joined by
`,` or `, ` back apart when each is nonempty, free of commas and trimmed. -/
theorem splitNames_intercalate {L : List GoString} (hL : L ≠ [])
    (hn : ∀ n ∈ L, n ≠ [] ∧ 0x2C ∉ n ∧ trimSpace n = n) {sep : GoString} (hsep : sep ∈ [lit ",", lit ", "]) :
    (((sep.intercalate L).splitOn 0x2C).map trimSpace).filter (· ≠ []) = L := by
  obtain ⟨x, xs, rfl⟩ := List.exists_cons_of_ne_nil hL
  simp only [List.mem_cons, List.mem_singleton, List.not_mem_nil, or_false] at hsep
  rcases hsep with rfl | rfl
  · rw [show lit "," = [0x2C] from rfl, List.splitOn_intercalate _ _ (fun l hl => (hn l hl).2.1) hL,
      List.map_congr_left (fun n hn' => (hn n hn').2.2), List.map_id']
    exact List.filter_eq_self.2 fun n hn' => by simpa using (hn n hn').1
  · have hm : ∀ n ∈ x :: xs.map (0x20 :: ·), 0x2C ∉ n := by
      simp only [List.mem_cons, List.mem_map]
      rintro n (rfl | ⟨m, hm, rfl⟩)
      · exact (hn n (List.mem_cons_self _ _)).2.1
      · simpa using (hn m (List.mem_cons_of_mem _ hm)).2.1
    have hsp : ∀ n ∈ xs, (trimSpace ∘ (0x20 :: ·)) n = n := fun n hn' => by
      rw [Function.comp_apply, trimSpace_cons_space (b := 0x20) n (by decide) rfl]
      exact (hn n (List.mem_cons_of_mem _ hn')).2.2
    rw [← intercalate_comma_space, List.splitOn_intercalate _ _ hm (List.cons_ne_nil _ _), List.map_cons,
      List.map_map, (hn x (List.mem_cons_self _ _)).2.2, List.map_congr_left hsp, List.map_id']
    exact List.filter_eq_self.2 fun n hn' => by simpa using (hn n hn').1

/-- Names joined by `,` or `, `, each nonempty, without comma or `[` and
trimmed, do not decode as a `[]string`, unless they are the one name `null`. -/
theorem unmarshalStrings_intercalate {L : List GoString} (hL : L ≠ []) (hnull : L ≠ [lit "null"])
    (hn : ∀ n ∈ L, n ≠ [] ∧ 0x2C ∉ n ∧ 0x5B ∉ n ∧ trimSpace n = n) {sep : GoString}
    (hsep : sep ∈ [lit ",", lit ", "]) (names : List GoString) :
    Json.unmarshalStrings (sep.intercalate L) ≠ .ok names := by
  intro h
  obtain ⟨x, xs, rfl⟩ := List.exists_cons_of_ne_nil hL
  obtain ⟨hx0, -, hx2, hx3⟩ := hn x (List.mem_cons_self x xs)
  obtain ⟨b, x', rfl⟩ := List.exists_cons_of_ne_nil hx0
  have hskip : Json.skipSpace (sep.intercalate ((b :: x') :: xs)) = sep.intercalate ((b :: x') :: xs) := by
    rw [intercalate_cons_head, Json.skipSpace_cons _ (Json.isSpace_eq_false_of_trimSpace hx3)]
  rcases Json.unmarshalStrings_ok_cases h with ⟨t, ht⟩ | ⟨r, hr, hrs⟩ <;> rw [hskip] at *
  · rw [intercalate_cons_head] at ht
    exact hx2 ((List.cons.inj ht).1 ▸ List.mem_cons_self _ _)
  · have hsp := Json.isSpace_of_skipSpace_eq_nil hrs
    cases xs with
    | nil =>
      have hx : b :: x' = lit "null" ++ r := by simpa [List.intercalate] using hr
      refine hnull ?_
      rw [← hx3, hx, trimSpace_null_spaces fun c hc => Json.isSpace_ascii (hsp c hc)]
    | cons y ys =>
      have hc : (0x2C : UInt8) ∈ sep.intercalate ((b :: x') :: y :: ys) := by
        rw [intercalate_cons_cons]
        simp only [List.mem_cons, List.mem_singleton, List.not_mem_nil, or_false] at hsep
        rcases hsep with rfl | rfl <;> simp [show lit "," = [0x2C] from rfl, show lit ", " = [0x2C, 0x20] from rfl]
      rw [hr, List.mem_append] at hc
      rcases hc with hc | hc
      · exact absurd hc (by decide)
      · exact absurd (hsp _ hc) (by decide)

/-- `parseWebhookNames` reads back every name list that `json.Marshal` writes,
when the names are valid UTF-8. -/
theorem parseWebhookNames_marshal (L : List GoString) (hv : ∀ n ∈ L, validString n = true) :
    parseWebhookNames (Json.marshal (.array (L.map .string))) = L := by
  rw [parseWebhookNames, if_neg (by simp [Json.marshal]), Json.unmarshalStrings_marshal L hv]

/-- Names joined by `,` or `, ` come back through the comma-separated fallback,
unless the list is the one name `null`, which `json.Unmarshal` reads as a nil
slice. -/
theorem parseWebhookNames_intercalate {L : List GoString} (hL : L ≠ []) (hnull : L ≠ [lit "null"])
    (hn : ∀ n ∈ L, n ≠ [] ∧ 0x2C ∉ n ∧ 0x5B ∉ n ∧ trimSpace n = n) {sep : GoString}
    (hsep : sep ∈ [lit ",", lit ", "]) : parseWebhookNames (sep.intercalate L) = L := by
  have hne : sep.intercalate L ≠ [] := by
    obtain ⟨x, xs, rfl⟩ := List.exists_cons_of_ne_nil hL
    obtain ⟨b, x', rfl⟩ := List.exists_cons_of_ne_nil (hn x (List.mem_cons_self x xs)).1
    rw [intercalate_cons_head]
    exact List.cons_ne_nil _ _
  rw [parseWebhookNames, if_neg hne]
  split
  · next names hu => exact absurd hu (unmarshalStrings_intercalate hL hnull hn hsep names)
  · exact splitNames_intercalate hL (fun n h => ⟨(hn n h).1, (hn n h).2.1, (hn n h).2.2.2⟩) hsep

/-- Both encodings the per-job settings accept read back: a JSON array of any
valid names, and names joined by a comma, the single name `null` apart. -/
theorem parseWebhookNames_roundTrip :
    (∀ L : List GoString, (∀ n ∈ L, validString n = true) →
      parseWebhookNames (Json.marshal (.array (L.map .string))) = L) ∧
    ∀ L : List GoString, L ≠ [] → L ≠ [lit "null"] →
      (∀ n ∈ L, n ≠ [] ∧ 0x2C ∉ n ∧ 0x5B ∉ n ∧ trimSpace n = n) →
      ∀ sep ∈ [lit ",", lit ", "], parseWebhookNames (sep.intercalate L) = L :=
  ⟨parseWebhookNames_marshal, fun _ hL hnull hn _ hsep => parseWebhookNames_intercalate hL hnull hn hsep⟩

/-- Both encodings of the names `slack` and `pagerduty`. -/
theorem parseWebhookNames_roundTrip_slack :
    parseWebhookNames (Json.marshal (.array ([lit "slack", lit "pagerduty"].map .string))) =
        [lit "slack", lit "pagerduty"] ∧
      parseWebhookNames ((lit ", ").intercalate [lit "slack", lit "pagerduty"]) = [lit "slack", lit "pagerduty"] :=
  ⟨parseWebhookNames_roundTrip.1 _ (by decide),
    parseWebhookNames_roundTrip.2 _ (by decide) (by decide) (by decide) _ (by decide)⟩

/-- The one name `null` is nonempty, trimmed and free of commas and brackets,
yet its comma form is the JSON literal `null`, which decodes as a nil slice. -/
theorem parseWebhookNames_null_name :
    (∀ n ∈ [lit "null"], n ≠ [] ∧ 0x2C ∉ n ∧ 0x5B ∉ n ∧ 0x5D ∉ n ∧ trimSpace n = n) ∧
      parseWebhookNames ((lit ",").intercalate [lit "null"]) = [] := by
  decide

/-! ### Construction -/

/-- A registry entry a list allowing type `allowed` may name. -/
def Referable (allowed : GoString) : Option WebhookDefinition → Prop
  | none => False
  | some d => d.type = allowed ∨ d.type = webhookTypeAll

/-- A loop fails exactly on a list naming an entry it may not name, and
otherwise returns the registry's definitions for the names, in order. -/
theorem collectWebhooks_result (registry : WebhookRegistry) (list allowed : GoString)
    (names : List GoString) :
    (¬ (∀ n ∈ names, Referable allowed (registry.get n)) ∧
      ∃ e, (collectWebhooks registry list allowed names).2 = .error e) ∨
    ((∀ n ∈ names, Referable allowed (registry.get n)) ∧ ∃ ds,
      (collectWebhooks registry list allowed names).2 = .ok ds ∧ ds.map some = names.map registry.get) := by
  induction names with
  | nil => exact .inr ⟨by simp, [], rfl, rfl⟩
  | cons n names ih =>
    simp only [collectWebhooks]
    cases hg : registry.get n with
    | none => exact .inl ⟨fun h => by simpa [Referable, hg] using h n (.head _), _, rfl⟩
    | some d =>
      dsimp only
      by_cases ht : d.type ≠ allowed ∧ d.type ≠ webhookTypeAll
      · refine .inl ⟨fun h => ?_, _, by rw [if_pos ht]⟩
        have := h n (.head _)
        simp only [hg, Referable] at this
        tauto
      · rw [if_neg ht]
        have hr : Referable allowed (some d) := by simp only [Referable]; tauto
        rcases ih with ⟨hbad, e, he⟩ | ⟨hok, ds, hds, hmap⟩
        · exact .inl ⟨fun h => hbad fun m hm => h m (.tail _ hm), e, by simp [he, Except.map]⟩
        · refine .inr ⟨?_, d :: ds, by simp [hds, Except.map], by simp [hmap, hg]⟩
          simp only [List.mem_cons, forall_eq_or_imp, hg]
          exact ⟨hr, hok⟩

@[simp] theorem parseWebhookNames_nil : parseWebhookNames [] = [] := rfl

/-- What `NewWebhookFromConfig` returns, with the empty config folded into the
case of two empty name lists. -/
theorem newWebhookFromConfig_snd (c : WebhookConfig) (registry : WebhookRegistry) :
    (newWebhookFromConfig c registry).2 =
      if parseWebhookNames c.webhookErrorNames = [] ∧ parseWebhookNames c.webhookInfoNames = [] then .ok none
      else (collectWebhooks registry errorNamesSetting webhookTypeError
          (parseWebhookNames c.webhookErrorNames)).2.bind fun errorWebhooks =>
        (collectWebhooks registry infoNamesSetting webhookTypeInfo
          (parseWebhookNames c.webhookInfoNames)).2.map fun infoWebhooks => some ⟨errorWebhooks, infoWebhooks⟩ := by
  unfold newWebhookFromConfig
  by_cases hc : isEmpty c
  · obtain ⟨h1, h2⟩ : c.webhookErrorNames = [] ∧ c.webhookInfoNames = [] := by simpa [isEmpty] using hc
    simp [hc, h1, h2]
  rw [if_neg hc]
  dsimp only
  split_ifs
  · rfl
  rcases collectWebhooks registry errorNamesSetting webhookTypeError _ with ⟨n1, e | ds1⟩ <;>
    rcases collectWebhooks registry infoNamesSetting webhookTypeInfo _ with ⟨n2, e | ds2⟩ <;> rfl

/-- `NewWebhookFromConfig` returns an error exactly when a name parsed from
`webhook-error-names` is unknown or of a type other than `error` and `all`, or a
name parsed from `webhook-info-names` is unknown or of a type other than `info`
and `all`. A dispatcher it returns holds the registry's definitions for the
parsed names, in the parsed order, repetitions kept. -/
theorem newWebhookFromConfig_result (c : WebhookConfig) (registry : WebhookRegistry) :
    let errorNames := parseWebhookNames c.webhookErrorNames
    let infoNames := parseWebhookNames c.webhookInfoNames
    let valid := (∀ n ∈ errorNames, Referable webhookTypeError (registry.get n)) ∧
      (∀ n ∈ infoNames, Referable webhookTypeInfo (registry.get n))
    (¬ valid ∧ ∃ e, (newWebhookFromConfig c registry).2 = .error e) ∨
    (valid ∧ errorNames = [] ∧ infoNames = [] ∧ (newWebhookFromConfig c registry).2 = .ok none) ∨
    (valid ∧ ∃ p, (newWebhookFromConfig c registry).2 = .ok (some p) ∧
      p.errorWebhooks.map some = errorNames.map registry.get ∧
      p.infoWebhooks.map some = infoNames.map registry.get) := by
  intro errorNames infoNames valid
  rw [newWebhookFromConfig_snd]
  split_ifs with hn
  · exact .inr (.inl ⟨by simp [valid, errorNames, infoNames, hn], hn.1, hn.2, rfl⟩)
  rcases collectWebhooks_result registry errorNamesSetting webhookTypeError errorNames with
    ⟨bad, e, he⟩ | ⟨ok1, ds1, h1, hm1⟩
  · exact .inl ⟨fun h => bad h.1, e, by rw [he]; rfl⟩
  rcases collectWebhooks_result registry infoNamesSetting webhookTypeInfo infoNames with
    ⟨bad, e, he⟩ | ⟨ok2, ds2, h2, hm2⟩
  · exact .inl ⟨fun h => bad h.2, e, by rw [h1, he]; rfl⟩
  exact .inr (.inr ⟨⟨ok1, ok2⟩, ⟨ds1, ds2⟩, by rw [h1, h2]; rfl, hm1, hm2⟩)

/-! ### Run -/

theorem filterMap_of_map_some {f : GoString → Option WebhookDefinition} {names : List GoString}
    {ds : List WebhookDefinition} (h : ds.map some = names.map f) : ds = names.filterMap f := by
  induction names generalizing ds with
  | nil => simpa using h
  | cons n names ih =>
    cases ds with
    | nil => cases h
    | cons d ds =>
      simp only [List.map_cons, List.cons.injEq] at h
      simp [List.filterMap_cons, ← h.1, ih h.2]

/-- A loop that succeeds returns the registry's definitions for its names, each
of a type the list allows. -/
theorem collectWebhooks_ok {registry : WebhookRegistry} {list allowed : GoString}
    {names : List GoString} {ds : List WebhookDefinition}
    (h : (collectWebhooks registry list allowed names).2 = .ok ds) :
    ds = names.filterMap registry.get ∧ ∀ d ∈ ds, Referable allowed (some d) := by
  rcases collectWebhooks_result registry list allowed names with ⟨_, e, he⟩ | ⟨ok, ds', h', hm⟩
  · rw [h] at he; cases he
  rw [h, Except.ok.injEq] at h'
  subst h'
  have hds := filterMap_of_map_some hm
  refine ⟨hds, fun d hd => ?_⟩
  obtain ⟨n, hn, hg⟩ := List.mem_filterMap.1 (hds ▸ hd)
  exact hg ▸ ok n hn

theorem newWebhookFromConfig_some {c : WebhookConfig} {registry : WebhookRegistry} {p : PerJobWebhook}
    (hp : (newWebhookFromConfig c registry).2 = .ok (some p)) :
    (collectWebhooks registry errorNamesSetting webhookTypeError
        (parseWebhookNames c.webhookErrorNames)).2 = .ok p.errorWebhooks ∧
      (collectWebhooks registry infoNamesSetting webhookTypeInfo
        (parseWebhookNames c.webhookInfoNames)).2 = .ok p.infoWebhooks := by
  rw [newWebhookFromConfig_snd] at hp
  split_ifs at hp
  · cases hp
  revert hp
  rcases (collectWebhooks registry errorNamesSetting webhookTypeError _).2 with e | ds1 <;>
    rcases (collectWebhooks registry infoNamesSetting webhookTypeInfo _).2 with e | ds2 <;>
    intro hp <;> cases hp
  exact ⟨rfl, rfl⟩

theorem spawned_run (w : PerJobWebhook) (failed : Bool) (next : Option GoString × List RunEvent) :
    spawned (w.run failed next).2 =
      spawned next.2 ++ ((if failed then w.errorWebhooks else w.infoWebhooks).filter (·.active)).map .perJob := by
  rw [PerJobWebhook.run, spawned_append]
  congr 1
  induction (if failed then w.errorWebhooks else w.infoWebhooks) with
  | nil => rfl
  | cons d ds ih => cases hd : d.active <;> simp [spawned, List.filter_cons, hd] at ih ⊢ <;> exact ih

theorem shouldSend_of_referable (failed : Bool) (d : WebhookDefinition)
    (h : Referable (if failed then webhookTypeError else webhookTypeInfo) (some d)) :
    shouldSend d.type failed = true := by
  cases failed <;> rcases h with h | h <;> rw [h] <;> decide

/-- On every outcome, a dispatcher that `NewWebhookFromConfig` returned spawns
after the rest of the chain one delivery per occurrence of an active definition
named in the list the outcome picks, and each of them has a type `Run`'s
classification sends for that outcome. -/
theorem perJobWebhook_run_spawned (c : WebhookConfig) (registry : WebhookRegistry) (p : PerJobWebhook)
    (hp : (newWebhookFromConfig c registry).2 = .ok (some p)) (failed : Bool)
    (next : Option GoString × List RunEvent) :
    let delivered := ((parseWebhookNames (if failed then c.webhookErrorNames else c.webhookInfoNames)).filterMap
      registry.get).filter (·.active)
    spawned (p.run failed next).2 = spawned next.2 ++ delivered.map .perJob ∧
      ∀ d ∈ delivered, shouldSend d.type failed = true := by
  intro delivered
  obtain ⟨he, hi⟩ := newWebhookFromConfig_some hp
  obtain ⟨de, te⟩ := collectWebhooks_ok he
  obtain ⟨di, ti⟩ := collectWebhooks_ok hi
  refine ⟨?_, fun d hd => shouldSend_of_referable failed d ?_⟩
  · rw [spawned_run]
    cases failed <;> simp only [delivered, ite_true, ite_false, ← de, ← di, Bool.false_eq_true]
  · cases failed <;> simp only [delivered, ite_true, ite_false, ← de, ← di, Bool.false_eq_true, List.mem_filter] at hd ⊢
    exacts [ti d hd.1, te d hd.1]

/-- A definition of type `all`, the only entry of the registry below. -/
def slackDefinition : WebhookDefinition :=
  { name := lit "slack", type := webhookTypeAll, active := true, priority := 0,
    url := lit "https://hooks.slack.com/x", method := lit "POST", headers := none, body := .null,
    onlyOnError := false, timeout := 10, retry := none }

theorem perJobWebhook_run_spawned_slack :
    (newWebhookFromConfig ⟨lit "slack", []⟩ (newWebhookRegistry.register slackDefinition)).2 =
        .ok (some ⟨[slackDefinition], []⟩) ∧
      let delivered := ((parseWebhookNames (if true then lit "slack" else [])).filterMap
        (newWebhookRegistry.register slackDefinition).get).filter (·.active)
      spawned ((PerJobWebhook.mk [slackDefinition] []).run true (none, [])).2 =
          spawned [] ++ delivered.map .perJob ∧
        ∀ d ∈ delivered, shouldSend d.type true = true :=
  ⟨by decide, perJobWebhook_run_spawned ⟨lit "slack", []⟩ (newWebhookRegistry.register slackDefinition)
    ⟨[slackDefinition], []⟩ (by decide) true (none, [])⟩

/-! ### Delivery -/

/-- The per-job delivery of a definition makes the same requests and sleeps,
in the same order, as the global delivery of the webhook that
`NewWebhookFromDefinition` builds from it, for every runtime, network, job and
iteration order. When that construction fails it makes none. -/
theorem perJob_sendWebhook_networkEffects (lib : Lib) (net : Net) (d : WebhookDefinition)
    (ctx : Context) (orders : Nat → RangeOrder) (fuel : Nat) :
    match newWebhookFromDefinition d with
    | .ok w => (PerJobWebhook.sendWebhook lib net d ctx orders fuel).map networkEffects =
        (w.sendWebhook lib net ctx orders fuel).map networkEffects
    | .error e => PerJobWebhook.sendWebhook lib net d ctx orders fuel =
        some [.log .error (.perJobCreateFailed d.name e)] := by
  split
  · rename_i w h
    obtain ⟨-, hu, hb, hh⟩ := newWebhookFromDefinition_fields h
    simp only [PerJobWebhook.sendWebhook, Webhook.sendWebhook, h, hu, hb, hh]
    rcases executeTemplate lib d.url (buildTemplateData lib ctx) with e | url
    · rfl
    rcases renderBody lib d.body (buildTemplateData lib ctx) with e | body
    · rfl
    rcases renderHeaders lib (buildTemplateData lib ctx) ((orders 0).visit (entriesOf d.headers))
      with ⟨k, e⟩ | hs
    · rfl
    dsimp only
    rcases sendWithRetry w _ fuel with _ | ⟨fx, err⟩
    · rfl
    · cases err <;> simp only [Option.map_some', networkEffects_append_log]
  · rename_i e h
    simp only [PerJobWebhook.sendWebhook, h]

/-- Both paths can send nothing though no template fails: with `retry.count`
`-1` the definition is accepted, its URL renders, its body is nil and it has
no headers, yet the retry loop of either path makes no attempt. -/
theorem perJob_sendWebhook_negative_retry_count :
    parseWebhookConfigFile (.decoded [negativeRetryDefinition]) = .ok [negativeRetryDefinition] ∧
    executeTemplate asciiLib negativeRetryDefinition.url (buildTemplateData asciiLib backupContext) =
      .ok negativeRetryDefinition.url ∧
    renderBody asciiLib negativeRetryDefinition.body (buildTemplateData asciiLib backupContext) = .ok none ∧
    entriesOf negativeRetryDefinition.headers = [] ∧
    ∃ w, newWebhookFromDefinition negativeRetryDefinition = .ok w ∧
      (w.sendWebhook asciiLib acceptingNet backupContext (fun _ => inOrder) 2).map networkEffects = some [] ∧
      (PerJobWebhook.sendWebhook asciiLib acceptingNet negativeRetryDefinition backupContext (fun _ => inOrder)
        2).map networkEffects = some [] := by
  have hurl : executeTemplate asciiLib negativeRetryDefinition.url (buildTemplateData asciiLib backupContext) =
      .ok negativeRetryDefinition.url := executeTemplate_text _ _ _ (by decide)
  refine ⟨by decide, hurl, rfl, rfl, _, rfl, ?_, ?_⟩
  · simp (disch := decide) only [Webhook.sendWebhook, negativeRetryDefinition, executeTemplate_text,
      renderBody, if_true, entriesOf, StringMap.empty, Option.map_some', Option.getD_some,
      RangeOrder.visit_nil, renderHeaders, Except.map, sendWithRetry_negative_count]
    rfl
  · rw [PerJobWebhook.sendWebhook]
    simp (disch := decide) only [negativeRetryDefinition, executeTemplate_text,
      renderBody, if_true, entriesOf, StringMap.empty, Option.map_some', Option.getD_some,
      RangeOrder.visit_nil, renderHeaders, Except.map, sendWithRetry_negative_count]
    rfl

end Ofelia.Dispatch
