import Ofelia.Delivery.Send

/-! `(*Webhook).Run`, the global dispatcher, and the middleware chain it runs in.
`Run` first calls `ctx.Next()`, which runs the rest of the chain and then the
job, and only afterwards classifies the outcome and spawns its delivery; it
returns the error of `ctx.Next()` unchanged. A spawned delivery is recorded as an
event; what it does is `sendWebhook`'s business.

Proved: over a whole chain the deliveries are spawned in the reverse of the
chain order, and the chain returns the job's error whatever the webhooks do. -/

namespace Ofelia.Dispatch

open Config Delivery

/-- Modelled from the spec: the outcome of the job pipeline as the middlewares
see it after `ctx.Next()` and `ctx.Stop(err)`: the error the job returned and
the execution's `Failed` flag. -/
structure Outcome where
  err : Option GoString
  failed : Bool
  deriving DecidableEq, Repr

/-- A background task started with `go`. -/
inductive Spawn where
  | global (w : Webhook)
  | perJob (d : WebhookDefinition)
  deriving DecidableEq, Repr

/-- The `Debugf` lines of the dispatchers. -/
inductive RunLog where
  | skippedInactive (name : GoString)
  | skippedTypeMismatch (name webhookType : GoString) (failed : Bool)
  | skippedOnlyOnError (name : GoString)
  deriving DecidableEq, Repr

/-- What a dispatcher does while the job's middlewares run, in order. -/
inductive RunEvent where
  | spawn (s : Spawn)
  | log (entry : RunLog)
  deriving DecidableEq, Repr

/-- The classification of `Run`: send for type `all`, for `error` when the job
failed, for `info` when it did not. -/
def shouldSend (webhookType : GoString) (failed : Bool) : Bool :=
  if webhookType = webhookTypeAll then true
  else if failed && webhookType = webhookTypeError then true
  else if !failed && webhookType = webhookTypeInfo then true
  else false

end Ofelia.Dispatch

namespace Ofelia.Delivery

open Config Dispatch

/-- `(*Webhook).Run` after `ctx.Next()`: the event it adds for the outcome. -/
def Webhook.decide (w : Webhook) (failed : Bool) : RunEvent :=
  if !w.active then .log (.skippedInactive w.name)
  else if !shouldSend w.webhookType failed then .log (.skippedTypeMismatch w.name w.webhookType failed)
  else if w.onlyOnError && !failed then .log (.skippedOnlyOnError w.name)
  else .spawn (.global w)

/-- `(*Webhook).Run`, given what `ctx.Next()` returned and did: the error is
passed through and the webhook's own event comes after those of the rest of
the chain. -/
def Webhook.run (w : Webhook) (failed : Bool) (next : Option GoString × List RunEvent) :
    Option GoString × List RunEvent :=
  (next.1, next.2 ++ [w.decide failed])

end Ofelia.Delivery

namespace Ofelia.Dispatch

open Config Delivery

/-- Modelled from the spec: a job whose middleware chain is `ws`, each `Run`'s
`ctx.Next()` running the rest of the chain and then the job. -/
def runChain (o : Outcome) : List Webhook → Option GoString × List RunEvent
  | [] => (o.err, [])
  | w :: ws => w.run o.failed (runChain o ws)

/-- The webhooks whose `Run` spawns a delivery for the outcome. -/
def Eligible (failed : Bool) (w : Webhook) : Bool :=
  w.active && shouldSend w.webhookType failed && !(w.onlyOnError && !failed)

/-- The spawned tasks of a list of events, in order. -/
def spawned (evs : List RunEvent) : List Spawn :=
  evs.filterMap fun | .spawn s => some s | .log _ => none

@[simp] theorem spawned_append (a b : List RunEvent) : spawned (a ++ b) = spawned a ++ spawned b :=
  List.filterMap_append _ _ _

theorem spawned_decide (w : Webhook) (failed : Bool) :
    spawned [w.decide failed] = if Eligible failed w then [.global w] else [] := by
  unfold Webhook.decide Eligible
  cases w.active <;> cases shouldSend w.webhookType failed <;> cases w.onlyOnError <;>
    cases failed <;> rfl

/-- A whole chain: the job's error comes back unchanged, and the eligible
webhooks spawn their deliveries innermost first, the reverse of chain order. -/
theorem runChain_spawned (o : Outcome) (ws : List Webhook) :
    (runChain o ws).1 = o.err ∧
      spawned (runChain o ws).2 = ((ws.filter (Eligible o.failed)).map .global).reverse := by
  induction ws with
  | nil => exact ⟨rfl, rfl⟩
  | cons w ws ih =>
    simp only [runChain, Webhook.run, spawned_append] at ih ⊢
    refine ⟨ih.1, ?_⟩
    rw [ih.2, spawned_decide, List.filter_cons]
    split_ifs <;> simp

end Ofelia.Dispatch
