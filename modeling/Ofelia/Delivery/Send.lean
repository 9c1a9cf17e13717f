import Ofelia.Delivery.Webhook
import Ofelia.Template.Conditionals

/-! `(*Webhook).sendRequest` and `(*Webhook).sendWebhook`, the delivery task
that `Run` starts: render the URL, the body and every header value, then send
with retries. The network is a parameter `Net`. It says whether `url.Parse`
accepts a URL and how the `n`-th request of the task is answered.

A `range` loop over a Go map visits the entries in an order the language leaves
open, and each loop picks its own. The task takes one `RangeOrder` per loop:
loop `0` renders the headers, and loop `i + 1` sets them on the request of
attempt `i`.

Proved: `req.Header.Set` stores a value under the key's canonical name, and the
last value set under a name wins. So the headers of a request depend on the
iteration order exactly when two keys share a canonical name. When the
canonical names are distinct, every request carries each key's rendered value
under its canonical name and nothing else.

Every request carries the client timeout `time.Duration(Timeout) * time.Second`
the loader let through, negative ones included, and the sleeps between attempts
are the doubled backoffs, which wrap once they pass `2^63` nanoseconds. -/

namespace Ofelia.Delivery

open Config Template

/-! ### Headers -/

/-- `validHeaderFieldByte`: the token characters of RFC 7230. -/
def validHeaderFieldByte (c : UInt8) : Bool :=
  (0x30 ≤ c && c ≤ 0x39) || (0x41 ≤ c && c ≤ 0x5A) || (0x61 ≤ c && c ≤ 0x7A) ||
    c ∈ [0x21, 0x23, 0x24, 0x25, 0x26, 0x27, 0x2A, 0x2B, 0x2D, 0x2E, 0x5E, 0x5F, 0x60, 0x7C, 0x7E]

/-- The canonicalizing loop of `canonicalMIMEHeaderKey`: upper case at the start
and after each hyphen, lower case elsewhere. -/
def canonicalize : Bool → GoString → GoString
  | _, [] => []
  | upper, c :: s =>
    let c := if upper && 0x61 ≤ c && c ≤ 0x7A then c - 0x20
      else if !upper && 0x41 ≤ c && c ≤ 0x5A then c + 0x20 else c
    c :: canonicalize (c = 0x2D) s

/-- `textproto.CanonicalMIMEHeaderKey`: a key with a byte that is not a token
character is kept as it is. -/
def canonicalMIMEHeaderKey (s : GoString) : GoString :=
  if s.all validHeaderFieldByte then canonicalize true s else s

example : canonicalMIMEHeaderKey (lit "x-job-NAME") = lit "X-Job-Name" := by decide

/-- `http.Header.Set`: the value becomes the only one under the canonical name. -/
def setHeader (h : GoString → Option GoString) (key value : GoString) : GoString → Option GoString :=
  fun k => if k = canonicalMIMEHeaderKey key then some value else h k

/-- The `req.Header.Set` loop of `sendRequest`, over the entries in the order
it visits them, from an empty `http.Header`. -/
def setHeaders (entries : List (GoString × GoString)) : GoString → Option GoString :=
  entries.foldl (fun h e => setHeader h e.1 e.2) fun _ => none

/-- The order a `range` loop visits a map's entries in: any permutation. -/
structure RangeOrder where
  visit : List (GoString × GoString) → List (GoString × GoString)
  perm : ∀ l, (visit l).Perm l

/-! ### Requests -/

/-- How the network answers a request: a transport error, or a status code
and a body. -/
inductive Response where
  | transportError (err : GoString)
  | status (code : Int) (body : GoString)

/-- The network a task talks to: the error `url.Parse` gives a URL, if any, and
the answer to the `n`-th request. -/
structure Net where
  parseURL : GoString → Option GoString
  respond : Nat → HttpRequest → Response

/-- `validMethod`: a nonempty token. -/
def validMethod (method : GoString) : Bool := method ≠ [] && method.all validHeaderFieldByte

/-- `sendRequest`, attempt `n`, with the rendered headers in the order its loop
visits them. `http.NewRequest` replaces an empty method by `GET` and checks the
method and the URL; the response body is read up to 1024 bytes. -/
def sendRequest (net : Net) (w : Webhook) (url : GoString) (headers : List (GoString × GoString))
    (body : Option GoString) (n : Nat) : List Effect × Option SendError :=
  let method := if w.method = [] then lit "GET" else w.method
  if !validMethod method then ([], some (.createRequest (.invalidMethod method)))
  else
    match net.parseURL url with
    | some e => ([], some (.createRequest (.parseURL e)))
    | none =>
      let req : HttpRequest :=
        { method, url, header := setHeaders headers, body, timeout := w.timeout }
      match net.respond n req with
      | .transportError e => ([.http req], some (.requestFailed e))
      | .status code b =>
        ([.http req], if code < 200 ∨ 300 ≤ code then some (.non2xx code (b.take 1024)) else none)

/-- The header loop of `sendWebhook`: each value rendered as a template, the
first failure reported with its key. -/
def renderHeaders (lib : Lib) (data : WebhookTemplateData) :
    List (GoString × GoString) → Except (GoString × TemplateError) (List (GoString × GoString))
  | [] => .ok []
  | (key, value) :: rest =>
    match executeTemplate lib value data with
    | .error e => .error (key, e)
    | .ok v => (renderHeaders lib data rest).map ((key, v) :: ·)

/-- The entries of an optional map; a nil map has none. -/
def entriesOf (m : Option StringMap) : List (GoString × GoString) := (m.map (·.entries)).getD []

/-- The body bytes: nil for a nil body, else what `executeTemplateForBody`
renders. -/
def renderBody (lib : Lib) (body : Json.Value) (data : WebhookTemplateData) :
    Except BodyError (Option GoString) :=
  if body = .null then .ok none else (executeTemplateForBody lib body data).map some

/-- `(*Webhook).sendWebhook`: its effects, or `none` when the retry loop is
still running after `fuel` steps. -/
def Webhook.sendWebhook (lib : Lib) (net : Net) (w : Webhook) (ctx : Context)
    (orders : Nat → RangeOrder) (fuel : Nat) : Option (List Effect) :=
  let data := buildTemplateData lib ctx
  match executeTemplate lib w.url data with
  | .error e => some [.log .error (.urlTemplateFailed w.name e)]
  | .ok url =>
    match renderBody lib w.body data with
    | .error e => some [.log .error (.bodyTemplateFailed w.name e)]
    | .ok bodyBytes =>
      match renderHeaders lib data ((orders 0).visit (entriesOf w.headers)) with
      | .error (key, e) => some [.log .error (.headerTemplateFailed w.name key e)]
      | .ok headers =>
        (sendWithRetry w (fun i => sendRequest net w url ((orders (i + 1)).visit headers) bodyBytes i)
          fuel).map fun (fx, err) =>
          fx ++ [match err with
            | some e => .log .error (.failedAfterAttempts w.name (GoInt.ofInt (w.retryCount.val + 1)) e)
            | none => .log .debug (.sentSuccessfully w.name url)]

/-- What a task does on the network and the clock: its effects without the log
lines. -/
def networkEffects (fx : List Effect) : List Effect :=
  fx.filter fun | .log _ _ => false | _ => true

@[simp] theorem networkEffects_append_log (fx : List Effect) (level : Level) (entry : LogEntry) :
    networkEffects (fx ++ [.log level entry]) = networkEffects fx := by
  simp [networkEffects]

/-! ### Header order -/

/-- The request's header under `k` is the value of the last entry set whose key
has canonical name `k`. -/
theorem foldl_setHeader (l : List (GoString × GoString)) (h : GoString → Option GoString) (k : GoString) :
    l.foldl (fun h e => setHeader h e.1 e.2) h k =
      match (l.filter fun e => canonicalMIMEHeaderKey e.1 = k).getLast? with
      | some e => some e.2
      | none => h k := by
  induction l generalizing h with
  | nil => rfl
  | cons e l ih =>
    rw [List.foldl_cons, ih, List.filter_cons]
    rcases hl : (l.filter fun e => canonicalMIMEHeaderKey e.1 = k).getLast? with _ | e'
    · have hnil : l.filter (fun e => canonicalMIMEHeaderKey e.1 = k) = [] := List.getLast?_eq_none_iff.1 hl
      simp only [hnil, setHeader]
      by_cases hk : canonicalMIMEHeaderKey e.1 = k
      · simp [hk]
      · simp [hk, Ne.symm hk]
    · split_ifs <;> simp [List.getLast?_cons, hl]

theorem setHeaders_apply (l : List (GoString × GoString)) (k : GoString) :
    setHeaders l k = ((l.filter fun e => canonicalMIMEHeaderKey e.1 = k).getLast?).map (·.2) := by
  rw [setHeaders, foldl_setHeader]
  cases (l.filter fun e => canonicalMIMEHeaderKey e.1 = k).getLast? <;> rfl

/-- With pairwise distinct canonical names at most one entry matches a name. -/
theorem length_filter_canonical_le {l : List (GoString × GoString)}
    (hnd : (l.map fun e => canonicalMIMEHeaderKey e.1).Nodup) (k : GoString) :
    (l.filter fun e => canonicalMIMEHeaderKey e.1 = k).length ≤ 1 := by
  have hsub : ((l.filter fun e => canonicalMIMEHeaderKey e.1 = k).map
      fun e => canonicalMIMEHeaderKey e.1).Nodup := hnd.sublist ((List.filter_sublist l).map _)
  have hall : ∀ c ∈ (l.filter fun e => canonicalMIMEHeaderKey e.1 = k).map
      (fun e => canonicalMIMEHeaderKey e.1), c = k := by
    simp only [List.mem_map, List.mem_filter, decide_eq_true_eq]
    rintro c ⟨e, ⟨-, he⟩, rfl⟩
    exact he
  rw [List.eq_replicate_iff.2 ⟨rfl, hall⟩, List.nodup_replicate, List.length_map] at hsub
  exact hsub

/-- The `Set` loop gives the same headers in every visiting order when the
canonical names are pairwise distinct. -/
theorem setHeaders_perm {l l' : List (GoString × GoString)}
    (hnd : (l.map fun e => canonicalMIMEHeaderKey e.1).Nodup) (hp : l.Perm l') :
    setHeaders l = setHeaders l' := by
  funext k
  rw [setHeaders_apply, setHeaders_apply]
  have hf := hp.filter fun e => canonicalMIMEHeaderKey e.1 = k
  have hle := length_filter_canonical_le hnd k
  rcases hl : (l.filter fun e => canonicalMIMEHeaderKey e.1 = k) with _ | ⟨e, _ | ⟨e', t⟩⟩
  · rw [hl, List.nil_perm] at hf
    rw [hl, hf]
  · rw [hl, List.singleton_perm] at hf
    rw [hl, ← hf]
  · rw [hl] at hle
    simp at hle

theorem getLast?_eq_head? {α : Type} : ∀ {xs : List α}, xs.length ≤ 1 → xs.getLast? = xs.head?
  | [], _ => rfl
  | [_], _ => rfl
  | _ :: _ :: _, h => by simp at h

/-- The canonical name `k` carries the value of the one entry named so, when
the canonical names are pairwise distinct. -/
theorem setHeaders_of_nodup {l : List (GoString × GoString)}
    (hnd : (l.map fun e => canonicalMIMEHeaderKey e.1).Nodup) (k : GoString) :
    setHeaders l k = (l.find? fun e => canonicalMIMEHeaderKey e.1 = k).map (·.2) := by
  rw [setHeaders_apply, getLast?_eq_head? (length_filter_canonical_le hnd k), List.filter_head?]

/-! ### Requests of a task -/

/-- The requests among a task's effects, in order. -/
def httpRequests (fx : List Effect) : List HttpRequest :=
  fx.filterMap fun | .http req => some req | _ => none

@[simp] theorem httpRequests_append (a b : List Effect) :
    httpRequests (a ++ b) = httpRequests a ++ httpRequests b :=
  List.filterMap_append _ _ _

@[simp] theorem httpRequests_log (level : Level) (entry : LogEntry) :
    httpRequests [.log level entry] = [] := rfl

/-- The retry loop makes no request of its own: each one comes from a call of
`sendRequest`. -/
theorem retryLoop_requests (w : Webhook) (send : Nat → List Effect × Option SendError) :
    ∀ fuel attempt backoff lastErr calls fx err,
      retryLoop w send fuel attempt backoff lastErr calls = some (fx, err) →
      ∀ req ∈ httpRequests fx, ∃ i, req ∈ httpRequests (send i).1 := by
  intro fuel
  induction fuel with
  | zero => intro _ _ _ _ _ _ h; cases h
  | succ fuel ih =>
    intro attempt backoff lastErr calls fx err h req hreq
    have hpre : ∀ b : GoInt, httpRequests
        [.log .debug (.retryAttempt w.name attempt w.retryCount b), .sleep b] = [] := fun _ => rfl
    rw [retryLoop] at h
    split_ifs at h with hpast hpos
    · cases h; cases hreq
    all_goals
      rcases hs : send calls with ⟨fx0, _ | e⟩ <;> simp only [hs] at h
    · cases h
      simp only [httpRequests_append, hpre, List.nil_append] at hreq
      exact ⟨calls, by rw [hs]; exact hreq⟩
    · obtain ⟨⟨rest, r⟩, hrec, hfx⟩ := Option.map_eq_some'.1 h
      cases hfx
      simp only [httpRequests_append, hpre, List.nil_append, List.mem_append] at hreq
      rcases hreq with hreq | hreq
      · exact ⟨calls, by rw [hs]; exact hreq⟩
      · exact ih _ _ _ _ _ _ hrec req hreq
    · cases h
      simp only [List.nil_append] at hreq
      exact ⟨calls, by rw [hs]; exact hreq⟩
    · obtain ⟨⟨rest, r⟩, hrec, hfx⟩ := Option.map_eq_some'.1 h
      cases hfx
      simp only [httpRequests_append, List.nil_append, List.mem_append] at hreq
      rcases hreq with hreq | hreq
      · exact ⟨calls, by rw [hs]; exact hreq⟩
      · exact ih _ _ _ _ _ _ hrec req hreq

/-- `sendRequest` makes at most one request, and it carries the headers its
`Set` loop builds. -/
theorem sendRequest_effects (net : Net) (w : Webhook) (url : GoString)
    (headers : List (GoString × GoString)) (body : Option GoString) (n : Nat) :
    (sendRequest net w url headers body n).1 = [] ∨ ∃ req : HttpRequest,
      req.header = setHeaders headers ∧ (sendRequest net w url headers body n).1 = [.http req] := by
  dsimp only [sendRequest]
  generalize (if w.method = [] then lit "GET" else w.method) = method
  split_ifs
  · exact .inl rfl
  · split
    · exact .inl rfl
    · split <;> exact .inr ⟨_, rfl, rfl⟩

theorem sendRequest_header (net : Net) (w : Webhook) (url : GoString)
    (headers : List (GoString × GoString)) (body : Option GoString) (n : Nat) :
    ∀ req ∈ httpRequests (sendRequest net w url headers body n).1, req.header = setHeaders headers := by
  intro req hreq
  rcases sendRequest_effects net w url headers body n with h | ⟨r, hr, h⟩ <;> rw [h] at hreq
  · cases hreq
  · simp only [httpRequests, List.filterMap_cons, List.filterMap_nil, List.mem_singleton] at hreq
    rw [hreq, hr]

/-- The value a header renders to; only read where rendering succeeds. -/
def rendered (lib : Lib) (data : WebhookTemplateData) (e : GoString × GoString) : GoString × GoString :=
  (e.1, ((executeTemplate lib e.2 data).toOption).getD [])

/-- A successful header loop renders every value and keeps the keys. -/
theorem renderHeaders_ok {lib : Lib} {data : WebhookTemplateData} :
    ∀ {l hs : List (GoString × GoString)}, renderHeaders lib data l = .ok hs →
      (∀ e ∈ l, ∃ v, executeTemplate lib e.2 data = .ok v) ∧ hs = l.map (rendered lib data)
  | [], hs, h => by cases h; exact ⟨by simp, rfl⟩
  | (key, value) :: l, hs, h => by
    simp only [renderHeaders] at h
    split at h
    · cases h
    · rename_i v hv
      rcases hrest : renderHeaders lib data l with e | rest <;> rw [hrest] at h
      · cases h
      obtain ⟨hall, rfl⟩ := renderHeaders_ok hrest
      cases h
      refine ⟨?_, by simp [rendered, hv, Except.toOption]⟩
      simp only [List.mem_cons, forall_eq_or_imp]
      exact ⟨⟨v, hv⟩, hall⟩

/-- When the keys of a webhook's headers have pairwise distinct canonical
names, every request of its delivery task, in every iteration order of every
loop, carries under each key's canonical name that key's rendered value, and no
other header. -/
theorem sendWebhook_request_headers (lib : Lib) (net : Net) (w : Webhook) (ctx : Context)
    (orders : Nat → RangeOrder) (fuel : Nat)
    (hnd : ((entriesOf w.headers).map fun e => canonicalMIMEHeaderKey e.1).Nodup) :
    ∀ req ∈ httpRequests ((w.sendWebhook lib net ctx orders fuel).getD []), ∀ k,
      req.header k = ((entriesOf w.headers).find? fun e => canonicalMIMEHeaderKey e.1 = k).bind
        fun e => (executeTemplate lib e.2 (buildTemplateData lib ctx)).toOption := by
  intro req hreq k
  simp only [Webhook.sendWebhook] at hreq
  split at hreq
  · cases hreq
  split at hreq
  · cases hreq
  split at hreq
  · cases hreq
  rename_i hs hhs
  rcases hsw : sendWithRetry w _ fuel with _ | ⟨fx, err⟩ <;> rw [hsw] at hreq
  · cases hreq
  simp only [Option.map_some', Option.getD_some, httpRequests_append, List.mem_append] at hreq
  rcases hreq with hreq | hreq
  swap
  · split at hreq <;> cases hreq
  obtain ⟨i, hi⟩ := retryLoop_requests w _ fuel 0 _ none 0 fx err hsw req hreq
  obtain ⟨hall, rfl⟩ := renderHeaders_ok hhs
  set E := entriesOf w.headers
  have hnd' : ((E.map (rendered lib (buildTemplateData lib ctx))).map
      fun e => canonicalMIMEHeaderKey e.1).Nodup := by
    simpa [List.map_map, Function.comp_def, rendered] using hnd
  have hperm : (E.map (rendered lib (buildTemplateData lib ctx))).Perm
      ((orders (i + 1)).visit (((orders 0).visit E).map (rendered lib (buildTemplateData lib ctx)))) :=
    (((orders 0).perm E).map _).symm.trans ((orders (i + 1)).perm _).symm
  rw [sendRequest_header _ _ _ _ _ _ req hi, ← setHeaders_perm hnd' hperm, setHeaders_of_nodup hnd',
    List.find?_map, show ((fun e => decide (canonicalMIMEHeaderKey e.1 = k)) ∘
      rendered lib (buildTemplateData lib ctx)) = fun e => decide (canonicalMIMEHeaderKey e.1 = k) from rfl]
  rcases hf : E.find? (fun e => canonicalMIMEHeaderKey e.1 = k) with _ | e <;> rw [hf]
  · rfl
  · obtain ⟨v, hv⟩ := hall e (((orders 0).perm E).mem_iff.2 (List.mem_of_find?_eq_some hf))
    simp [hv, rendered, Except.toOption]

/-- A network that accepts every URL and answers `200 OK`. -/
def acceptingNet : Net := ⟨fun _ => none, fun _ _ => .status 200 []⟩

/-- The visiting order that keeps a map's entries as listed. -/
def inOrder : RangeOrder := ⟨id, List.Perm.refl⟩

/-- The visiting order that reverses them. -/
def reversedOrder : RangeOrder := ⟨List.reverse, List.reverse_perm⟩

/-- The headers of `TestTemplatedHeaders`. -/
def templatedHeaders : StringMap :=
  ⟨[(lit "X-Job-Name", lit "\x7b\x7b.JobName\x7d\x7d"),
    (lit "X-Job-Status", lit "\x7b\x7bif .Failed\x7d\x7dfailed\x7b\x7belse\x7d\x7dsuccess\x7b\x7bend\x7d\x7d")],
    by decide⟩

/-- A webhook sending `templatedHeaders`. -/
def templatedHeadersWebhook : Webhook :=
  { name := lit "test", webhookType := webhookTypeAll, active := true, url := lit "http://127.0.0.1/",
    method := lit "POST", headers := some templatedHeaders, body := .string (lit "test"),
    onlyOnError := false, timeout := GoInt.ofInt (5 * Duration.second), retryCount := 0,
    retryBackoff := defaultRetryBackoff }

theorem sendWebhook_request_headers_templated :
    ((entriesOf templatedHeadersWebhook.headers).map fun e => canonicalMIMEHeaderKey e.1).Nodup ∧
    ∀ req ∈ httpRequests ((templatedHeadersWebhook.sendWebhook asciiLib acceptingNet backupContext
        (fun _ => inOrder) 2).getD []), ∀ k,
      req.header k = ((entriesOf templatedHeadersWebhook.headers).find?
        fun e => canonicalMIMEHeaderKey e.1 = k).bind
        fun e => (executeTemplate asciiLib e.2 (buildTemplateData asciiLib backupContext)).toOption :=
  ⟨by decide, sendWebhook_request_headers asciiLib acceptingNet templatedHeadersWebhook backupContext
    (fun _ => inOrder) 2 (by decide)⟩

/-- Two header keys with one canonical name, `X-A`. -/
def collidingHeaders : StringMap := ⟨[(lit "x-a", lit "1"), (lit "X-A", lit "2")], by decide⟩

/-- A webhook sending `collidingHeaders`, with no retry. -/
def collidingWebhook : Webhook :=
  { name := lit "hook", webhookType := webhookTypeAll, active := true, url := lit "http://127.0.0.1/hook",
    method := lit "POST", headers := some collidingHeaders, body := .null, onlyOnError := false,
    timeout := GoInt.ofInt (10 * Duration.second), retryCount := 0, retryBackoff := defaultRetryBackoff }

/-- With two keys of one canonical name, the request carries the value set
last, so two iteration orders of the `Set` loop send different headers (here
for the backup job; the values are plain text, so no runtime function is
read). -/
theorem sendWebhook_headers_depend_on_order :
    (collidingWebhook.sendWebhook asciiLib acceptingNet backupContext (fun _ => inOrder) 2).map
        (fun fx => (httpRequests fx).map (·.header (lit "X-A"))) = some [some (lit "2")] ∧
    (collidingWebhook.sendWebhook asciiLib acceptingNet backupContext
        (fun i => if i = 0 then inOrder else reversedOrder) 2).map (fun fx => (httpRequests fx).map (·.header (lit "X-A"))) = some [some (lit "1")] := by
  simp (disch := decide) only [Webhook.sendWebhook, collidingWebhook, collidingHeaders, entriesOf,
    inOrder, reversedOrder, renderHeaders, executeTemplate_text, renderBody, if_pos, if_true, if_false,
    id, List.reverse_cons, List.reverse_nil, List.nil_append, List.singleton_append, Except.map]
  decide

/-! ### Retry counts the loader lets through -/

@[simp] theorem RangeOrder.visit_nil (o : RangeOrder) : o.visit [] = [] :=
  (o.perm []).eq_nil

/-- No headers render to none, whatever the order. -/
theorem renderHeaders_visit_nil (lib : Lib) (data : WebhookTemplateData) (o : RangeOrder) :
    renderHeaders lib data (o.visit []) = .ok [] := by
  rw [RangeOrder.visit_nil]
  rfl

/-- A definition the loader accepts whose `retry.count` is `-1`. -/
def negativeRetryDefinition : WebhookDefinition :=
  { name := lit "alerts", type := webhookTypeError, active := true, priority := 0,
    url := lit "http://127.0.0.1/alerts", method := lit "POST", headers := some StringMap.empty,
    body := .null, onlyOnError := false, timeout := 10, retry := some ⟨GoInt.ofInt (-1), []⟩ }

/-- With `retry.count` `-1` the retry loop never runs its body and returns a
nil `lastErr`, so the delivery task logs the webhook as sent successfully
without making a request, whatever the network answers. -/
theorem sendWebhook_negative_retry_count (lib : Lib) (net : Net) (ctx : Context)
    (orders : Nat → RangeOrder) (fuel : Nat) :
    parseWebhookConfigFile (.decoded [negativeRetryDefinition]) = .ok [negativeRetryDefinition] ∧
    ∃ w, newWebhookFromDefinition negativeRetryDefinition = .ok w ∧
      w.sendWebhook lib net ctx orders (fuel + 1) =
        some [.log .debug (.sentSuccessfully (lit "alerts") (lit "http://127.0.0.1/alerts"))] := by
  refine ⟨by decide, _, rfl, ?_⟩
  simp (disch := decide) only [Webhook.sendWebhook, negativeRetryDefinition, executeTemplate_text,
    renderBody, if_true, entriesOf, StringMap.empty, Option.map_some', Option.getD_some,
    RangeOrder.visit_nil, renderHeaders, Except.map, sendWithRetry_negative_count]
  rfl

/-! ### Durations the loader lets through -/

theorem sleeps_sendRequest (net : Net) (w : Webhook) (url : GoString)
    (headers : List (GoString × GoString)) (body : Option GoString) (n : Nat) :
    sleeps (sendRequest net w url headers body n).1 = [] := by
  rcases sendRequest_effects net w url headers body n with h | ⟨_, -, h⟩ <;> rw [h] <;> rfl

/-- When the URL, the body and the headers render, the delivery task sleeps
what its retry loop sleeps. -/
theorem sendWebhook_sleeps (lib : Lib) (net : Net) (w : Webhook) (ctx : Context)
    (orders : Nat → RangeOrder) (fuel : Nat) {url : GoString} {body : Option GoString}
    {headers : List (GoString × GoString)}
    (hu : executeTemplate lib w.url (buildTemplateData lib ctx) = .ok url)
    (hb : renderBody lib w.body (buildTemplateData lib ctx) = .ok body)
    (hh : renderHeaders lib (buildTemplateData lib ctx) ((orders 0).visit (entriesOf w.headers)) = .ok headers) :
    (w.sendWebhook lib net ctx orders fuel).map sleeps =
      (sendWithRetry w (fun i => sendRequest net w url ((orders (i + 1)).visit headers) body i) fuel).map
        fun r => sleeps r.1 := by
  simp only [Webhook.sendWebhook, hu, hb, hh, Option.map_map]
  congr 1
  funext ⟨fx, err⟩
  cases err <;> simp

/-- `sendRequest` makes its request under the client's timeout. -/
theorem sendRequest_timeout (net : Net) (w : Webhook) (url : GoString)
    (headers : List (GoString × GoString)) (body : Option GoString) (n : Nat) :
    ∀ req ∈ httpRequests (sendRequest net w url headers body n).1, req.timeout = w.timeout := by
  intro req hreq
  dsimp only [sendRequest] at hreq
  generalize (if w.method = [] then lit "GET" else w.method) = method at hreq
  split_ifs at hreq
  · cases hreq
  · split at hreq
    · cases hreq
    · split at hreq <;> simp only [httpRequests, List.filterMap_cons, List.filterMap_nil,
        List.mem_singleton] at hreq <;> rw [hreq]

/-- Every request of a delivery task comes from a call of `sendRequest` with the
rendered headers, in the order one of the `Set` loops visits them. -/
theorem sendWebhook_requests (lib : Lib) (net : Net) (w : Webhook) (ctx : Context)
    (orders : Nat → RangeOrder) (fuel : Nat) :
    ∀ req ∈ httpRequests ((w.sendWebhook lib net ctx orders fuel).getD []),
      ∃ url headers body i,
        renderHeaders lib (buildTemplateData lib ctx) ((orders 0).visit (entriesOf w.headers)) = .ok headers ∧
        req ∈ httpRequests (sendRequest net w url ((orders (i + 1)).visit headers) body i).1 := by
  intro req hreq
  simp only [Webhook.sendWebhook] at hreq
  split at hreq
  · cases hreq
  split at hreq
  · cases hreq
  split at hreq
  · cases hreq
  rename_i hs hhs
  rcases hsw : sendWithRetry w _ fuel with _ | ⟨fx, err⟩ <;> rw [hsw] at hreq
  · cases hreq
  simp only [Option.map_some', Option.getD_some, httpRequests_append, List.mem_append] at hreq
  rcases hreq with hreq | hreq
  · obtain ⟨i, hi⟩ := retryLoop_requests w _ fuel 0 _ none 0 fx err hsw req hreq
    exact ⟨_, hs, _, i, hhs, hi⟩
  · split at hreq <;> cases hreq

/-- Every request of a delivery task is made under the webhook's timeout. -/
theorem sendWebhook_request_timeout (lib : Lib) (net : Net) (w : Webhook) (ctx : Context)
    (orders : Nat → RangeOrder) (fuel : Nat) :
    ∀ req ∈ httpRequests ((w.sendWebhook lib net ctx orders fuel).getD []), req.timeout = w.timeout := by
  intro req hreq
  obtain ⟨_, _, _, _, -, hi⟩ := sendWebhook_requests lib net w ctx orders fuel req hreq
  exact sendRequest_timeout _ _ _ _ _ _ req hi

/-- With a valid method and a URL the network parses, `sendRequest` makes its request. -/
theorem sendRequest_sends (net : Net) (w : Webhook) (url : GoString)
    (headers : List (GoString × GoString)) (body : Option GoString) (n : Nat)
    (hm : validMethod (if w.method = [] then lit "GET" else w.method)) (hurl : net.parseURL url = none) :
    httpRequests (sendRequest net w url headers body n).1 ≠ [] := by
  dsimp only [sendRequest]
  simp only [hm, Bool.not_true, Bool.false_eq_true, if_false, hurl]
  split <;> simp [httpRequests]

/-- When the URL, the body and the headers render, the method is valid, the
network parses the URL and the retry count is in range, the delivery task
makes at least one request. -/
theorem sendWebhook_sends (lib : Lib) (net : Net) (w : Webhook) (ctx : Context)
    (orders : Nat → RangeOrder) (fuel : Nat) {url : GoString} {body : Option GoString}
    {headers : List (GoString × GoString)}
    (hu : executeTemplate lib w.url (buildTemplateData lib ctx) = .ok url)
    (hb : renderBody lib w.body (buildTemplateData lib ctx) = .ok body)
    (hh : renderHeaders lib (buildTemplateData lib ctx) ((orders 0).visit (entriesOf w.headers)) = .ok headers)
    (hm : validMethod (if w.method = [] then lit "GET" else w.method)) (hurl : net.parseURL url = none)
    (h0 : 0 ≤ w.retryCount.val) (h1 : w.retryCount.val < maxInt) (hf : w.retryCount.val.toNat + 2 ≤ fuel) :
    httpRequests ((w.sendWebhook lib net ctx orders fuel).getD []) ≠ [] := by
  obtain ⟨fx, err, h⟩ := sendWithRetry_first w
    (fun i => sendRequest net w url ((orders (i + 1)).visit headers) body i) fuel h0 h1 hf
  simp only [Webhook.sendWebhook, hu, hb, hh, h, Option.map_some', Option.getD_some, httpRequests_append,
    ne_eq, List.append_eq_nil]
  exact fun h' => sendRequest_sends net w url _ body 0 hm hurl h'.1.1

/-- A definition the loader accepts whose `timeout` is `-1`. -/
def negativeTimeoutDefinition : WebhookDefinition :=
  { name := lit "slow", type := webhookTypeAll, active := true, priority := 0,
    url := lit "http://127.0.0.1/slow", method := lit "POST", headers := some StringMap.empty,
    body := .null, onlyOnError := false, timeout := GoInt.ofInt (-1), retry := none }

/-- The loader keeps `timeout` `-1`. Against a network that parses the URL,
the webhook built from it makes a request, and every request it makes is under
a client timeout of minus one second, which `net/http` reads as no timeout. -/
theorem sendWebhook_negative_timeout (lib : Lib) (net : Net) (ctx : Context)
    (orders : Nat → RangeOrder) (fuel : Nat) (hurl : net.parseURL (lit "http://127.0.0.1/slow") = none) :
    parseWebhookConfigFile (.decoded [negativeTimeoutDefinition]) = .ok [negativeTimeoutDefinition] ∧
    ∃ w, newWebhookFromDefinition negativeTimeoutDefinition = .ok w ∧
      httpRequests ((w.sendWebhook lib net ctx orders (fuel + 2)).getD []) ≠ [] ∧
      ∀ req ∈ httpRequests ((w.sendWebhook lib net ctx orders (fuel + 2)).getD []),
        req.timeout.val = -(Duration.second : Int) := by
  refine ⟨by decide, _, rfl, ?_, fun req hreq => ?_⟩
  · exact sendWebhook_sends lib net _ ctx orders _ (executeTemplate_text _ _ _ (by decide)) rfl
      (renderHeaders_visit_nil _ _ _) (by decide) hurl (by decide) (by decide)
      (Nat.add_le_add_right (Nat.zero_le fuel) 2)
  · rw [sendWebhook_request_timeout lib net _ ctx orders _ req hreq]
    rfl

/-- The webhook of `negativeTimeoutDefinition` against a network that accepts
every request. -/
theorem sendWebhook_negative_timeout_accepting :
    acceptingNet.parseURL (lit "http://127.0.0.1/slow") = none ∧
    ∃ w, newWebhookFromDefinition negativeTimeoutDefinition = .ok w ∧
      httpRequests ((w.sendWebhook asciiLib acceptingNet backupContext (fun _ => inOrder) 2).getD []) ≠ [] ∧
      ∀ req ∈ httpRequests ((w.sendWebhook asciiLib acceptingNet backupContext (fun _ => inOrder) 2).getD []),
        req.timeout.val = -(Duration.second : Int) :=
  ⟨rfl, (sendWebhook_negative_timeout asciiLib acceptingNet backupContext (fun _ => inOrder) 0 rfl).2⟩

/-- A definition the loader accepts with `retry.count` 35 and `retry.backoff` `1s`. -/
def longRetryDefinition : WebhookDefinition :=
  { name := lit "alerts", type := webhookTypeError, active := true, priority := 0,
    url := lit "http://127.0.0.1/alerts", method := lit "POST", headers := some StringMap.empty,
    body := .null, onlyOnError := false, timeout := 10, retry := some ⟨35, lit "1s"⟩ }

/-- The webhook `NewWebhookFromDefinition` builds from `longRetryDefinition`. -/
def longRetryWebhook : Webhook :=
  { name := lit "alerts", webhookType := webhookTypeError, active := true,
    url := lit "http://127.0.0.1/alerts", method := lit "POST", headers := some StringMap.empty,
    body := .null, onlyOnError := false, timeout := GoInt.ofInt (10 * Duration.second), retryCount := 35,
    retryBackoff := GoInt.ofInt Duration.second }

/-- A server that answers every request with status 500. -/
def failingNet : Net := ⟨fun _ => none, fun _ _ => .status 500 []⟩

theorem sendRequest_failingNet (w : Webhook) (url : GoString) (headers : List (GoString × GoString))
    (body : Option GoString) (n : Nat) (hm : validMethod (if w.method = [] then lit "GET" else w.method)) :
    (sendRequest failingNet w url headers body n).2 = some (.non2xx 500 []) := by
  simp [sendRequest, hm, failingNet]

/-- Against a server that always fails, the webhook of `longRetryDefinition`
sleeps the backoff doubled `0, 1, …, 34` times. The 34th sleep is `2 ^ 33`
seconds; doubling it passes `2 ^ 63` nanoseconds, so the 35th is negative. -/
theorem sendWebhook_backoff_wraps (lib : Lib) (ctx : Context) (orders : Nat → RangeOrder) (fuel : Nat) :
    parseWebhookConfigFile (.decoded [longRetryDefinition]) = .ok [longRetryDefinition] ∧
    ∃ w, newWebhookFromDefinition longRetryDefinition = .ok w ∧
      (w.sendWebhook lib failingNet ctx orders (fuel + 37)).map sleeps =
        some ((List.range 35).map (doubled w.retryBackoff)) ∧
      (doubled w.retryBackoff 33).val = Duration.second * 2 ^ 33 ∧
      (doubled w.retryBackoff 34).val = Duration.second * 2 ^ 34 - 2 ^ 64 := by
  have h33 : (doubled longRetryWebhook.retryBackoff 33).val = Duration.second * 2 ^ 33 :=
    doubled_val (by decide) (by decide)
  refine ⟨by decide, longRetryWebhook, by decide, ?_, h33, by rw [doubled, h33]; decide⟩
  let send := fun i => sendRequest failingNet longRetryWebhook longRetryWebhook.url ((orders (i + 1)).visit []) none i
  obtain ⟨k, -, hk, h⟩ := sendWithRetry_sleeps longRetryWebhook send (fuel + 37) (by decide) (by decide)
    (by rw [show longRetryWebhook.retryCount.val.toNat = 35 from rfl]; omega)
    fun i => sleeps_sendRequest _ _ _ _ _ i
  rw [sendRequest_failingNet _ _ _ _ _ (by decide)] at hk
  obtain rfl : k = 35 := by simpa using hk
  rw [sendWebhook_sleeps lib failingNet longRetryWebhook ctx orders _ (executeTemplate_text _ _ _ (by decide)) rfl
    (renderHeaders_visit_nil _ _ _), ← h]

end Ofelia.Delivery
