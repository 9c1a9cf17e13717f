import Ofelia.Template.Fmt

/-! The functions a template calls: those of `webhookFuncMap`, the builtins of
`text/template` (`funcs.go`), and the methods of the values that have some
(`time.Time`, `time.Duration`, `time.Month`, `time.Weekday`,
`*time.Location`). Each has a signature, which `evalCall` checks the
arguments against before the call, and a body over arguments of those types,
which returns the result or the function's error or panic.

The builtins follow `funcs.go`: `and` and `or` are evaluated by `evalCall`
itself; `index` accepts an index equal to the length, which then panics in
`reflect`; the comparisons classify their operands by `basicKind`; `html`,
`js` and `urlquery` print their operands as `evalArgs` does; `call` finds no
function value among the values here. What depends on the runtime's memory
and is not modelled is reported as unsupported: the spare capacity of a byte
slice, the identity of two `*time.Location` pointers, the internal fields of
two `time.Time` values compared with `eq`, and the methods of `*time.Time`,
which decode into the data. -/

namespace Ofelia.Template

/-- `fmt.Sprint` of an integer. -/
def decimal (n : Int) : GoString := lit (toString n)

/-- A signature: the fixed parameters, the element type of a variadic last
parameter, and the results. -/
structure Sig where
  params : List GoType
  variadic : Option GoType := none
  results : List GoType

/-- What a call can report besides its result: the function's error or
panic, or a part of the runtime the model leaves out. -/
inductive CallError where
  | failed (msg : GoString)
  | unsupported (what : GoString)
  deriving DecidableEq, Repr

/-! ### `webhookFuncMap` -/

/-- The functions of `webhookFuncMap`. -/
inductive Fn where
  | upper | lower | trim | truncate | json | jsonEscape | formatTime | unixTime | default
  | statusCode | colorHex
  deriving DecidableEq, Repr

/-- `webhookFuncMap` as a lookup. -/
def Fn.ofName (name : GoString) : Option Fn :=
  if name = lit "upper" then some .upper
  else if name = lit "lower" then some .lower
  else if name = lit "trim" then some .trim
  else if name = lit "truncate" then some .truncate
  else if name = lit "json" then some .json
  else if name = lit "jsonEscape" then some .jsonEscape
  else if name = lit "formatTime" then some .formatTime
  else if name = lit "unixTime" then some .unixTime
  else if name = lit "default" then some .default
  else if name = lit "statusCode" then some .statusCode
  else if name = lit "colorHex" then some .colorHex
  else none

/-- The parameter types of each function's Go signature. -/
def Fn.params : Fn → List GoType
  | .upper | .lower | .trim | .jsonEscape => [.string]
  | .truncate => [.int, .string]
  | .json => [.empty]
  | .formatTime => [.string, .time]
  | .unixTime => [.time]
  | .default => [.string, .string]
  | .statusCode | .colorHex => [.dataPtr]

/-- The result types: `jsonEncode` also returns an error. -/
def Fn.results : Fn → List GoType
  | .json => [.string, .error]
  | .unixTime => [.int64]
  | .statusCode => [.int]
  | _ => [.string]

/-- The standard base64 alphabet. -/
def base64Alphabet : GoString := lit "ABCDEFGHIJKLMNOPQRSTUVWXYZabcdefghijklmnopqrstuvwxyz0123456789+/"

/-- `base64.StdEncoding.EncodeToString`: three bytes to four characters, the
last group padded with `=`. -/
def base64Encode : GoString → GoString
  | a :: b :: c :: rest =>
    let n := a.toNat * 65536 + b.toNat * 256 + c.toNat
    [n / 262144, n / 4096 % 64, n / 64 % 64, n % 64].map (base64Alphabet.getD · 0) ++ base64Encode rest
  | [a, b] =>
    let n := a.toNat * 65536 + b.toNat * 256
    [n / 262144, n / 4096 % 64, n / 64 % 64].map (base64Alphabet.getD · 0) ++ lit "="
  | [a] =>
    let n := a.toNat * 65536
    [n / 262144, n / 4096 % 64].map (base64Alphabet.getD · 0) ++ lit "=="
  | [] => []

example : base64Encode (lit "Man") = lit "TWFu" ∧ base64Encode (lit "Ma") = lit "TWE=" ∧
    base64Encode (lit "M") = lit "TQ==" := by
  decide

/-- `jsonEncode`: `json.Marshal` of a value. Integers of every kind are
numbers, a float is written as JavaScript would and NaN and the infinities are
refused, a byte slice is its base64 text, `*time.Location` is a struct with no
exported field, and the data is a struct of its fields in declaration order. -/
def jsonEncode (lib : Lib) (d : WebhookTemplateData) : Val → Except GoString GoString
  | .string s => .ok (Json.quote s)
  | .bool b => .ok (if b then lit "true" else lit "false")
  | .int n | .int64 n | .month n | .weekday n | .duration n => .ok (decimal n)
  | .uint8 n => .ok (decimal n)
  | .float x =>
    if x.biased = 2047 then .error (lit "json: unsupported value: " ++ Float64.formatFloat x .g none)
    else .ok (Float64.formatJSON x)
  | .complex _ _ => .error (lit "json: unsupported type: complex128")
  | .time t _ => marshalTime t
  | .location _ => .ok (lit "\x7b\x7d")
  | .bytes b => .ok (Json.quote (base64Encode b))
  | .data => do
    let startTime ← marshalTime d.startTime
    let endTime ← marshalTime d.endTime
    let str (k : String) (v : GoString) := Json.quote (lit k) ++ 0x3A :: Json.quote v
    let bool (k : String) (b : Bool) := Json.quote (lit k) ++ 0x3A :: (if b then lit "true" else lit "false")
    return 0x7B :: List.intercalate [0x2C]
      [str "JobName" d.jobName, str "JobSchedule" d.jobSchedule, str "JobCommand" d.jobCommand,
        str "ExecutionID" d.executionID, Json.quote (lit "StartTime") ++ 0x3A :: startTime,
        Json.quote (lit "EndTime") ++ 0x3A :: endTime, str "Duration" d.duration,
        bool "IsRunning" d.isRunning, bool "Failed" d.failed, bool "Skipped" d.skipped,
        bool "Success" d.success, str "Error" d.error, bool "HasError" d.hasError,
        str "Stdout" d.stdout, str "Stderr" d.stderr, str "Hostname" d.hostname,
        str "Timestamp" d.timestamp] ++ [0x7D]
  | .nilIface | .invalid => .ok (lit "null")
where
  marshalTime (t : Time) : Except GoString GoString :=
    match lib.marshalTime t with
    | .ok s => .ok s
    | .error e => .error (lit "json: error calling MarshalJSON for type time.Time: " ++ e)

/-- The panic of a method called through a nil pointer. -/
def nilDereference : GoString := lit "runtime error: invalid memory address or nil pointer dereference"

/-- A call of a function of `webhookFuncMap` on arguments of its parameter
types; a nil `*WebhookTemplateData` makes the status helpers panic. -/
def Fn.apply (lib : Lib) (d : WebhookTemplateData) : Fn → List Val → Except CallError Val
  | .upper, [.string s] => .ok (.string (lib.toUpper s))
  | .lower, [.string s] => .ok (.string (lib.toLower s))
  | .trim, [.string s] => .ok (.string (trimSpace s))
  | .truncate, [.int n, .string s] =>
    match truncateString n s with
    | .ok r => .ok (.string r)
    | .error b => .error (.failed (lit "runtime error: slice bounds out of range [:" ++ decimal b ++ lit "]"))
  | .json, [v] =>
    match jsonEncode lib d v with
    | .ok s => .ok (.string s)
    | .error e => .error (.failed e)
  | .jsonEscape, [.string s] => .ok (.string (jsonEscapeString s))
  | .formatTime, [.string layout, .time t _] => .ok (.string (Template.formatTime lib layout t))
  | .unixTime, [.time t _] => .ok (.int64 (unixTimestamp t))
  | .default, [.string a, .string b] => .ok (.string (defaultValue a b))
  | .statusCode, [.data] => .ok (.int (Template.statusCode d))
  | .colorHex, [.data] => .ok (.string (statusColorHex d))
  | .statusCode, _ | .colorHex, _ => .error (.failed nilDereference)
  | _, _ => .error (.unsupported (lit "arguments of another type"))

/-! ### Methods -/

/-- The methods of `time.Duration`. -/
def durationMethods : List (GoString × List GoType × List GoType) :=
  [(lit "Abs", [], [.duration]), (lit "Hours", [], [.float64]), (lit "Microseconds", [], [.int64]),
    (lit "Milliseconds", [], [.int64]), (lit "Minutes", [], [.float64]), (lit "Nanoseconds", [], [.int64]),
    (lit "Round", [.duration], [.duration]), (lit "Seconds", [], [.float64]), (lit "String", [], [.string]),
    (lit "Truncate", [.duration], [.duration])]

/-- `MethodByName` on a receiver: the signature of its method of that name.
A time read from the data is addressable, so the methods of `*time.Time` are
found on it too. -/
def methodSig (recv : Val) (name : GoString) : Option Sig :=
  let ofTable (m : Option (List GoType × List GoType)) : Option Sig := m.map fun (p, r) => { params := p, results := r }
  match recv with
  | .time _ addressable => ofTable (timeMethod addressable name)
  | .duration _ => ofTable (durationMethods.lookup name)
  | .month _ | .weekday _ | .location _ => if name = lit "String" then some { params := [], results := [.string] } else none
  | _ => none

/-- `float64(q) + float64(r)/unit`, how `Hours`, `Minutes` and `Seconds`
split a duration to keep its precision. -/
def durationIn (d unit : Int) : Float64 :=
  (Float64.ofInt (d.tdiv unit)).add ((Float64.ofInt (d.tmod unit)).div (Float64.ofInt unit))

/-- `d.Round(m)`: to the nearer multiple of a positive `m`, halfway away
from zero, saturating at the ends of `int64`. -/
def durationRound (d m : Int) : Int :=
  if m ≤ 0 then d
  else
    let r := (d.tmod m).natAbs
    if d < 0 then
      if 2 * r < m then d + r else if minInt ≤ d - m + r then d - m + r else minInt
    else if 2 * r < m then d - r else if d + m - r ≤ maxInt then d + m - r else maxInt

/-- A call of a method of a `time.Duration`. -/
def callDurationMethod (lib : Lib) (d : Int) (name : GoString) (args : List Val) : Except CallError Val :=
  let named (s : String) := name = lit s
  if named "Abs" then .ok (.duration (if 0 ≤ d then d else if d = minInt then maxInt else -d))
  else if named "Hours" then .ok (.float (durationIn d 3600000000000))
  else if named "Minutes" then .ok (.float (durationIn d 60000000000))
  else if named "Seconds" then .ok (.float (durationIn d 1000000000))
  else if named "Milliseconds" then .ok (.int64 (d.tdiv 1000000))
  else if named "Microseconds" then .ok (.int64 (d.tdiv 1000))
  else if named "Nanoseconds" then .ok (.int64 d)
  else if named "String" then .ok (.string (lib.durationString (GoInt.ofInt d)))
  else match args with
    | [.duration m] =>
      if named "Round" then .ok (.duration (durationRound d m))
      else .ok (.duration (if m ≤ 0 then d else d - d.tmod m))
    | _ => .error (.unsupported (lit "arguments of another type"))

example : callDurationMethod asciiLib 5400000000000 (lit "Hours") [] = .ok (.float (Float64.ofFrac false 3 2)) ∧
    durationRound 1500 1000 = 2000 ∧ durationRound (-1500) 1000 = -2000 ∧ durationRound 1499 1000 = 1000 := by
  decide

/-- A call of a method found by `methodSig`. -/
def callMethod (lib : Lib) (recv : Val) (name : GoString) (args : List Val) : Except CallError Val :=
  match recv with
  | .time t _ =>
    if (timePointerMethods.lookup name).isSome then .error (.unsupported (lit "a method of *time.Time"))
    else match callTimeMethod lib t name args with
      | .ok v => .ok v
      | .error e => .error (.failed e)
  | .duration d => callDurationMethod lib d name args
  | .month _ | .weekday _ | .location _ =>
    match stringMethod lib recv with
    | some s => .ok (.string s)
    | none => .error (.unsupported (lit "a method"))
  | _ => .error (.unsupported (lit "a method"))

/-! ### Builtins -/

/-- The builtin functions of `text/template`. -/
inductive Builtin where
  | and | call | html | index | slice | js | len | not | or | print | printf | println | urlquery
  | eq | ge | gt | le | lt | ne
  deriving DecidableEq, Repr

/-- The builtins by name. -/
def Builtin.ofName (name : GoString) : Option Builtin :=
  [(lit "and", Builtin.and), (lit "call", .call), (lit "html", .html), (lit "index", .index),
    (lit "slice", .slice), (lit "js", .js), (lit "len", .len), (lit "not", .not), (lit "or", .or),
    (lit "print", .print), (lit "printf", .printf), (lit "println", .println), (lit "urlquery", .urlquery),
    (lit "eq", .eq), (lit "ge", .ge), (lit "gt", .gt), (lit "le", .le), (lit "lt", .lt), (lit "ne", .ne)].lookup name

/-- The Go signatures of the builtins; `reflectValue` is `reflect.Value`,
`empty` is `any`. `call` is checked against `emptyCall`'s. -/
def Builtin.sig : Builtin → Sig
  | .and | .or | .call => { params := [.reflectValue], variadic := some .reflectValue, results := [.reflectValue] }
  | .html | .js | .urlquery | .print | .println => { params := [], variadic := some .empty, results := [.string] }
  | .printf => { params := [.string], variadic := some .empty, results := [.string] }
  | .index | .slice =>
    { params := [.reflectValue], variadic := some .reflectValue, results := [.reflectValue, .error] }
  | .len => { params := [.reflectValue], results := [.int, .error] }
  | .not => { params := [.reflectValue], results := [.bool] }
  | .eq => { params := [.reflectValue], variadic := some .reflectValue, results := [.bool, .error] }
  | .ge | .gt | .le | .lt | .ne => { params := [.reflectValue, .reflectValue], results := [.bool, .error] }

/-- The name of the type a pointer points to, where `indirect` follows it. -/
def Val.elemTypeName : Val → GoString
  | .data => lit "middlewares.WebhookTemplateData"
  | .location _ => lit "time.Location"
  | v => v.typeName

/-- `reflect.Value.String()`: a string's text, else the type in angle brackets. -/
def Val.reflectString : Val → GoString
  | .string s => s
  | .invalid => lit "<invalid Value>"
  | v => 0x3C :: v.typeName ++ lit " Value>"

/-- `indexArg`: an integer index of an operand whose length is `cap`; the
length itself is accepted. -/
def indexArg (index : Val) (cap : Nat) : Except CallError Nat :=
  match index.kind, index with
  | .int, _ | .uint, _ =>
    if index.intValue < 0 ∨ cap < index.intValue then .error (.failed (lit "index out of range: " ++ decimal index.intValue))
    else .ok index.intValue.toNat
  | _, .invalid | _, .nilIface => .error (.failed (lit "cannot index slice/array with nil"))
  | _, _ => .error (.failed (lit "cannot index slice/array with type " ++ index.typeName))

/-- One step of `index`: a string or a byte slice indexed, where an index
equal to the length makes `reflect` panic. -/
def indexStep (item index : Val) : Except CallError Val :=
  match item with
  | .string s | .bytes s =>
    (indexArg index s.length).bind fun x =>
      match s.get? x with
      | some b => .ok (.uint8 b.toNat)
      | none =>
        .error (.failed (match item with
          | .string _ => lit "reflect: string index out of range"
          | _ => lit "reflect: slice index out of range"))
  | _ => .error (.failed (lit "can't index item of type " ++ item.elemTypeName))

/-- `index`: the item indexed by each index in turn. -/
def index (item : Val) (indexes : List Val) : Except CallError Val :=
  match item with
  | .invalid | .nilIface => .error (.failed (lit "index of untyped nil"))
  | _ => indexes.foldlM indexStep item

/-- `item[i:j]`, or `item[i:j:k]` of a byte slice, with the indexes read by
`indexArg` and checked in order. The capacity of a byte slice is the
runtime's, so an index past its length is not modelled. -/
def sliceOf (isString : Bool) (s : GoString) (indexes : List Val) : Except CallError Val := do
  let xs ← indexes.mapM (indexArg · s.length)
  let idx := xs ++ [0, s.length, 0].drop xs.length
  let (i, j, k) := (idx.getD 0 0, idx.getD 1 0, idx.getD 2 0)
  if j < i then .error (.failed (lit "invalid slice index: " ++ decimal i ++ lit " > " ++ decimal j))
  else if xs.length = 3 ∧ k < j then .error (.failed (lit "invalid slice index: " ++ decimal j ++ lit " > " ++ decimal k))
  else if isString then .ok (.string ((s.drop i).take (j - i)))
  else if xs.all (· ≤ s.length) then .ok (.bytes ((s.drop i).take (j - i)))
  else .error (.unsupported (lit "the capacity of a byte slice"))

/-- `slice`: a string or a byte slice sliced; a string takes at most two indexes. -/
def slice (item : Val) (indexes : List Val) : Except CallError Val :=
  match item with
  | .invalid | .nilIface => .error (.failed (lit "slice of untyped nil"))
  | _ =>
    if 3 < indexes.length then .error (.failed (lit "too many slice indexes: " ++ decimal indexes.length))
    else match item with
      | .string s =>
        if indexes.length = 3 then .error (.failed (lit "cannot 3-index slice a string")) else sliceOf true s indexes
      | .bytes s => sliceOf false s indexes
      | _ => .error (.failed (lit "can't slice item of type " ++ item.typeName))

/-- `length`: the length of a string or byte slice; the zero value has no
type to name, and asking for it panics. -/
def length (item : Val) : Except CallError Val :=
  match item with
  | .string s | .bytes s => .ok (.int s.length)
  | .invalid | .nilIface => .error (.failed (lit "reflect: call of reflect.Value.Type on zero Value"))
  | _ => .error (.failed (lit "len of type " ++ item.elemTypeName))

/-! ### Comparisons -/

/-- `errBadComparisonType`, `errBadComparison` and `errNoComparison`. -/
def errBadComparisonType : CallError := .failed (lit "invalid type for comparison")

def errBadComparison : CallError := .failed (lit "incompatible types for comparison")

def errNoComparison : CallError := .failed (lit "missing argument for comparison")

/-- The `reflect.Kind` classes `eq` tells apart among values of no basic kind. -/
inductive RKind where
  | ptr | struct | slice | invalid | basic
  deriving DecidableEq

def Val.rkind : Val → RKind
  | .data | .location _ => .ptr
  | .time _ _ => .struct
  | .bytes _ => .slice
  | .invalid | .nilIface => .invalid
  | _ => .basic

/-- `a == b` of two operands of one basic kind. -/
def basicEq (a b : Val) : Bool :=
  match a, b with
  | .bool x, .bool y => x == y
  | .complex r i, .complex r' i' => r.feq r' && i.feq i'
  | .float x, .float y => x.feq y
  | .string x, .string y => x == y
  | _, _ => a.intValue == b.intValue

/-- One comparison of `eq` between `arg1` and one of the others. Integers
compare across signedness; two values of no basic kind compare when they are
of one `reflect.Kind` or one is nil. -/
def eqOne (lib : Lib) (d : WebhookTemplateData) (a b : Val) : Except CallError Bool :=
  if a.kind ≠ b.kind then
    if a.kind = .int ∧ b.kind = .uint ∨ a.kind = .uint ∧ b.kind = .int then
      .ok (0 ≤ a.intValue ∧ a.intValue = b.intValue)
    else if a.rkind ≠ .invalid ∧ b.rkind ≠ .invalid then .error errBadComparison
    else .ok false
  else if a.kind ≠ .other then .ok (basicEq a b)
  else if a.rkind ≠ b.rkind ∧ a.rkind ≠ .invalid ∧ b.rkind ≠ .invalid then
    match printArg lib {} d a 0x73, printArg lib {} d b 0x76 with
    | some sa, some sb =>
      .error (.failed (lit "non-comparable types " ++ sa ++ lit ": " ++ a.typeName ++ lit ", " ++ b.typeName ++
        lit ": " ++ sb))
    | _, _ => .error (.unsupported (lit "printing a value"))
  else if a.rkind = .slice ∨ b.rkind = .slice then .error (.unsupported (lit "whether a byte slice is nil"))
  else if a.rkind = .invalid ∨ b.rkind = .invalid then .ok (a.rkind = b.rkind)
  else match a, b with
    | .data, .data => .ok true
    | .data, _ | _, .data => .ok false
    | _, _ => .error (.unsupported (lit "comparing the internals of a time.Time or a *time.Location"))

/-- `eq`: whether `arg1` equals one of the others. -/
def eq (lib : Lib) (d : WebhookTemplateData) (a : Val) : List Val → Except CallError Bool
  | [] => .error errNoComparison
  | bs => go bs
where
  go : List Val → Except CallError Bool
    | [] => .ok false
    | b :: bs => (eqOne lib d a b).bind fun t => if t then .ok true else go bs

/-- `lt`: both operands of a basic kind that is ordered. -/
def lt (a b : Val) : Except CallError Bool :=
  if a.kind = .other ∨ b.kind = .other then .error errBadComparisonType
  else if a.kind ≠ b.kind then
    if a.kind = .int ∧ b.kind = .uint then .ok (a.intValue < b.intValue)
    else if a.kind = .uint ∧ b.kind = .int then .ok (a.intValue < b.intValue)
    else .error errBadComparison
  else match a, b with
    | .bool _, _ | .complex _ _, _ => .error errBadComparisonType
    | .float x, .float y => .ok (x.flt y)
    | .string x, .string y => .ok (Json.strLt x y)
    | _, _ => .ok (a.intValue < b.intValue)

/-- `le`, `gt`, `ge` and `ne` as `funcs.go` derives them from `lt` and `eq`. -/
def le (lib : Lib) (d : WebhookTemplateData) (a b : Val) : Except CallError Bool :=
  (lt a b).bind fun t => if t then .ok true else eq lib d a [b]

/-! ### Escapers and printing -/

/-- `HTMLEscapeString`. -/
def htmlEscape (s : GoString) : GoString :=
  s.flatMap fun c =>
    if c = 0 then encodeRune 0xFFFD
    else if c = 0x22 then lit "&#34;"
    else if c = 0x27 then lit "&#39;"
    else if c = 0x26 then lit "&amp;"
    else if c = 0x3C then lit "&lt;"
    else if c = 0x3E then lit "&gt;"
    else [c]

/-- `JSEscapeString`: quotes, backslashes and the characters of HTML
escaped, control bytes as `\u00XX`, and a rune beyond ASCII kept when
printable, else as `\uXXXX`. -/
def jsEscape (lib : Lib) (s : GoString) : GoString :=
  (runes s).flatMap fun p =>
    match p.2 with
    | [c] =>
      if c.toNat < 0x80 then
        if c = 0x5C then lit "\\\\" else if c = 0x27 then lit "\\'" else if c = 0x22 then lit "\\\""
        else if c = 0x3C then lit "\\u003C" else if c = 0x3E then lit "\\u003E"
        else if c = 0x26 then lit "\\u0026" else if c = 0x3D then lit "\\u003D"
        else if c < 0x20 then lit "\\u00" ++ [upperDigits.getD (c.toNat / 16) 0, upperDigits.getD (c.toNat % 16) 0]
        else [c]
      else if isPrint lib p.1 then [c]
      else lit "\\u" ++ List.replicate (4 - (baseDigits upperDigits 16 130 p.1).length) 0x30 ++
        baseDigits upperDigits 16 130 p.1
    | bs =>
      if isPrint lib p.1 then bs
      else lit "\\u" ++ List.replicate (4 - (baseDigits upperDigits 16 130 p.1).length) 0x30 ++
        baseDigits upperDigits 16 130 p.1

/-- `url.QueryEscape`: letters, digits and `-_.~` kept, a space as `+`,
every other byte as `%XX`. -/
def queryEscape (s : GoString) : GoString :=
  s.flatMap fun c =>
    if (0x61 ≤ c ∧ c ≤ 0x7A) ∨ (0x41 ≤ c ∧ c ≤ 0x5A) ∨ (0x30 ≤ c ∧ c ≤ 0x39) ∨ c = 0x2D ∨ c = 0x5F ∨
        c = 0x2E ∨ c = 0x7E then [c]
    else if c = 0x20 then [0x2B]
    else [0x25, upperDigits.getD (c.toNat / 16) 0, upperDigits.getD (c.toNat % 16) 0]

/-- `evalArgs`: `fmt.Sprint` of the operands after `printableValue`, which
follows the pointer to the data and turns a nil into `<no value>`. -/
def evalArgs (lib : Lib) (d : WebhookTemplateData) : Bool → List Val → Option GoString
  | _, [] => some []
  | prevString, v :: vs =>
    let isString := match v with | .string _ | .nilIface | .invalid => true | _ => false
    let printed := match v with
      | .nilIface => some (lit "<no value>")
      | v => actionText lib d v
    printed.bind fun s =>
      (evalArgs lib d isString vs).map fun rest => (if !prevString && !isString then [0x20] else []) ++ s ++ rest

/-- A builtin other than `and`, `or` and `call` on arguments of its
signature's types. -/
def Builtin.apply (lib : Lib) (d : WebhookTemplateData) (b : Builtin) (args : List Val) : Except CallError Val :=
  let text (t : Option GoString) (f : GoString → GoString) : Except CallError Val :=
    match t with
    | some s => .ok (.string (f s))
    | none => .error (.unsupported (lit "printing a value"))
  let bool (r : Except CallError Bool) (f : Bool → Bool) : Except CallError Val := r.map fun t => .bool (f t)
  match b, args with
  | .not, [a] => .ok (.bool !a.truth)
  | .len, [a] => length a
  | .index, a :: idx => Template.index a idx
  | .slice, a :: idx => Template.slice a idx
  | .html, _ => text (evalArgs lib d true args) htmlEscape
  | .js, _ => text (evalArgs lib d true args) (jsEscape lib)
  | .urlquery, _ => text (evalArgs lib d true args) queryEscape
  | .print, _ => text (sprint lib d true args) id
  | .println, _ => text (sprintln lib d args) id
  | .printf, .string format :: rest => text (sprintf lib d format rest) id
  | .eq, a :: bs => bool (Template.eq lib d a bs) id
  | .ne, [a, b'] => bool (Template.eq lib d a [b']) (!·)
  | .lt, [a, b'] => bool (Template.lt a b') id
  | .le, [a, b'] => bool (Template.le lib d a b') id
  | .gt, [a, b'] => bool (Template.le lib d a b') (!·)
  | .ge, [a, b'] => bool (Template.lt a b') (!·)
  | _, _ => .error (.unsupported (lit "arguments of another type"))

/-- `call`: the first argument must be a function, which no value here is. -/
def callBuiltin (calleeName : GoString) (fn : Val) : Except CallError Val :=
  match fn with
  | .invalid | .nilIface => .error (.failed (lit "call of nil"))
  | _ => .error (.failed (lit "non-function " ++ calleeName ++ lit " of type " ++ fn.typeName))

end Ofelia.Template
