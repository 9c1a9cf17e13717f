import Ofelia.Json.Encode

/-! The data a webhook template sees and the helper functions of
`webhookFuncMap`. What the Go runtime supplies and this development does not
model (the Unicode letter and case tables, the clock, the host name, and the
formatting of times and durations) is a parameter `Lib` that every function
reading it takes.

`truncateString` slices bytes: its result is the first `maxLen - 3` bytes of the
input and `...`, which may cut a multi-byte rune, and a negative `maxLen` makes
the slice panic. Counted in bytes, the result is never longer than `maxLen`,
is the input when that fits, and is otherwise the cut with its marker. -/

namespace Ofelia.Template

/-- A `time.Time`: an instant in nanoseconds since the Unix epoch, with the UTC
offset in seconds of its location. -/
structure Time where
  unixNano : Int
  offset : Int
  deriving DecidableEq, Repr

/-- What the runtime supplies. -/
structure Lib where
  /-- `unicode.IsLetter`, asked only of runes from `0x80` on. -/
  isLetter : Nat → Bool
  /-- `unicode.IsDigit`, asked only of runes from `0x80` on. -/
  isDigit : Nat → Bool
  toUpper : GoString → GoString
  toLower : GoString → GoString
  /-- `t.Format(layout)`. -/
  format : Time → GoString → GoString
  /-- `t.String()`. -/
  timeString : Time → GoString
  /-- `t.MarshalJSON()`, which fails for years outside `0 ..= 9999`. -/
  marshalTime : Time → Except GoString GoString
  /-- `t.Add(d)`. -/
  add : Time → GoInt → Time
  /-- `d.String()`. -/
  durationString : GoInt → GoString
  /-- `os.Hostname()`, its error dropped. -/
  hostname : GoString
  /-- `unicode.IsPrint`, asked only of runes from `0x80` on. -/
  isPrint : Nat → Bool
  /-- `t.GoString()`. -/
  timeGoString : Time → GoString
  /-- `t.MarshalText()`. -/
  marshalText : Time → Except GoString GoString
  /-- `t.MarshalBinary()`, which is also `t.GobEncode()`. -/
  marshalBinary : Time → Except GoString GoString
  /-- `t.Local()`. -/
  inLocal : Time → Time
  /-- `t.IsDST()`. -/
  isDST : Time → Bool
  /-- `t.AddDate(years, months, days)`. -/
  addDate : Time → Int → Int → Int → Time
  /-- The name of `t.Location()`. -/
  locationName : Time → GoString
  /-- `t.In(loc)` for the location of that name. -/
  inLocation : Time → GoString → Time
  /-- Whether `range` iterates over an integer, as it does from Go 1.24 on. -/
  rangeOverInt : Bool

/-- A runtime for running templates on ASCII data: no letter, digit or
printable rune beyond ASCII, case maps and time formatting left out, a clock at
the epoch in UTC, and Go 1.24's `range`. -/
def asciiLib : Lib :=
  { isLetter := fun _ => false, isDigit := fun _ => false, toUpper := id, toLower := id,
    format := fun _ layout => layout, timeString := fun _ => [], marshalTime := fun _ => .ok (lit "null"),
    add := fun t _ => t, durationString := fun _ => lit "0s", hostname := lit "localhost",
    isPrint := fun _ => false, timeGoString := fun _ => [], marshalText := fun _ => .ok [],
    marshalBinary := fun _ => .ok [], inLocal := id, isDST := fun _ => false, addDate := fun t _ _ _ => t,
    locationName := fun _ => lit "UTC", inLocation := fun t _ => t, rangeOverInt := true }

/-- `WebhookTemplateData`. -/
structure WebhookTemplateData where
  jobName : GoString
  jobSchedule : GoString
  jobCommand : GoString
  executionID : GoString
  startTime : Time
  endTime : Time
  duration : GoString
  isRunning : Bool
  failed : Bool
  skipped : Bool
  success : Bool
  error : GoString
  hasError : Bool
  stdout : GoString
  stderr : GoString
  hostname : GoString
  timestamp : GoString
  deriving DecidableEq, Repr

/-- What `buildTemplateData` reads of a `core.Context`: the job's name,
schedule and command and the execution record. A nil error or stream is
`none`. -/
structure Context where
  jobName : GoString
  jobSchedule : GoString
  jobCommand : GoString
  id : GoString
  date : Time
  duration : GoInt
  isRunning : Bool
  failed : Bool
  skipped : Bool
  error : Option GoString
  outputStream : Option GoString
  errorStream : Option GoString
  deriving DecidableEq, Repr

/-- A finished run of a job named `backup`. -/
def backupContext : Context :=
  { jobName := lit "backup", jobSchedule := lit "@daily", jobCommand := lit "backup.sh", id := lit "1",
    date := ⟨0, 0⟩, duration := 0, isRunning := false, failed := false, skipped := false,
    error := none, outputStream := some (lit "done"), errorStream := none }

/-- The layout `time.RFC3339`. -/
def rfc3339 : GoString := lit "2006-01-02T15:04:05Z07:00"

/-- `buildTemplateData`. -/
def buildTemplateData (lib : Lib) (ctx : Context) : WebhookTemplateData :=
  { jobName := ctx.jobName, jobSchedule := ctx.jobSchedule, jobCommand := ctx.jobCommand,
    executionID := ctx.id, startTime := ctx.date, endTime := lib.add ctx.date ctx.duration,
    duration := lib.durationString ctx.duration, isRunning := ctx.isRunning,
    failed := ctx.failed, skipped := ctx.skipped, success := !ctx.failed && !ctx.skipped,
    error := ctx.error.getD [], hasError := ctx.error.isSome,
    stdout := ctx.outputStream.getD [], stderr := ctx.errorStream.getD [],
    hostname := lib.hostname, timestamp := lib.format ctx.date rfc3339 }

/-! ### Helpers -/

/-- The names `webhookFuncMap` binds. -/
def webhookFuncNames : List GoString :=
  [lit "upper", lit "lower", lit "trim", lit "truncate", lit "json", lit "jsonEscape",
    lit "formatTime", lit "unixTime", lit "default", lit "statusCode", lit "colorHex"]

/-- `truncateString`. A negative `maxLen` makes `s[:maxLen]` panic with
`slice bounds out of range`; the error carries the bound. -/
def truncateString (maxLen : Int) (s : GoString) : Except Int GoString :=
  if (s.length : Int) ≤ maxLen then .ok s
  else if maxLen ≤ 3 then
    if maxLen < 0 then .error maxLen else .ok (s.take maxLen.toNat)
  else .ok (s.take (maxLen - 3).toNat ++ lit "...")

/-- `héllo` has five characters in six bytes, so `truncate 5` cuts it after
`h` and the first byte of `é`, which leaves a string that is not UTF-8. -/
theorem truncateString_cuts_rune :
    validString (lit "héllo") = true ∧ (runes (lit "héllo")).length = 5 ∧
      truncateString 5 (lit "héllo") = .ok (lit "h" ++ [0xC3] ++ lit "...") ∧
      validString (lit "h" ++ [0xC3] ++ lit "...") = false := by
  decide

/-- `jsonEscapeString`: `json.Marshal(s)` with its surrounding quotes cut off. -/
def jsonEscapeString (s : GoString) : GoString :=
  let result := Json.quote s
  if 2 ≤ result.length then (result.drop 1).take (result.length - 2) else result

/-- `formatTime`. -/
def formatTime (lib : Lib) (layout : GoString) (t : Time) : GoString := lib.format t layout

/-- `unixTimestamp`: `t.Unix()`, whole seconds rounded toward the past. -/
def unixTimestamp (t : Time) : Int := t.unixNano.fdiv 1000000000

/-- `defaultValue`. -/
def defaultValue (defaultVal value : GoString) : GoString := if value = [] then defaultVal else value

/-- `statusCode`. -/
def statusCode (data : WebhookTemplateData) : Int :=
  if data.skipped then 2 else if data.failed then 1 else 0

/-- `statusColorHex`. -/
def statusColorHex (data : WebhookTemplateData) : GoString :=
  if data.skipped then lit "#FFA500" else if data.failed then lit "#FF0000" else lit "#00FF00"

/-- The escaping `jsonEscape` applies is `json.Marshal`'s. -/
theorem jsonEscapeString_eq (s : GoString) : jsonEscapeString s = Json.escape s := by
  simp [jsonEscapeString, Json.quote]

end Ofelia.Template
