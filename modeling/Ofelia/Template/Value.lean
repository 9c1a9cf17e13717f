import Ofelia.Template.Parse

/-! The values a template computes with, as `reflect.Value`s of the types that
reach it: the fields of `*WebhookTemplateData`, number, string and boolean
constants, and what the functions of `webhookFuncMap`, the builtins and the
methods of `time.Time` return. A value knows its Go type, its `reflect.Kind`
class as the comparison builtins see it, and its truth as `if` sees it.

The methods of `time.Time` are a table of names and signatures, so that
calling one checks its arguments and results as `evalCall` does. Those that
are arithmetic on the instant and the zone offset (the Unix times, the
calendar fields, comparisons, `Sub`, `Truncate`, `Round`, `UTC`) are computed;
formatting and the time zone database are the runtime's, in `Lib`. The four
methods with a pointer receiver decode into the time they are called on,
which changes the data; the model does not run them. -/

namespace Ofelia.Template

/-- The Go types of the values a template handles, and `interface{}`,
`reflect.Value` and `error`, which only parameters and results have. -/
inductive GoType where
  | string | bool | int | int64 | uint8 | float64 | complex128
  | time | month | weekday | duration | location | bytes | dataPtr
  | empty | reflectValue | error
  deriving DecidableEq, Repr

/-- `reflect.Type.String()`. -/
def GoType.name : GoType → GoString
  | .string => lit "string"
  | .bool => lit "bool"
  | .int => lit "int"
  | .int64 => lit "int64"
  | .uint8 => lit "uint8"
  | .float64 => lit "float64"
  | .complex128 => lit "complex128"
  | .time => lit "time.Time"
  | .month => lit "time.Month"
  | .weekday => lit "time.Weekday"
  | .duration => lit "time.Duration"
  | .location => lit "*time.Location"
  | .bytes => lit "[]uint8"
  | .dataPtr => lit "*middlewares.WebhookTemplateData"
  | .empty => lit "interface {}"
  | .reflectValue => lit "reflect.Value"
  | .error => lit "error"

/-- A value: a time read from a field of the data is addressable, so the
methods of `*time.Time` are found on it too; `nilIface` is a nil
`interface{}`, `invalid` the zero `reflect.Value`, which prints as
`<no value>`. -/
inductive Val where
  | string (s : GoString)
  | bool (b : Bool)
  | int (n : Int)
  | int64 (n : Int)
  | uint8 (n : Nat)
  | float (x : Float64)
  | complex (re im : Float64)
  | time (t : Time) (addressable : Bool)
  | month (m : Int)
  | weekday (d : Int)
  | duration (d : Int)
  | location (name : GoString)
  | bytes (b : GoString)
  | data
  | nilIface
  | invalid
  deriving DecidableEq, Repr

/-- `v.Type()`; the zero `reflect.Value` has none. -/
def Val.type : Val → Option GoType
  | .string _ => some .string
  | .bool _ => some .bool
  | .int _ => some .int
  | .int64 _ => some .int64
  | .uint8 _ => some .uint8
  | .float _ => some .float64
  | .complex _ _ => some .complex128
  | .time _ _ => some .time
  | .month _ => some .month
  | .weekday _ => some .weekday
  | .duration _ => some .duration
  | .location _ => some .location
  | .bytes _ => some .bytes
  | .data => some .dataPtr
  | .nilIface => some .empty
  | .invalid => none

/-- The classes of `basicKind`, with `other` for `invalidKind`. -/
inductive Kind where
  | bool | int | uint | float | complex | string | other
  deriving DecidableEq, Repr

/-- `basicKind`: `time.Month`, `time.Weekday` and `time.Duration` are integers. -/
def Val.kind : Val → Kind
  | .bool _ => .bool
  | .int _ | .int64 _ | .month _ | .weekday _ | .duration _ => .int
  | .uint8 _ => .uint
  | .float _ => .float
  | .complex _ _ => .complex
  | .string _ => .string
  | _ => .other

/-- The value of an integer-kind value. -/
def Val.intValue : Val → Int
  | .int n | .int64 n | .month n | .weekday n | .duration n => n
  | .uint8 n => n
  | _ => 0

/-- `isTrue` after `indirectInterface`: not the zero of its type. A struct and
a non-nil pointer are true; every value here has a truth value. -/
def Val.truth : Val → Bool
  | .string s | .bytes s => !s.isEmpty
  | .bool b => b
  | .int n | .int64 n | .month n | .weekday n | .duration n => n ≠ 0
  | .uint8 n => n ≠ 0
  | .float x => x.magBits ≠ 0
  | .complex re im => re.magBits ≠ 0 || im.magBits ≠ 0
  | .time _ _ | .location _ | .data => true
  | .nilIface | .invalid => false

/-! ### The calendar of `package time` -/

namespace Time

/-- Seconds since the Unix epoch on the time's own clock, its zone offset added. -/
def localSeconds (t : Time) : Int := t.unixNano.fdiv 1000000000 + t.offset

/-- Days since 1970-01-01 on the time's own clock. -/
def days (t : Time) : Int := t.localSeconds.fdiv 86400

/-- The seconds into the day on the time's own clock. -/
def secondOfDay (t : Time) : Int := t.localSeconds.fmod 86400

/-- The proleptic Gregorian date `(year, month, day)` of a day count since
1970-01-01, by the era arithmetic of `absDate`. -/
def civil (z : Int) : Int × Int × Int :=
  let z := z + 719468
  let era := z.fdiv 146097
  let doe := z - era * 146097
  let yoe := (doe - doe / 1460 + doe / 36524 - doe / 146096) / 365
  let doy := doe - (365 * yoe + yoe / 4 - yoe / 100)
  let mp := (5 * doy + 2) / 153
  let m := if mp < 10 then mp + 3 else mp - 9
  (yoe + era * 400 + (if m ≤ 2 then 1 else 0), m, doy - (153 * mp + 2) / 5 + 1)

/-- The day count since 1970-01-01 of a date, the inverse of `civil`. -/
def daysFromCivil (y m d : Int) : Int :=
  let y := if m ≤ 2 then y - 1 else y
  let era := y.fdiv 400
  let yoe := y - era * 400
  let doy := (153 * (if m > 2 then m - 3 else m + 9) + 2) / 5 + d - 1
  era * 146097 + yoe * 365 + yoe / 4 - yoe / 100 + doy - 719468

example : civil 0 = (1970, 1, 1) ∧ civil 19723 = (2024, 1, 1) ∧ civil (-719162) = (1, 1, 1) := by decide

/-- The instant of the zero `time.Time`, January 1 of year 1, in Unix nanoseconds. -/
def zeroUnixNano : Int := -62135596800 * 1000000000

/-- `t.Truncate(d)` and `t.Round(d)`: the remainder of the time since the zero
time modulo a positive `d`, rounded down, or to the nearer multiple with a
tie rounded up. -/
def roundTo (up : Bool) (t : Time) (d : Int) : Time :=
  if d ≤ 0 then t
  else
    let r := (t.unixNano - zeroUnixNano).emod d
    { t with unixNano := if up ∧ ¬ 2 * r < d then t.unixNano + (d - r) else t.unixNano - r }

end Time

/-! ### The methods of `time.Time` -/

/-- The exported methods of `time.Time` by name, with their parameter and
result types; the pointer receivers' four come last. -/
def timeMethods : List (GoString × List GoType × List GoType) :=
  [(lit "Add", [.duration], [.time]), (lit "AddDate", [.int, .int, .int], [.time]),
    (lit "After", [.time], [.bool]), (lit "AppendBinary", [.bytes], [.bytes, .error]),
    (lit "AppendFormat", [.bytes, .string], [.bytes]), (lit "AppendText", [.bytes], [.bytes, .error]),
    (lit "Before", [.time], [.bool]), (lit "Clock", [], [.int, .int, .int]), (lit "Compare", [.time], [.int]),
    (lit "Date", [], [.int, .month, .int]), (lit "Day", [], [.int]), (lit "Equal", [.time], [.bool]),
    (lit "Format", [.string], [.string]), (lit "GoString", [], [.string]),
    (lit "GobEncode", [], [.bytes, .error]), (lit "Hour", [], [.int]), (lit "ISOWeek", [], [.int, .int]),
    (lit "In", [.location], [.time]), (lit "IsDST", [], [.bool]), (lit "IsZero", [], [.bool]),
    (lit "Local", [], [.time]), (lit "Location", [], [.location]),
    (lit "MarshalBinary", [], [.bytes, .error]), (lit "MarshalJSON", [], [.bytes, .error]),
    (lit "MarshalText", [], [.bytes, .error]), (lit "Minute", [], [.int]), (lit "Month", [], [.month]),
    (lit "Nanosecond", [], [.int]), (lit "Round", [.duration], [.time]), (lit "Second", [], [.int]),
    (lit "String", [], [.string]), (lit "Sub", [.time], [.duration]), (lit "Truncate", [.duration], [.time]),
    (lit "UTC", [], [.time]), (lit "Unix", [], [.int64]), (lit "UnixMicro", [], [.int64]),
    (lit "UnixMilli", [], [.int64]), (lit "UnixNano", [], [.int64]), (lit "Weekday", [], [.weekday]),
    (lit "Year", [], [.int]), (lit "YearDay", [], [.int]), (lit "Zone", [], [.string, .int]),
    (lit "ZoneBounds", [], [.time, .time])]

/-- The methods of `*time.Time` beyond those of `time.Time`. -/
def timePointerMethods : List (GoString × List GoType × List GoType) :=
  [(lit "GobDecode", [.bytes], [.error]), (lit "UnmarshalBinary", [.bytes], [.error]),
    (lit "UnmarshalJSON", [.bytes], [.error]), (lit "UnmarshalText", [.bytes], [.error])]

/-- `MethodByName` on a time: its signature, when the method exists. -/
def timeMethod (addressable : Bool) (name : GoString) : Option (List GoType × List GoType) :=
  (timeMethods ++ if addressable then timePointerMethods else []).lookup name

/-- A result carried with a possible error, as `Lib` gives it, as a value. -/
def bytesResult : Except GoString GoString → Except GoString Val
  | .ok b => .ok (.bytes b)
  | .error e => .error e

/-- A call of a method of `time.Time` on arguments of its parameter types: its
result, or its error. Only the methods with one result, or a result and an
error, are called. -/
def callTimeMethod (lib : Lib) (t : Time) (name : GoString) (args : List Val) : Except GoString Val :=
  let (year, month, day) := Time.civil t.days
  let named (s : String) := name = lit s
  if named "Add" then
    match args with
    | [.duration d] => .ok (.time (lib.add t (GoInt.ofInt d)) false)
    | _ => .error []
  else if named "AddDate" then
    match args with
    | [.int y, .int m, .int d] => .ok (.time (lib.addDate t y m d) false)
    | _ => .error []
  else if named "After" ∨ named "Before" ∨ named "Equal" ∨ named "Compare" ∨ named "Sub" then
    match args with
    | [.time u _] =>
      if named "After" then .ok (.bool (u.unixNano < t.unixNano))
      else if named "Before" then .ok (.bool (t.unixNano < u.unixNano))
      else if named "Equal" then .ok (.bool (t.unixNano = u.unixNano))
      else if named "Compare" then
        .ok (.int (if t.unixNano < u.unixNano then -1 else if u.unixNano < t.unixNano then 1 else 0))
      else .ok (.duration (max minInt (min maxInt (t.unixNano - u.unixNano))))
    | _ => .error []
  else if named "AppendBinary" ∨ named "AppendText" then
    match args with
    | [.bytes b] => bytesResult (((if named "AppendText" then lib.marshalText else lib.marshalBinary) t).map (b ++ ·))
    | _ => .error []
  else if named "AppendFormat" then
    match args with
    | [.bytes b, .string layout] => .ok (.bytes (b ++ lib.format t layout))
    | _ => .error []
  else if named "Format" then
    match args with
    | [.string layout] => .ok (.string (lib.format t layout))
    | _ => .error []
  else if named "In" then
    match args with
    | [.location loc] => .ok (.time (lib.inLocation t loc) false)
    | _ => .error []
  else if named "Round" ∨ named "Truncate" then
    match args with
    | [.duration d] => .ok (.time (Time.roundTo (named "Round") t d) false)
    | _ => .error []
  else if named "Day" then .ok (.int day)
  else if named "Month" then .ok (.month month)
  else if named "Year" then .ok (.int year)
  else if named "YearDay" then .ok (.int (t.days - Time.daysFromCivil year 1 1 + 1))
  else if named "Weekday" then .ok (.weekday ((t.days + 4).fmod 7))
  else if named "Hour" then .ok (.int (t.secondOfDay / 3600))
  else if named "Minute" then .ok (.int (t.secondOfDay % 3600 / 60))
  else if named "Second" then .ok (.int (t.secondOfDay % 60))
  else if named "Nanosecond" then .ok (.int (t.unixNano.fmod 1000000000))
  else if named "Unix" then .ok (.int64 (t.unixNano.fdiv 1000000000))
  else if named "UnixMilli" then .ok (.int64 (t.unixNano.fdiv 1000000))
  else if named "UnixMicro" then .ok (.int64 (t.unixNano.fdiv 1000))
  else if named "UnixNano" then .ok (.int64 (wrap t.unixNano))
  else if named "IsZero" then .ok (.bool (t.unixNano = Time.zeroUnixNano))
  else if named "IsDST" then .ok (.bool (lib.isDST t))
  else if named "UTC" then .ok (.time { t with offset := 0 } false)
  else if named "Local" then .ok (.time (lib.inLocal t) false)
  else if named "Location" then .ok (.location (lib.locationName t))
  else if named "String" then .ok (.string (lib.timeString t))
  else if named "GoString" then .ok (.string (lib.timeGoString t))
  else if named "MarshalJSON" then bytesResult (lib.marshalTime t)
  else if named "MarshalText" then bytesResult (lib.marshalText t)
  else if named "MarshalBinary" ∨ named "GobEncode" then bytesResult (lib.marshalBinary t)
  else .error []

example : callTimeMethod asciiLib ⟨1700000000123456789, 3600⟩ (lit "Hour") [] = .ok (.int 23) ∧
    callTimeMethod asciiLib ⟨1700000000123456789, 3600⟩ (lit "Weekday") [] = .ok (.weekday 2) ∧
    callTimeMethod asciiLib ⟨1700000000123456789, 3600⟩ (lit "UnixMilli") [] = .ok (.int64 1700000000123) := by
  decide

end Ofelia.Template
