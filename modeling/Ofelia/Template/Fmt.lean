import Ofelia.Template.Value

/-! Package `fmt` on the values of templates: `fmt.Sprint`, `fmt.Sprintln`
and `fmt.Sprintf`, which the builtins `print`, `println` and `printf` are,
and `fmt.Fprint`, which prints an action's value. A verb's flags, width and
precision are read as `doPrintf` reads them, explicit argument indexes
included, and each value is written as `printArg` writes it: booleans,
integers in every base, floats through `strconv.FormatFloat`, strings and
byte slices plain, quoted or in hexadecimal, values with a `String` method
through it, and the data as a struct of its fields. A verb that does not
apply to a value writes `%!verb(type=value)`.

Two things are not modelled and give `none`: the fields of a `time.Time`
under a verb other than those that call its `String` method, among which is
a pointer printed as an address, and `%p`, which prints addresses. -/

namespace Ofelia.Template

open Float64 (formatFloat Fmt digits)

/-- The flags, width and precision of a verb, whether `%#v` or `%+v` was
asked, and whether the printer is writing a `badVerb` report, during which it
calls no method of the value. -/
structure Flags where
  sharp : Bool := false
  zero : Bool := false
  plus : Bool := false
  minus : Bool := false
  space : Bool := false
  wid : Option Nat := none
  prec : Option Nat := none
  sharpV : Bool := false
  plusV : Bool := false
  erroring : Bool := false

namespace Flags

/-- `writePadding`: `n` bytes of padding, zeros only to the left. -/
def padding (f : Flags) (n : Nat) : GoString := List.replicate n (if f.zero && !f.minus then 0x30 else 0x20)

/-- `pad`: `s` padded to the width, counted in runes, on the left, or on the right with `-`. -/
def pad (f : Flags) (s : GoString) : GoString :=
  match f.wid with
  | none => s
  | some w => if f.minus then s ++ f.padding (w - (runes s).length) else f.padding (w - (runes s).length) ++ s

/-- `truncate`: at most `prec` runes of `s`. -/
def truncate (f : Flags) (s : GoString) : GoString :=
  match f.prec with
  | none => s
  | some p => ((runes s).take p).flatMap (·.2)

end Flags

def lowerDigits : GoString := lit "0123456789abcdefx"

def upperDigits : GoString := lit "0123456789ABCDEFX"

/-- The digits of `u` in base `b`, from the table `ds`. -/
def baseDigits (ds : GoString) (b : Nat) : Nat → Nat → GoString
  | 0, _ => []
  | fuel + 1, u => if u < b then [ds.getD u 0x30] else baseDigits ds b fuel (u / b) ++ [ds.getD (u % b) 0x30]

/-- `fmtInteger`: `v` in base `base`, with the precision or the zero flag
padding digits, the prefixes of `#` and `%O`, and the sign. -/
def Flags.fmtInteger (f : Flags) (v : Int) (base : Nat) (verbO : Bool) (ds : GoString) : GoString :=
  let negative := v < 0
  let u := v.natAbs
  if f.prec = some 0 ∧ u = 0 then List.replicate (f.wid.getD 0) 0x20
  else
    let prec := match f.prec with
      | some p => p
      | none =>
        if f.zero && !f.minus then f.wid.getD 0 - (if negative || f.plus || f.space then 1 else 0) else 0
    let d := baseDigits ds base 130 u
    let d := List.replicate (prec - d.length) 0x30 ++ d
    let d := if !f.sharp then d
      else if base = 2 then lit "0b" ++ d
      else if base = 8 then (if d.head? = some 0x30 then d else 0x30 :: d)
      else if base = 16 then 0x30 :: ds.getD 16 0x78 :: d
      else d
    let d := if verbO then lit "0o" ++ d else d
    let d := if negative then 0x2D :: d else if f.plus then 0x2B :: d else if f.space then 0x20 :: d else d
    { f with zero := false }.pad d

/-! ### Quoting -/

/-- `strconv.IsPrint`: the printable ASCII runes, and what the runtime says of the others. -/
def isPrint (lib : Lib) (r : Nat) : Bool := if r < 0x80 then 0x20 ≤ r && r ≤ 0x7E else lib.isPrint r

/-- The lower-case hexadecimal digits of `r`, `n` of them. -/
def hexN (n r : Nat) : GoString := (List.range n).reverse.map fun i => lowerDigits.getD (r / 16 ^ i % 16) 0x30

/-- `appendEscapedRune`. -/
def escapedRune (lib : Lib) (r : Nat) (quote : Nat) (asciiOnly : Bool) : GoString :=
  if r = quote ∨ r = 0x5C then 0x5C :: encodeRune r
  else if (if asciiOnly then r < 0x80 && isPrint lib r else isPrint lib r) then encodeRune r
  else if r = 0x07 then lit "\\a"
  else if r = 0x08 then lit "\\b"
  else if r = 0x0C then lit "\\f"
  else if r = 0x0A then lit "\\n"
  else if r = 0x0D then lit "\\r"
  else if r = 0x09 then lit "\\t"
  else if r = 0x0B then lit "\\v"
  else if r < 0x20 ∨ r = 0x7F then lit "\\x" ++ hexN 2 r
  else
    let r := if validRune r then r else 0xFFFD
    if r < 0x10000 then lit "\\u" ++ hexN 4 r else lit "\\U" ++ hexN 8 r

/-- `strconv.Quote` (`QuoteToASCII` with `asciiOnly`): a byte that is no rune
is written `\xHH`. -/
def quote (lib : Lib) (s : GoString) (asciiOnly : Bool) : GoString :=
  0x22 :: (runes s).flatMap (fun p =>
    match p.2 with
    | [b] => if p.1 = runeError then lit "\\x" ++ hexN 2 b.toNat else escapedRune lib p.1 0x22 asciiOnly
    | _ => escapedRune lib p.1 0x22 asciiOnly) ++ [0x22]

/-- `strconv.QuoteRune` (`QuoteRuneToASCII` with `asciiOnly`). -/
def quoteRune (lib : Lib) (r : Nat) (asciiOnly : Bool) : GoString :=
  0x27 :: escapedRune lib (if validRune r then r else 0xFFFD) 0x27 asciiOnly ++ [0x27]

/-- `strconv.CanBackquote`. -/
def canBackquote (s : GoString) : Bool :=
  (runes s).all fun p =>
    if 1 < p.2.length then p.1 ≠ 0xFEFF
    else p.1 ≠ runeError && (0x20 ≤ p.1 || p.1 = 0x09) && p.1 ≠ 0x60 && p.1 ≠ 0x7F

/-- The rune an integer stands for under `%c`: `RuneError` past `MaxRune`. -/
def runeOf (v : Int) : Nat := if v < 0 ∨ 0x10FFFF < v then 0xFFFD else v.toNat

/-- Whether the verb is one of the bytes of `s`. -/
def verbIn (verb : Nat) (s : GoString) : Bool := s.any (·.toNat = verb)

/-! ### Values -/

/-- The names `time.Month.String` and `time.Weekday.String` give. -/
def monthNames : List GoString :=
  [lit "January", lit "February", lit "March", lit "April", lit "May", lit "June", lit "July",
    lit "August", lit "September", lit "October", lit "November", lit "December"]

def dayNames : List GoString :=
  [lit "Sunday", lit "Monday", lit "Tuesday", lit "Wednesday", lit "Thursday", lit "Friday", lit "Saturday"]

/-- `String()` of the values that have one: times, months, weekdays,
durations and locations. -/
def stringMethod (lib : Lib) : Val → Option GoString
  | .time t _ => some (lib.timeString t)
  | .month m => some (if 1 ≤ m ∧ m ≤ 12 then monthNames.getD (m.toNat - 1) [] else lit "%!Month(" ++ lit (toString m) ++ lit ")")
  | .weekday d => some (if 0 ≤ d ∧ d ≤ 6 then dayNames.getD d.toNat [] else lit "%!Weekday(" ++ lit (toString d) ++ lit ")")
  | .duration d => some (lib.durationString (GoInt.ofInt d))
  | .location name => some name
  | _ => none

/-- The exported fields of `WebhookTemplateData` in declaration order. -/
def WebhookTemplateData.fields (d : WebhookTemplateData) : List (GoString × Val) :=
  [(lit "JobName", .string d.jobName), (lit "JobSchedule", .string d.jobSchedule),
    (lit "JobCommand", .string d.jobCommand), (lit "ExecutionID", .string d.executionID),
    (lit "StartTime", .time d.startTime true), (lit "EndTime", .time d.endTime true),
    (lit "Duration", .string d.duration), (lit "IsRunning", .bool d.isRunning), (lit "Failed", .bool d.failed),
    (lit "Skipped", .bool d.skipped), (lit "Success", .bool d.success), (lit "Error", .string d.error),
    (lit "HasError", .bool d.hasError), (lit "Stdout", .string d.stdout), (lit "Stderr", .string d.stderr),
    (lit "Hostname", .string d.hostname), (lit "Timestamp", .string d.timestamp)]

/-- The exported field of the name, if the struct has one. -/
def WebhookTemplateData.field (d : WebhookTemplateData) (name : GoString) : Option Val :=
  d.fields.lookup name


section

variable (lib : Lib) (f : Flags)

/-- `fmtS`, `fmtQ` and `fmtSbx`, shared by strings and byte slices. -/
def fmtS (s : GoString) : GoString := f.pad (f.truncate s)

def fmtQ (s : GoString) : GoString :=
  let s := f.truncate s
  if f.sharp && canBackquote s then f.pad (0x60 :: s ++ [0x60]) else f.pad (quote lib s f.plus)

def fmtSbx (s : GoString) (ds : GoString) : GoString :=
  let s := match f.prec with
    | some p => s.take p
    | none => s
  if s = [] then f.padding (f.wid.getD 0)
  else
    let width := if f.space then (if f.sharp then 4 else 2) * s.length + s.length - 1
      else 2 * s.length + (if f.sharp then 2 else 0)
    let hex := (if f.sharp && !f.space then [0x30, ds.getD 16 0x78] else []) ++
      [0x20].intercalate (s.map fun c =>
        (if f.sharp && f.space then [0x30, ds.getD 16 0x78] else []) ++
          [ds.getD (c.toNat / 16) 0x30, ds.getD (c.toNat % 16) 0x30])
    if f.minus then hex ++ f.padding (f.wid.getD 0 - width) else f.padding (f.wid.getD 0 - width) ++ hex

/-- `fmtFloat` of package `fmt` over `strconv.FormatFloat`: the sign rules of
`+` and space, infinities and NaN not padded with zeros, the point and the
zeros of `#`, and zero padding after the sign. -/
def fmtFloatWith (x : Float64) (fmt : Fmt) (prec : Option Nat) : GoString :=
  let prec := if f.prec.isSome then f.prec else prec
  let s := formatFloat x fmt prec
  let num : GoString := match s with
    | 0x2D :: _ | 0x2B :: _ => s
    | _ => 0x2B :: s
  let num := if f.space && num.head? = some 0x2B && !f.plus then 0x20 :: num.drop 1 else num
  if num.getD 1 0 = 0x49 ∨ num.getD 1 0 = 0x4E then
    { f with zero := false }.pad (if num.getD 1 0 = 0x4E && !f.space && !f.plus then num.drop 1 else num)
  else
    let num := if !f.sharp || fmt = .b then num
      else
        let isTail (c : UInt8) : Bool := c = 0x70 ∨ c = 0x50 ∨ ((c = 0x65 ∨ c = 0x45) ∧ fmt ≠ .x ∧ fmt ≠ .X)
        let body := (num.drop 1).takeWhile (!isTail ·)
        let digits : Int := if fmt = .g ∨ fmt = .G ∨ fmt = .x then (prec.getD 6 : Nat) else 0
        let counted : Int := ((body.filter (· ≠ 0x2E)).dropWhile (· = 0x30)).length +
          (if body = [0x30] then 1 else 0)
        num.take 1 ++ (if 0x2E ∈ body then body else body ++ [0x2E]) ++
          List.replicate (digits - counted).toNat 0x30 ++ (num.drop 1).dropWhile (!isTail ·)
    if f.plus || num.head? ≠ some 0x2B then
      if f.zero && !f.minus && num.length < f.wid.getD 0 then
        num.take 1 ++ f.padding (f.wid.getD 0 - num.length) ++ num.drop 1
      else f.pad num
    else f.pad (num.drop 1)

/-- `fmtFloat` of `pp`: the verbs of floats, `%v` the shortest `%g`. -/
def fmtFloat (x : Float64) (verb : Nat) : Option GoString :=
  if verb = 0x76 ∨ verb = 0x67 then some (fmtFloatWith f x .g none)
  else if verb = 0x62 then some (fmtFloatWith f x .b none)
  else if verb = 0x47 then some (fmtFloatWith f x .G none)
  else if verb = 0x78 then some (fmtFloatWith f x .x none)
  else if verb = 0x58 then some (fmtFloatWith f x .X none)
  else if verb = 0x66 ∨ verb = 0x46 then some (fmtFloatWith f x .f (some 6))
  else if verb = 0x65 then some (fmtFloatWith f x .e (some 6))
  else if verb = 0x45 then some (fmtFloatWith f x .E (some 6))
  else none

/-- `fmtUnicode`: `U+` and at least four upper-case hexadecimal digits of the
value as a `uint64`, and with `#` the rune quoted. -/
def fmtUnicode (v : Int) : GoString :=
  let u := if v < 0 then (2 ^ 64 + v).toNat else v.toNat
  let hex := baseDigits upperDigits 16 130 u
  let tail := if f.sharp && u ≤ 0x10FFFF && isPrint lib u then lit " '" ++ encodeRune u ++ [0x27] else []
  { f with zero := false }.pad (lit "U+" ++ List.replicate (max 4 (f.prec.getD 4) - hex.length) 0x30 ++ hex ++ tail)

/-- `fmtInteger` of `pp`: the verbs of integers; `%#v` of an unsigned one is hexadecimal. -/
def fmtInt (v : Int) (signed : Bool) (verb : Nat) : Option GoString :=
  if verb = 0x76 then
    some (if f.sharpV && !signed then { f with sharp := true }.fmtInteger v 16 false lowerDigits
      else f.fmtInteger v 10 false lowerDigits)
  else if verb = 0x64 then some (f.fmtInteger v 10 false lowerDigits)
  else if verb = 0x62 then some (f.fmtInteger v 2 false lowerDigits)
  else if verb = 0x6F ∨ verb = 0x4F then some (f.fmtInteger v 8 (verb = 0x4F) lowerDigits)
  else if verb = 0x78 then some (f.fmtInteger v 16 false lowerDigits)
  else if verb = 0x58 then some (f.fmtInteger v 16 false upperDigits)
  else if verb = 0x63 then some (f.pad (encodeRune (runeOf v)))
  else if verb = 0x71 then
    some (f.pad (if f.sharp && isPrint lib (runeOf v) then 0x27 :: encodeRune (runeOf v) ++ [0x27]
      else quoteRune lib (runeOf v) f.plus))
  else if verb = 0x55 then some (fmtUnicode lib f v)
  else none

/-- `fmtString` of `pp`. -/
def fmtString (s : GoString) (verb : Nat) : Option GoString :=
  if verb = 0x76 then some (if f.sharpV then fmtQ lib f s else fmtS f s)
  else if verb = 0x73 then some (fmtS f s)
  else if verb = 0x78 then some (fmtSbx f s lowerDigits)
  else if verb = 0x58 then some (fmtSbx f s upperDigits)
  else if verb = 0x71 then some (fmtQ lib f s)
  else none

/-- What printing a value under a verb gives: its text, a verb that does not
apply to it, or what this model leaves out. -/
inductive Printed where
  | text (s : GoString)
  | bad
  | unsupported
  deriving DecidableEq, Repr

/-- A formatter's answer: `none` is a verb that does not apply. -/
def Printed.ofOption : Option GoString → Printed
  | some s => .text s
  | none => .bad

/-- The type's name `badVerb` and `%T` write. -/
def Val.typeName (v : Val) : GoString := (v.type.map GoType.name).getD []

/-- `printArg` and `printValue` on a value that is neither the data nor a
byte slice. A value with methods is handled by `handleMethods` first: `%w` is
a bad verb, `%#v` calls `GoString` (of a time only), and the verbs `v s x X q`
call `String`; neither is called while a bad verb is reported. Otherwise a
time, a struct, shows its internals, which the model leaves out. -/
def printScalar (v : Val) (verb : Nat) : Printed :=
  match v with
  | .bool b => if verb = 0x74 ∨ verb = 0x76 then .text (f.pad (if b then lit "true" else lit "false")) else .bad
  | .int n | .int64 n => .ofOption (fmtInt lib f n true verb)
  | .uint8 n => .ofOption (fmtInt lib f n false verb)
  | .float x => .ofOption (fmtFloat f x verb)
  | .complex re im =>
    if verbIn verb (lit "vbgGxXfFeE") then
      .ofOption ((fmtFloat f re verb).bind fun r => (fmtFloat { f with plus := true } im verb).map fun i =>
        0x28 :: r ++ i ++ lit "i)")
    else .bad
  | .string s => .ofOption (fmtString lib f s verb)
  | .month n | .weekday n | .duration n =>
    if !f.erroring && verb = 0x77 then .bad
    else if !f.erroring && !f.sharpV && verbIn verb (lit "vsxXq") then
      .ofOption ((stringMethod lib v).bind fun s => fmtString lib f s verb)
    else .ofOption (fmtInt lib f n true verb)
  | .time t _ =>
    if f.erroring then .unsupported
    else if verb = 0x77 then .bad
    else if f.sharpV then .text (fmtS f (lib.timeGoString t))
    else if verbIn verb (lit "vsxXq") then .ofOption (fmtString lib f (lib.timeString t) verb)
    else .unsupported
  | .location name =>
    if f.erroring then .unsupported
    else if verb = 0x77 then .bad
    else if !f.sharpV && verbIn verb (lit "vsxXq") then .ofOption (fmtString lib f name verb)
    else .unsupported
  | .bytes _ | .data | .nilIface | .invalid => .unsupported

end

/-- `%!verb(type=value)`. -/
def badVerb (verb : Nat) (typeName value : GoString) : GoString :=
  lit "%!" ++ encodeRune verb ++ [0x28] ++ typeName ++ [0x3D] ++ value ++ [0x29]

/-- A value under a verb, with `badVerb` when the verb does not apply: the
value is then written with `%v` and the same flags, no method called. -/
def printResolved (lib : Lib) (f : Flags) (v : Val) (verb : Nat) : Option GoString :=
  match printScalar lib f v verb with
  | .text s => some s
  | .unsupported => none
  | .bad =>
    match printScalar lib { f with erroring := true } v 0x76 with
    | .text s => some (badVerb verb v.typeName s)
    | _ => none

/-- `fmtBytes`: `%s`, `%x`, `%X` and `%q` as on a string, `%v` and `%d` a
list of decimal bytes, `%#v` a Go literal, any other verb applied to each byte. -/
def fmtBytes (lib : Lib) (f : Flags) (b : GoString) (verb : Nat) : Option GoString :=
  if verb = 0x73 then some (fmtS f b)
  else if verb = 0x78 then some (fmtSbx f b lowerDigits)
  else if verb = 0x58 then some (fmtSbx f b upperDigits)
  else if verb = 0x71 then some (fmtQ lib f b)
  else if f.sharpV && (verb = 0x76 ∨ verb = 0x64) then
    some (lit "[]byte\x7b" ++ (lit ", ").intercalate (b.map fun c =>
      { f with sharp := true }.fmtInteger c.toNat 16 false lowerDigits) ++ lit "\x7d")
  else (b.mapM fun c => printResolved lib f (.uint8 c.toNat) verb).map fun es => [0x5B] ++ [0x20].intercalate es ++ [0x5D]

/-- The data's struct: its fields between braces, each under the verb, named
for `%+v` and `%#v`, where the struct's type comes first. -/
def printStruct (lib : Lib) (f : Flags) (d : WebhookTemplateData) (verb : Nat) : Option GoString :=
  (d.fields.mapM fun p => (printResolved lib f p.2 verb).map fun s =>
    (if f.plusV || f.sharpV then p.1 ++ [0x3A] else []) ++ s).map fun es =>
    (if f.sharpV then lit "middlewares.WebhookTemplateData" else []) ++
      [0x7B] ++ (if f.sharpV then lit ", " else [0x20]).intercalate es ++ [0x7D]

/-- `printArg`: the text of one operand under a verb. `%T` writes its type and
`%p` an address, which the model leaves out; a nil operand is `<nil>`; the
pointer to the data is `&` and its struct. -/
def printArg (lib : Lib) (f : Flags) (d : WebhookTemplateData) (v : Val) (verb : Nat) : Option GoString :=
  match v with
  | .nilIface | .invalid =>
    some (if verb = 0x54 ∨ verb = 0x76 then f.pad (lit "<nil>") else lit "%!" ++ encodeRune verb ++ lit "(<nil>)")
  | _ =>
    if verb = 0x54 then some (fmtS f v.typeName)
    else if verb = 0x70 then
      match v with
      | .data | .location _ | .bytes _ => none
      | _ =>
        match printScalar lib { f with erroring := true } v 0x76 with
        | .text s => some (badVerb verb v.typeName s)
        | _ => none
    else match v with
      | .bytes b => fmtBytes lib f b verb
      | .data =>
        if verb = 0x77 then (printStruct lib { f with erroring := true } d 0x76).map fun s =>
          badVerb verb v.typeName (0x26 :: s)
        else (printStruct lib f d verb).map (0x26 :: ·)
      | _ => printResolved lib f v verb

/-- The text an action writes for its value (`printValue` of
`text/template` over `printableValue`): a pointer is followed, so the data
prints as its struct, and the zero value is `<no value>`. -/
def actionText (lib : Lib) (d : WebhookTemplateData) : Val → Option GoString
  | .invalid => some (lit "<no value>")
  | .data => printStruct lib {} d 0x76
  | v => printArg lib {} d v 0x76

@[simp] theorem actionText_string (lib : Lib) (d : WebhookTemplateData) (s : GoString) :
    actionText lib d (.string s) = some s := rfl

@[simp] theorem actionText_bool (lib : Lib) (d : WebhookTemplateData) (b : Bool) :
    actionText lib d (.bool b) = some (if b then lit "true" else lit "false") := rfl

/-- A time prints through its `String` method. -/
@[simp] theorem actionText_time (lib : Lib) (d : WebhookTemplateData) (t : Time) (addressable : Bool) :
    actionText lib d (.time t addressable) = some (lib.timeString t) := rfl

/-! ### Print, Println, Printf -/

/-- `fmt.Sprint`: a space between two operands when neither is a string. -/
def sprint (lib : Lib) (d : WebhookTemplateData) : Bool → List Val → Option GoString
  | _, [] => some []
  | prevString, v :: vs =>
    let isString := match v with | .string _ => true | _ => false
    (printArg lib {} d v 0x76).bind fun s =>
      (sprint lib d isString vs).map fun rest => (if !prevString && !isString then [0x20] else []) ++ s ++ rest

/-- `fmt.Sprintln`: the operands separated by spaces, and a newline. -/
def sprintln (lib : Lib) (d : WebhookTemplateData) (vs : List Val) : Option GoString :=
  (vs.mapM fun v => printArg lib {} d v 0x76).map fun es => [0x20].intercalate es ++ [0x0A]

/-- The value of decimal digits. -/
def decimalValue (ds : GoString) : Nat := ds.foldl (fun n c => n * 10 + (c - 0x30).toNat) 0

/-- `parsenum`: the decimal number at the head of `s`. Reading stops at a
non-digit; before each digit the number so far must not pass `1e6`, or the
whole rest is consumed and no number read. -/
def parsenum (s : GoString) : Option Nat × GoString :=
  let ds := s.takeWhile Float64.isDecDigit
  if ds = [] then (none, s)
  else if 1000000 < decimalValue ds.dropLast then (none, [])
  else (some (decimalValue ds), s.drop ds.length)

/-- `argNumber` over `parseArgNumber`: an explicit index `[n]` at the head of
`s`: the argument to use, whether an index was read, whether it was a good
one, and the rest. An index that does not parse consumes up to its `]`, or
only the `[` when there is none. -/
def argNumber (argNum numArgs : Nat) (s : GoString) : Nat × Bool × Bool × GoString :=
  match s with
  | 0x5B :: r =>
    if r.length < 2 then (argNum, false, false, r)
    else match r.findIdx? (· = 0x5D) with
      | none => (argNum, false, false, r)
      | some i =>
        match parsenum (r.take i) with
        | (some n, []) =>
          if 0 < n ∧ n - 1 < numArgs then (n - 1, true, true, r.drop (i + 1)) else (argNum, true, false, r.drop (i + 1))
        | _ => (argNum, false, false, r.drop (i + 1))
  | _ => (argNum, false, true, s)

/-- `intFromArg`: the argument for a `*` width or precision, if it is an
integer of magnitude at most `1e6`. The argument is consumed either way. -/
def intFromArg (args : List Val) (argNum : Nat) : Option Int × Nat :=
  match args.get? argNum with
  | none => (none, argNum)
  | some v =>
    (if (v.kind = .int ∨ v.kind = .uint) ∧ -1000000 ≤ v.intValue ∧ v.intValue ≤ 1000000 then some v.intValue
      else none, argNum + 1)

/-- The flags of a verb at the head of the format. -/
def readFlags (f : Flags) : GoString → Flags × GoString
  | c :: s =>
    if c = 0x23 then readFlags { f with sharp := true } s
    else if c = 0x30 then readFlags { f with zero := true } s
    else if c = 0x2B then readFlags { f with plus := true } s
    else if c = 0x2D then readFlags { f with minus := true } s
    else if c = 0x20 then readFlags { f with space := true } s
    else (f, c :: s)
  | [] => (f, [])

/-- The verbs `v` and `w` move `#` and `+` to `%#v` and `%+v`. -/
def Flags.forVerb (f : Flags) (verb : Nat) : Flags :=
  if verb = 0x76 ∨ verb = 0x77 then { f with sharpV := f.sharp, sharp := false, plusV := f.plus, plus := false }
  else f

/-- What `doPrintf` has read of one verb: the flags, the argument it will
use, whether an index came last, whether the indexes were good, whether an
index was seen at all, and what was written before the verb. -/
structure VerbState where
  flags : Flags
  argNum : Nat
  afterIndex : Bool
  good : Bool
  reordered : Bool
  out : GoString

/-- An explicit argument index at the head of `s`. -/
def VerbState.index (st : VerbState) (numArgs : Nat) (s : GoString) : VerbState × GoString :=
  let (argNum, found, good, rest) := argNumber st.argNum numArgs s
  ({ st with argNum, afterIndex := found, good := st.good && good, reordered := st.reordered || s.head? = some 0x5B }, rest)

/-- A width or precision given by `*`: the argument, or `%!(BADWIDTH)`. -/
def VerbState.star (st : VerbState) (args : List Val) : Option Int × VerbState :=
  let (n, argNum) := intFromArg args st.argNum
  (n, { st with argNum, afterIndex := false })

/-- The width: `*` takes an argument, where a negative one means `-`. -/
def VerbState.width (st : VerbState) (args : List Val) : GoString → VerbState × GoString
  | 0x2A :: s =>
    match st.star args with
    | (none, st) => ({ st with out := st.out ++ lit "%!(BADWIDTH)" }, s)
    | (some w, st) =>
      ({ st with flags := { st.flags with wid := some w.natAbs, minus := st.flags.minus || w < 0 } }, s)
  | s =>
    let (w, s) := parsenum s
    ({ st with flags := { st.flags with wid := w }, good := st.good && !(st.afterIndex && w.isSome) }, s)

/-- The precision after a `.` that is not the format's last byte: `*` takes
an argument, a negative one or a non-integer writing `%!(BADPREC)`, and no
digits mean zero. -/
def VerbState.precision (st : VerbState) (args : List Val) : GoString → VerbState × GoString
  | 0x2E :: c :: s =>
    let (st, s) := ({ st with good := st.good && !st.afterIndex } : VerbState).index args.length (c :: s)
    match s with
    | 0x2A :: s =>
      match st.star args with
      | (some p, st) =>
        if p < 0 then ({ st with out := st.out ++ lit "%!(BADPREC)" }, s)
        else ({ st with flags := { st.flags with prec := some p.toNat } }, s)
      | (none, st) => ({ st with out := st.out ++ lit "%!(BADPREC)" }, s)
    | s =>
      let (p, s) := parsenum s
      ({ st with flags := { st.flags with prec := some (p.getD 0) } }, s)
  | s => (st, s)

/-- A verb that is more than flags and a lower-case letter with an argument
left: its index, width, precision and second index, then the verb. `%%`
writes `%`; a bad index, a missing argument and a format that ends before the
verb (which ends it) are reported. -/
def printfSpec (lib : Lib) (d : WebhookTemplateData) (args : List Val) (st : VerbState) (s : GoString) :
    Option (GoString × Nat × Bool × GoString) :=
  let (st, s) := st.index args.length s
  let (st, s) := st.width args s
  let (st, s) := st.precision args s
  let (st, s) := if st.afterIndex then (st, s) else st.index args.length s
  if s = [] then some (st.out ++ lit "%!(NOVERB)", st.argNum, st.reordered, [])
  else
    let (verb, size) := decodeRune s
    let rest := s.drop size
    if verb = 0x25 then some (st.out ++ [0x25], st.argNum, st.reordered, rest)
    else if !st.good then some (st.out ++ lit "%!" ++ encodeRune verb ++ lit "(BADINDEX)", st.argNum, st.reordered, rest)
    else if args.length ≤ st.argNum then
      some (st.out ++ lit "%!" ++ encodeRune verb ++ lit "(MISSING)", st.argNum, st.reordered, rest)
    else
      (printArg lib (st.flags.forVerb verb) d (args.getD st.argNum .nilIface) verb).map fun t =>
        (st.out ++ t, st.argNum + 1, st.reordered, rest)

/-- One verb after its `%`: what it writes, the next argument, whether
indexes were seen, and the rest of the format. Flags and a lower-case letter
with an argument left take the fast path. -/
def printfVerb (lib : Lib) (d : WebhookTemplateData) (args : List Val) (argNum : Nat) (reordered : Bool)
    (s : GoString) : Option (GoString × Nat × Bool × GoString) :=
  let (f, s) := readFlags {} s
  match s with
  | c :: rest =>
    if 0x61 ≤ c ∧ c ≤ 0x7A ∧ argNum < args.length then
      (printArg lib (f.forVerb c.toNat) d (args.getD argNum .nilIface) c.toNat).map (·, argNum + 1, reordered, rest)
    else printfSpec lib d args ⟨f, argNum, false, true, reordered, []⟩ (c :: rest)
  | [] => printfSpec lib d args ⟨f, argNum, false, true, reordered, []⟩ []

/-- `%!(EXTRA type=value, ...)` for the arguments no verb used. -/
def extraArgs (lib : Lib) (d : WebhookTemplateData) (extra : List Val) : Option GoString :=
  (extra.mapM fun (v : Val) => match v with
    | .nilIface | .invalid => some (lit "<nil>")
    | _ => (printArg lib {} d v 0x76).map fun s => v.typeName ++ [0x3D] ++ s).map fun es =>
    lit "%!(EXTRA " ++ (lit ", ").intercalate es ++ [0x29]

/-- The loop of `doPrintf` over the format, `fuel` bounding its length. -/
def doPrintf (lib : Lib) (d : WebhookTemplateData) (args : List Val) :
    Nat → Nat → Bool → GoString → Option GoString
  | 0, _, _, _ => none
  | fuel + 1, argNum, reordered, s =>
    let text := s.takeWhile (· ≠ 0x25)
    match s.dropWhile (· ≠ 0x25) with
    | [] =>
      if !reordered && argNum < args.length then (extraArgs lib d (args.drop argNum)).map (text ++ ·)
      else some text
    | _ :: s =>
      (printfVerb lib d args argNum reordered s).bind fun (out, argNum, reordered, rest) =>
        (doPrintf lib d args fuel argNum reordered rest).map (text ++ out ++ ·)

/-- `fmt.Sprintf`. -/
def sprintf (lib : Lib) (d : WebhookTemplateData) (format : GoString) (args : List Val) : Option GoString :=
  doPrintf lib d args (format.length + 1) 0 false format

end Ofelia.Template
