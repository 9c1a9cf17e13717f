import Ofelia.Json.Encode

/-! `json.Unmarshal` into an `interface{}` and into a `[]string`. The scanner's
syntax check and the decoder's value construction are done in one left-to-right
pass, which reports the first syntax error the scanner would. Inside strings the
decoder copies well-formed UTF-8, turns each ill-formed byte into U+FFFD, and
reads `\u` escapes as UTF-16, a lone surrogate becoming U+FFFD. Objects become
Go maps: entries sorted by key, a repeated key keeping its last value. Nesting
deeper than `maxNestingDepth` is refused. -/

namespace Ofelia.Json

/-- The errors of `json.Unmarshal`: a scanner `SyntaxError`, or an
`UnmarshalTypeError` when a well-formed value does not fit the target. -/
inductive DecodeError where
  | unexpectedEnd
  | invalidCharacter (c : UInt8) (context : GoString)
  | exceededMaxDepth
  | unmarshalType (value : GoString)
  deriving DecidableEq, Repr

def maxNestingDepth : Nat := 10000

/-! ### Scanning -/

def isSpace (c : UInt8) : Bool := c = 0x20 || c = 0x09 || c = 0x0A || c = 0x0D

def skipSpace : GoString → GoString
  | [] => []
  | c :: s => if isSpace c then skipSpace s else c :: s

def hexValue (c : UInt8) : Option Nat :=
  if 0x30 ≤ c ∧ c ≤ 0x39 then some (c.toNat - 0x30)
  else if 0x61 ≤ c ∧ c ≤ 0x66 then some (c.toNat - 0x61 + 10)
  else if 0x41 ≤ c ∧ c ≤ 0x46 then some (c.toNat - 0x41 + 10)
  else none

/-- `getu4` on the four hex digits of a `\u` escape. -/
def hex4 (a b c d : UInt8) : Option Nat := do
  let a ← hexValue a; let b ← hexValue b; let c ← hexValue c; let d ← hexValue d
  return ((a * 16 + b) * 16 + c) * 16 + d

/-- The scanner's error on the at most four bytes after `\u` when they are not
four hex digits. -/
def hexError : GoString → DecodeError
  | [] => .unexpectedEnd
  | c :: s => if (hexValue c).isSome then hexError s
    else .invalidCharacter c (lit "in \\u hexadecimal character escape")

def isSurrogate (r : Nat) : Bool := 0xD800 ≤ r && r < 0xE000

/-- `utf16.DecodeRune`: the rune of a surrogate pair, or U+FFFD. -/
def decodePair (r1 r2 : Nat) : Nat :=
  if 0xD800 ≤ r1 ∧ r1 < 0xDC00 ∧ 0xDC00 ≤ r2 ∧ r2 < 0xE000 then
    (r1 - 0xD800) * 0x400 + (r2 - 0xDC00) + 0x10000
  else runeError

/-- Prepend decoded bytes to the result of decoding the rest of a string. -/
def prependOut (bs : GoString) : Except DecodeError (GoString × GoString) →
    Except DecodeError (GoString × GoString)
  | .ok (out, rest) => .ok (bs ++ out, rest)
  | .error e => .error e

/-- The byte a one-letter escape `\e` stands for. -/
def simpleEscape (e : UInt8) : Option UInt8 :=
  if e = 0x22 ∨ e = 0x5C ∨ e = 0x2F then some e
  else if e = 0x62 then some 0x08
  else if e = 0x66 then some 0x0C
  else if e = 0x6E then some 0x0A
  else if e = 0x72 then some 0x0D
  else if e = 0x74 then some 0x09
  else none

/-- The body of a string literal after its opening quote: the decoded bytes
and the input after the closing quote. A `\u` escape of a surrogate is joined
with an escape right after it when the two make a pair (`getu4` then
`utf16.DecodeRune`); otherwise it becomes U+FFFD and the next escape is read on
its own. -/
def stringBody : GoString → Except DecodeError (GoString × GoString)
  | [] => .error .unexpectedEnd
  | 0x5C :: 0x75 :: h1 :: h2 :: h3 :: h4 :: 0x5C :: 0x75 :: g1 :: g2 :: g3 :: g4 :: s =>
    match hex4 h1 h2 h3 h4 with
    | none => .error (hexError [h1, h2, h3, h4])
    | some r =>
      if isSurrogate r then
        match hex4 g1 g2 g3 g4 with
        | some r2 =>
          if decodePair r r2 = runeError then
            prependOut (encodeRune runeError) (stringBody (0x5C :: 0x75 :: g1 :: g2 :: g3 :: g4 :: s))
          else prependOut (encodeRune (decodePair r r2)) (stringBody s)
        | none =>
          prependOut (encodeRune runeError) (stringBody (0x5C :: 0x75 :: g1 :: g2 :: g3 :: g4 :: s))
      else prependOut (encodeRune r) (stringBody (0x5C :: 0x75 :: g1 :: g2 :: g3 :: g4 :: s))
  | 0x5C :: 0x75 :: h1 :: h2 :: h3 :: h4 :: s =>
    match hex4 h1 h2 h3 h4 with
    | none => .error (hexError [h1, h2, h3, h4])
    | some r => prependOut (encodeRune (if isSurrogate r then runeError else r)) (stringBody s)
  | 0x5C :: 0x75 :: short => .error (hexError short)
  | 0x5C :: e :: s =>
    match simpleEscape e with
    | some b => prependOut [b] (stringBody s)
    | none => .error (.invalidCharacter e (lit "in string escape code"))
  | [0x5C] => .error .unexpectedEnd
  | c :: s =>
    if c = 0x22 then .ok ([], s)
    else if c < 0x20 then .error (.invalidCharacter c (lit "in string literal"))
    else if c < 0x80 then prependOut [c] (stringBody s)
    else
      match (decodeRune (c :: s)).2, s with
      | 2, b1 :: s1 => prependOut [c, b1] (stringBody s1)
      | 3, b1 :: b2 :: s2 => prependOut [c, b1, b2] (stringBody s2)
      | 4, b1 :: b2 :: b3 :: s3 => prependOut [c, b1, b2, b3] (stringBody s3)
      | _, s' => prependOut (encodeRune runeError) (stringBody s')

def isDigit (c : UInt8) : Bool := 0x30 ≤ c && c ≤ 0x39

/-- The longest prefix of decimal digits, and the rest. -/
def digits : GoString → GoString × GoString
  | c :: s => if isDigit c then let (d, r) := digits s; (c :: d, r) else ([], c :: s)
  | [] => ([], [])

/-- At least one digit, as the scanner's `stateDot` and `stateESign` ask. -/
def someDigits (context : GoString) : GoString → Except DecodeError (GoString × GoString)
  | c :: s => if isDigit c then let (d, r) := digits s; .ok (c :: d, r)
    else .error (.invalidCharacter c context)
  | [] => .error .unexpectedEnd

/-- Exponent part `[eE][+-]?[0-9]+`, if present. -/
def exponentPart : GoString → Except DecodeError (GoString × GoString)
  | e :: s =>
    if e = 0x65 ∨ e = 0x45 then
      match s with
      | sg :: s' =>
        if sg = 0x2B ∨ sg = 0x2D then
          (someDigits (lit "in exponent of numeric literal") s').map fun (d, r) => (e :: sg :: d, r)
        else (someDigits (lit "in exponent of numeric literal") (sg :: s')).map fun (d, r) => (e :: d, r)
      | [] => .error .unexpectedEnd
    else .ok ([], e :: s)
  | [] => .ok ([], [])

/-- Fraction and exponent after the integer part of a number. -/
def numberTail : GoString → Except DecodeError (GoString × GoString)
  | 0x2E :: s => do
    let (f, r) ← someDigits (lit "after decimal point in numeric literal") s
    let (x, r) ← exponentPart r
    return (0x2E :: f ++ x, r)
  | s => exponentPart s

/-- The integer part of a number: `0` or a nonzero digit and more digits. -/
def integerPart : GoString → Except DecodeError (GoString × GoString)
  | 0x30 :: r => .ok ([0x30], r)
  | d :: r => if isDigit d then let (ds, r') := digits r; .ok (d :: ds, r')
    else .error (.invalidCharacter d (lit "in numeric literal"))
  | [] => .error .unexpectedEnd

/-- A number literal, from its first byte on. -/
def numberLiteral (s : GoString) : Except DecodeError (GoString × GoString) := do
  let (sign, rest) := match s with
    | 0x2D :: r => (([0x2D] : GoString), r)
    | r => (([] : GoString), r)
  let (int, r) ← integerPart rest
  let (tail, r) ← numberTail r
  return (sign ++ int ++ tail, r)

/-- The rest of a literal `true`, `false` or `null` after its first byte. -/
def literalRest (word : GoString) : GoString → GoString → Except DecodeError GoString
  | [], s => .ok s
  | w :: ws, [] => let _ := w; let _ := ws; .error .unexpectedEnd
  | w :: ws, c :: s =>
    if c = w then literalRest word ws s
    else .error (.invalidCharacter c (lit "in literal " ++ word ++ lit " (expecting '" ++ [w] ++ lit "')"))

/-! ### Maps -/

/-- Byte-wise order of Go strings, as `strings.Compare`. -/
def strLt : GoString → GoString → Bool
  | [], [] => false
  | [], _ :: _ => true
  | _ :: _, [] => false
  | a :: s, b :: t => a < b || (a = b && strLt s t)

/-- Storing `m[k] = v` in a map kept sorted by key. -/
def insertMember (k : GoString) (v : Value) : List (GoString × Value) → List (GoString × Value)
  | [] => [(k, v)]
  | (k', v') :: kvs =>
    if k = k' then (k, v) :: kvs
    else if strLt k k' then (k, v) :: (k', v') :: kvs
    else (k', v') :: insertMember k v kvs

/-! ### Values -/

mutual
/-- A value after optional white space. `depth` counts the enclosing arrays and objects. -/
def parseValue : Nat → Nat → GoString → Except DecodeError (Value × GoString)
  | 0, _, _ => .error .unexpectedEnd
  | fuel + 1, depth, s =>
    match skipSpace s with
    | [] => .error .unexpectedEnd
    | c :: rest =>
      if c = 0x7B then
        if maxNestingDepth ≤ depth then .error .exceededMaxDepth
        else match skipSpace rest with
          | 0x7D :: r => .ok (.object [], r)
          | r => parseMembers fuel (depth + 1) [] r
      else if c = 0x5B then
        if maxNestingDepth ≤ depth then .error .exceededMaxDepth
        else match skipSpace rest with
          | 0x5D :: r => .ok (.array [], r)
          | r => parseElems fuel (depth + 1) [] r
      else if c = 0x22 then (stringBody rest).map fun (str, r) => (.string str, r)
      else if c = 0x2D ∨ isDigit c then (numberLiteral (c :: rest)).map fun (n, r) => (.number n, r)
      else if c = 0x74 then (literalRest (lit "true") (lit "rue") rest).map fun r => (.bool true, r)
      else if c = 0x66 then (literalRest (lit "false") (lit "alse") rest).map fun r => (.bool false, r)
      else if c = 0x6E then (literalRest (lit "null") (lit "ull") rest).map fun r => (.null, r)
      else .error (.invalidCharacter c (lit "looking for beginning of value"))

/-- Array elements from the next element on; `acc` holds those read, last first. -/
def parseElems : Nat → Nat → List Value → GoString → Except DecodeError (Value × GoString)
  | 0, _, _, _ => .error .unexpectedEnd
  | fuel + 1, depth, acc, s =>
    match parseValue fuel depth s with
    | .error e => .error e
    | .ok (v, r) =>
      match skipSpace r with
      | 0x2C :: r' => parseElems fuel depth (v :: acc) r'
      | 0x5D :: r' => .ok (.array (v :: acc).reverse, r')
      | c :: _ => .error (.invalidCharacter c (lit "after array element"))
      | [] => .error .unexpectedEnd

/-- Object members from the next key on, white space before it included. -/
def parseMembers : Nat → Nat → List (GoString × Value) → GoString →
    Except DecodeError (Value × GoString)
  | 0, _, _, _ => .error .unexpectedEnd
  | fuel + 1, depth, acc, s =>
    match skipSpace s with
    | 0x22 :: r =>
      match stringBody r with
      | .error e => .error e
      | .ok (k, r) =>
        match skipSpace r with
        | 0x3A :: r =>
          match parseValue fuel depth r with
          | .error e => .error e
          | .ok (v, r) =>
            match skipSpace r with
            | 0x2C :: r' => parseMembers fuel depth (insertMember k v acc) r'
            | 0x7D :: r' => .ok (.object (insertMember k v acc), r')
            | c :: _ => .error (.invalidCharacter c (lit "after object key:value pair"))
            | [] => .error .unexpectedEnd
        | c :: _ => .error (.invalidCharacter c (lit "after object key"))
        | [] => .error .unexpectedEnd
    | c :: _ => .error (.invalidCharacter c (lit "looking for beginning of object key string"))
    | [] => .error .unexpectedEnd
end

/-- `json.Unmarshal(data, &v)` with `v` an `interface{}`. The fuel, one more
than the length of the text, suffices for every text the decoder accepts; an
unterminated text nested deeper than half its length can run out of it first. -/
def unmarshal (data : GoString) : Except DecodeError Value :=
  match parseValue (data.length + 1) 0 data with
  | .error e => .error e
  | .ok (v, r) =>
    match skipSpace r with
    | [] => .ok v
    | c :: _ => .error (.invalidCharacter c (lit "after top-level value"))

/-- `json.Unmarshal(data, &names)` with `names` a `[]string`: `null` leaves the
slice nil, a `null` element leaves its string empty, and any other element or
top-level value is an `UnmarshalTypeError`. -/
def unmarshalStrings (data : GoString) : Except DecodeError (List GoString) :=
  match unmarshal data with
  | .error e => .error e
  | .ok .null => .ok []
  | .ok (.array xs) =>
    xs.mapM fun
      | .string s => .ok s
      | .null => .ok []
      | .bool _ => .error (.unmarshalType (lit "bool"))
      | .number _ => .error (.unmarshalType (lit "number"))
      | .array _ => .error (.unmarshalType (lit "array"))
      | .object _ => .error (.unmarshalType (lit "object"))
  | .ok (.bool _) => .error (.unmarshalType (lit "bool"))
  | .ok (.number _) => .error (.unmarshalType (lit "number"))
  | .ok (.string _) => .error (.unmarshalType (lit "string"))
  | .ok (.object _) => .error (.unmarshalType (lit "object"))

example : unmarshalStrings (lit "[\"a\", null, \"\\u00e9\\ud83d\\ude00\"]") =
    .ok [lit "a", [], lit "é😀"] := by
  decide

example : unmarshal (lit "\x7b\"b\":1,\"a\":[true],\"b\":2\x7d") =
    .ok (.object [(lit "a", .array [.bool true]), (lit "b", .number (lit "2"))]) := by
  decide

end Ofelia.Json
