import Ofelia.Go.Basic

/-! The values `encoding/json` decodes into an `interface{}` and the text
`json.Marshal` writes for them. Strings are escaped as `appendString` does with
HTML escaping on: `"` and `\` by a backslash, `\b \f \n \r \t` by name, other
control bytes and `<`, `>`, `&` as a `\u00XX` escape, an ill-formed UTF-8
byte as the escape of U+FFFD, and U+2028 and U+2029 as their escapes; every other rune is copied.

A Go map is kept as its entries sorted by key, which is the order `json.Marshal`
writes them in, so the encoder writes entries in list order. Numbers are kept
as the literal text they were read from: the `float64` round trip of the
decoder is not modelled. -/

namespace Ofelia.Json

/-- A decoded JSON value: `nil`, `bool`, `float64`, `string`, `[]interface{}`
or `map[string]interface{}`. -/
inductive Value where
  | null
  | bool (b : Bool)
  | number (literal : GoString)
  | string (s : GoString)
  | array (elems : List Value)
  | object (members : List (GoString × Value))
  deriving Repr, Inhabited

mutual
def Value.decEq : (a b : Value) → Decidable (a = b)
  | .null, .null => isTrue rfl
  | .bool a, .bool b => decidable_of_iff (a = b) (by simp)
  | .number a, .number b => decidable_of_iff (a = b) (by simp)
  | .string a, .string b => decidable_of_iff (a = b) (by simp)
  | .array a, .array b =>
    match Value.decEqList a b with
    | isTrue h => isTrue (h ▸ rfl)
    | isFalse h => isFalse fun e => h (Value.array.inj e)
  | .object a, .object b =>
    match Value.decEqMembers a b with
    | isTrue h => isTrue (h ▸ rfl)
    | isFalse h => isFalse fun e => h (Value.object.inj e)
  | .null, .bool _ | .null, .number _ | .null, .string _ | .null, .array _ | .null, .object _
  | .bool _, .null | .bool _, .number _ | .bool _, .string _ | .bool _, .array _
  | .bool _, .object _ | .number _, .null | .number _, .bool _ | .number _, .string _
  | .number _, .array _ | .number _, .object _ | .string _, .null | .string _, .bool _
  | .string _, .number _ | .string _, .array _ | .string _, .object _ | .array _, .null
  | .array _, .bool _ | .array _, .number _ | .array _, .string _ | .array _, .object _
  | .object _, .null | .object _, .bool _ | .object _, .number _ | .object _, .string _
  | .object _, .array _ => isFalse Value.noConfusion

def Value.decEqList : (a b : List Value) → Decidable (a = b)
  | [], [] => isTrue rfl
  | x :: xs, y :: ys =>
    match Value.decEq x y, Value.decEqList xs ys with
    | isTrue h1, isTrue h2 => isTrue (h1 ▸ h2 ▸ rfl)
    | isFalse h, _ => isFalse fun e => h (List.cons.inj e).1
    | _, isFalse h => isFalse fun e => h (List.cons.inj e).2
  | [], _ :: _ | _ :: _, [] => isFalse List.noConfusion

def Value.decEqMembers : (a b : List (GoString × Value)) → Decidable (a = b)
  | [], [] => isTrue rfl
  | (k, x) :: xs, (l, y) :: ys =>
    if hk : k = l then
      match Value.decEq x y, Value.decEqMembers xs ys with
      | isTrue h1, isTrue h2 => isTrue (hk ▸ h1 ▸ h2 ▸ rfl)
      | isFalse h, _ => isFalse fun e => h (Prod.mk.inj (List.cons.inj e).1).2
      | _, isFalse h => isFalse fun e => h (List.cons.inj e).2
    else isFalse fun e => hk (Prod.mk.inj (List.cons.inj e).1).1
  | [], _ :: _ | _ :: _, [] => isFalse List.noConfusion
end

instance : DecidableEq Value := Value.decEq

/-- The digits `hex` of package `json`. -/
def hexDigit (n : Nat) : UInt8 := (lit "0123456789abcdef").getD n 0

/-- A byte below `utf8.RuneSelf`, as `appendString` writes it. -/
def escapeAscii (b : UInt8) : GoString :=
  if b = 0x5C ∨ b = 0x22 then [0x5C, b]
  else if b = 0x08 then lit "\\b"
  else if b = 0x0C then lit "\\f"
  else if b = 0x0A then lit "\\n"
  else if b = 0x0D then lit "\\r"
  else if b = 0x09 then lit "\\t"
  else if b < 0x20 ∨ b = 0x3C ∨ b = 0x3E ∨ b = 0x26 then
    lit "\\u00" ++ [hexDigit (b.toNat / 16), hexDigit (b.toNat % 16)]
  else [b]

/-- One rune of a string, as `appendString` writes it. A rune read from one
byte at or above `0x80` is `RuneError` of width one. -/
def escapeRune : Nat × GoString → GoString
  | (_, [b]) => if b < 0x80 then escapeAscii b else lit "\\ufffd"
  | (r, bs) => if r = 0x2028 ∨ r = 0x2029 then lit "\\u202" ++ [hexDigit (r % 16)] else bs

/-- The body of the string literal `appendString` writes for `s`. -/
def escape (s : GoString) : GoString := (runes s).flatMap escapeRune

/-- `appendString`: the JSON string literal of `s`. -/
def quote (s : GoString) : GoString := 0x22 :: escape s ++ [0x22]

mutual
/-- `json.Marshal` of a decoded value. -/
def marshal : Value → GoString
  | .null => lit "null"
  | .bool b => if b then lit "true" else lit "false"
  | .number n => n
  | .string s => quote s
  | .array xs => 0x5B :: marshalElems xs ++ [0x5D]
  | .object kvs => 0x7B :: marshalMembers kvs ++ [0x7D]

/-- Array elements, separated by commas. -/
def marshalElems : List Value → GoString
  | [] => []
  | x :: xs => marshal x ++ marshalElemsTail xs

def marshalElemsTail : List Value → GoString
  | [] => []
  | x :: xs => 0x2C :: marshal x ++ marshalElemsTail xs

/-- Object members `"key":value`, separated by commas. -/
def marshalMembers : List (GoString × Value) → GoString
  | [] => []
  | (k, v) :: kvs => quote k ++ 0x3A :: marshal v ++ marshalMembersTail kvs

def marshalMembersTail : List (GoString × Value) → GoString
  | [] => []
  | (k, v) :: kvs => 0x2C :: quote k ++ 0x3A :: marshal v ++ marshalMembersTail kvs
end

@[simp] theorem escape_nil : escape [] = [] := rfl

example : escape (lit "a\"b<\n") = lit "a\\\"b\\u003c\\n" := by decide

example : marshal (.object [(lit "a", .array [.null, .string (lit "x")])]) =
    lit "\x7b\"a\":[null,\"x\"]\x7d" := by decide

end Ofelia.Json
