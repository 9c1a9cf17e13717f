import Ofelia.Template.Lex
import Ofelia.Go.Float
import Ofelia.Json.Decode

/-! The parser of `text/template` (`parse.go` and the `newNumber` of
`node.go`) over the lexer's items. It reads text, actions holding a pipeline
with optional declarations, the control structures `if`, `range` and `with`
with their `else` and `else if` / `else with` lists, `define`, `block` and
`template`, and `break` and `continue` inside a `range`. A command's operands
are fields, variables, the dot, `nil`, booleans, number, character and complex
constants, strings, function names and parenthesized pipelines, each with
the fields chained after it.

The parser keeps Go's state: the variables in scope (`t.vars`), the depth of
`range` lists, and the set of trees defined so far, to which `{{define}}` and
`{{block}}` add and which `parse` returns with the top-level tree. The parsing
functions are those of `parse.go`, each given fuel; `parse` gives them enough
that they never run out. -/

namespace Ofelia.Template

open Float64 (lowerByte isDecDigit underscoreOK parseFloat)

/-! ### Quoted literals -/

def isOctal (c : UInt8) : Bool := 0x30 ≤ c && c ≤ 0x37

/-- `utf8.ValidRune`. -/
def validRune (r : Nat) : Bool := r < 0xD800 || (0xE000 ≤ r && r ≤ 0x10FFFF)

/-- `unhex` over a run of bytes: the number the hexadecimal digits spell. -/
def unhexRun (bs : GoString) : Option Nat :=
  bs.foldl (fun acc b => acc.bind fun v => (Json.hexValue b).map (v * 16 + ·)) (some 0)

/-- `strconv.UnquoteChar(s, quote)`: the value of the character or escape at the
head of `s`, whether it was read as a multi-byte rune, and the bytes after it.
A byte from `0x80` on starts a rune as `utf8.DecodeRuneInString` reads it, so
an ill-formed byte reads as `RuneError`. -/
def unquoteChar (s : GoString) (quote : UInt8) : Option (Nat × Bool × GoString) :=
  match s with
  | [] => none
  | c :: t =>
    if c = quote ∧ (quote = 0x27 ∨ quote = 0x22) then none
    else if 0x80 ≤ c then some ((decodeRune s).1, true, s.drop (decodeRune s).2)
    else if c ≠ 0x5C then some (c.toNat, false, t)
    else match t with
      | [] => none
      | e :: u =>
        if e = 0x61 then some (0x07, false, u)
        else if e = 0x62 then some (0x08, false, u)
        else if e = 0x66 then some (0x0C, false, u)
        else if e = 0x6E then some (0x0A, false, u)
        else if e = 0x72 then some (0x0D, false, u)
        else if e = 0x74 then some (0x09, false, u)
        else if e = 0x76 then some (0x0B, false, u)
        else if e = 0x78 ∨ e = 0x75 ∨ e = 0x55 then
          let n := if e = 0x78 then 2 else if e = 0x75 then 4 else 8
          if u.length < n then none
          else (unhexRun (u.take n)).bind fun v =>
            if e = 0x78 then some (v, false, u.drop n)
            else if validRune v then some (v, true, u.drop n) else none
        else if isOctal e then
          match u with
          | o1 :: o2 :: r =>
            let v := (e - 0x30).toNat * 64 + (o1 - 0x30).toNat * 8 + (o2 - 0x30).toNat
            if isOctal o1 ∧ isOctal o2 ∧ v ≤ 255 then some (v, false, r) else none
          | _ => none
        else if e = 0x5C then some (0x5C, false, u)
        else if (e = 0x27 ∨ e = 0x22) ∧ e = quote then some (e.toNat, false, u)
        else none

/-- The loop of `unquote` for a double-quoted literal, over the bytes after the
opening quote, for at most `fuel` characters: the unescaped bytes and what
follows the closing quote. A character is written back as one byte, or as
`utf8.AppendRune` writes a multi-byte rune, so an ill-formed byte becomes
U+FFFD. -/
def unquoteLoop : Nat → GoString → Option (GoString × GoString)
  | 0, _ => none
  | _ + 1, [] => none
  | fuel + 1, c :: s =>
    if c = 0x22 then some ([], s)
    else if c = 0x0A then none
    else match unquoteChar (c :: s) 0x22 with
      | none => none
      | some (r, mb, rem) =>
        (unquoteLoop fuel rem).map fun (b, rest) => ((if r < 0x80 ∨ !mb then [r.toUInt8] else encodeRune r) ++ b, rest)

/-- `strconv.Unquote` of a string item: a double-quoted literal with its
escapes, which must end at its closing quote, or a raw literal without its
carriage returns. -/
def unquote : GoString → Option GoString
  | 0x22 :: s =>
    match unquoteLoop (s.length + 1) s with
    | some (out, []) => some out
    | _ => none
  | 0x60 :: s =>
    if s.getLast? = some 0x60 ∧ 0x60 ∉ s.dropLast then some (s.dropLast.filter (· ≠ 0x0D)) else none
  | _ => none

/-! ### Number constants -/

/-- The value of a digit in bases up to 36, or 36 for a byte that is none. -/
def digitValue (c : UInt8) : Nat :=
  if isDecDigit c then (c - 0x30).toNat
  else if 0x61 ≤ lowerByte c ∧ lowerByte c ≤ 0x7A then (lowerByte c - 0x61).toNat + 10
  else 36

/-- `strconv.ParseUint(s, 0, 64)`: a prefix `0b`, `0o` or `0x` (or a leading
`0`, octal) sets the base, underscores may separate digits, and the value must
fit in 64 bits. -/
def parseUint0 (s0 : GoString) : Option Nat :=
  let (base, s) : Nat × GoString := match s0 with
    | 0x30 :: b :: c :: r =>
      if lowerByte b = 0x62 then (2, c :: r)
      else if lowerByte b = 0x6F then (8, c :: r)
      else if lowerByte b = 0x78 then (16, c :: r)
      else (8, b :: c :: r)
    | 0x30 :: r => (8, r)
    | s => (10, s)
  let ds := s.filter (· ≠ 0x5F)
  let n := ds.foldl (fun n c => n * base + digitValue c) 0
  if s0 = [] ∨ ds.any (fun c => base ≤ digitValue c) ∨ 2 ^ 64 ≤ n then none
  else if 0x5F ∈ s ∧ !underscoreOK s then none
  else some n

/-- `strconv.ParseInt(s, 0, 64)`: a sign, then `ParseUint`, within `int64`. -/
def parseInt0 (s0 : GoString) : Option Int :=
  let (neg, s) : Bool × GoString := match s0 with
    | 0x2B :: s => (false, s)
    | 0x2D :: s => (true, s)
    | s => (false, s)
  match parseUint0 s with
  | none => none
  | some un =>
    if s0 = [] ∨ (!neg ∧ 2 ^ 63 ≤ un) ∨ (neg ∧ 2 ^ 63 < un) then none
    else some (if neg then -(un : Int) else un)

/-- `NumberNode`: the constant's text and its values as an `int64`, a
`uint64`, a `float64` and a `complex128`, where it has them. -/
structure Number where
  text : GoString
  int : Option Int
  uint : Option Nat
  float : Option Float64
  complex : Option (Float64 × Float64)
  deriving DecidableEq, Repr

/-- `simplifyComplex`: a complex constant without imaginary part is also a
float, and an integer when that float is one. -/
def Number.ofComplex (text : GoString) (re im : Float64) : Number :=
  if im.magBits = 0 then ⟨text, re.toInt64?, re.toUint64?, some re, some (re, im)⟩
  else ⟨text, none, none, none, some (re, im)⟩

/-- `floatToken` of `fmt`'s scanner: a sign, then `0x` and hexadecimal digits
or decimal digits, a fraction and an exponent; underscores are digits. -/
def floatToken (s : GoString) : GoString × GoString :=
  let run (ok : UInt8 → Bool) (s : GoString) : GoString × GoString := (s.takeWhile ok, s.dropWhile ok)
  let (sign, s) := run (fun c => c = 0x2B ∨ c = 0x2D) s
  let (sign, s) := (sign.take 1, sign.drop 1 ++ s)
  let (pre, hex, s) : GoString × Bool × GoString := match s with
    | 0x30 :: x :: r => if x = 0x78 ∨ x = 0x58 then ([0x30, x], true, r) else ([0x30], false, x :: r)
    | 0x30 :: r => ([0x30], false, r)
    | r => ([], false, r)
  let digit (c : UInt8) : Bool := isDecDigit c || c = 0x5F || (hex && Float64.isHexLetter c)
  let (int, s) := run digit s
  let (frac, s) : GoString × GoString := match s with
    | 0x2E :: r => let (f, r) := run digit r; (0x2E :: f, r)
    | r => ([], r)
  let isExp (c : UInt8) : Bool := if hex then c = 0x70 ∨ c = 0x50 else c = 0x65 ∨ c = 0x45 ∨ c = 0x70 ∨ c = 0x50
  let (exp, s) : GoString × GoString := match s with
    | c :: r =>
      if isExp c then
        let (es, r) := match r with
          | d :: r' => if d = 0x2B ∨ d = 0x2D then ([d], r') else ([], d :: r')
          | [] => ([], [])
        let (ds, r) := run (fun c => isDecDigit c || c = 0x5F) r
        (c :: es ++ ds, r)
      else ([], c :: r)
    | [] => ([], [])
  (sign ++ pre ++ int ++ frac ++ exp, s)

/-- `fmt.Sscan` of a complex constant `re±imi` into a `complex128`. -/
def parseComplex (text : GoString) : Option (Float64 × Float64) :=
  let (re, r) := floatToken text
  match r with
  | s :: r =>
    if s = 0x2B ∨ s = 0x2D then
      let (im, r) := floatToken r
      if r.head? = some 0x69 then
        match parseFloat re, parseFloat (s :: im) with
        | .ok a, .ok b => some (a, b)
        | _, _ => none
      else none
    else none
  | [] => none

/-- The errors of `newNumber`. -/
inductive NumberError where
  | invalidSyntax
  | malformedCharacterConstant
  | complex
  | integerOverflow
  | illegalNumberSyntax
  deriving DecidableEq, Repr

/-- `newNumber`: a character constant is its rune; a complex constant is read
by `fmt.Sscan`; an imaginary constant `fi` is `complex(0, f)`. Otherwise the
text is tried as a `uint64` and an `int64` (base prefixes allowed), and else as
a `float64`, which must be written as one. -/
def newNumber (text : GoString) (typ : ItemType) : Except NumberError Number :=
  match typ with
  | .itemCharConstant =>
    match unquoteChar (text.drop 1) (text.headD 0) with
    | none => .error .invalidSyntax
    | some (r, _, tail) =>
      if tail = [0x27] then .ok ⟨text, some r, some r, some (Float64.ofNat r), none⟩
      else .error .malformedCharacterConstant
  | .itemComplex =>
    match parseComplex text with
    | some (re, im) => .ok (Number.ofComplex text re im)
    | none => .error .complex
  | _ =>
    match (if text.getLast? = some 0x69 then (parseFloat text.dropLast).toOption else none) with
    | some f => .ok (Number.ofComplex text Float64.zero f)
    | none =>
      let u := parseUint0 text
      match parseInt0 text with
      | some i => .ok ⟨text, some i, if i = 0 then some (u.getD 0) else u, some (Float64.ofInt i), none⟩
      | none =>
        match u with
        | some u => .ok ⟨text, none, some u, some (Float64.ofNat u), none⟩
        | none =>
          match parseFloat text with
          | .ok f =>
            if text.any (· ∈ lit ".eEpP") then .ok ⟨text, f.toInt64?, f.toUint64?, some f, none⟩
            else .error .integerOverflow
          | .error _ => .error .illegalNumberSyntax

example : (newNumber (lit "0x1F") .itemNumber).map (·.int) = .ok (some 31) := by decide
example : (newNumber (lit "1_000") .itemNumber).map (·.uint) = .ok (some 1000) := by decide
example : (newNumber (lit "'a'") .itemCharConstant).map (·.int) = .ok (some 97) := by decide
example : (newNumber (lit "1.5e3") .itemNumber).map (·.int) = .ok (some 1500) := by decide
example : newNumber (lit "99999999999999999999") .itemNumber = .error .integerOverflow := by decide
example : (newNumber (lit "1+2i") .itemComplex).map (·.complex) =
    .ok (some (Float64.ofNat 1, Float64.ofNat 2)) := by decide

/-! ### Parse trees -/

/-- The argument nodes of a command: a field chain `.X.Y`, a variable `$x.Y`,
a chain of fields on a function or a parenthesized pipeline, `.`, `nil`, a
boolean, a number, a string (its literal and its value), a function name, and
a parenthesized pipeline (`PipeNode`: whether it assigns, the variables it
declares, and its commands). -/
inductive Arg where
  | field (ident : List GoString)
  | variable (ident : List GoString)
  | chain (node : Arg) (fields : List GoString)
  | dot
  | nil
  | bool (b : Bool)
  | number (n : Number)
  | string (quoted text : GoString)
  | identifier (name : GoString)
  | pipe (isAssign : Bool) (decl : List GoString) (cmds : List (List Arg))
  deriving Repr

/-- `PipeNode`. -/
structure Pipe where
  isAssign : Bool
  decl : List GoString
  cmds : List (List Arg)
  deriving Repr

def Pipe.toArg (p : Pipe) : Arg := .pipe p.isAssign p.decl p.cmds

/-- The nodes of a tree: text, an action's pipeline, `if`, `range` and `with`
with their pipeline, list and else list (an `else if` is an else list holding
one node), `{{template}}` with its name and optional pipeline, `{{break}}` and
`{{continue}}`. -/
inductive Node where
  | text (text : GoString)
  | action (pipe : Pipe)
  | ifNode (pipe : Pipe) (list elseList : List Node)
  | rangeNode (pipe : Pipe) (list elseList : List Node)
  | withNode (pipe : Pipe) (list elseList : List Node)
  | template (name : GoString) (pipe : Option Pipe)
  | breakNode
  | continueNode
  deriving Repr

/-- The trees `parse` returns, by name. -/
abbrev TreeSet := List (GoString × List Node)

mutual
/-- `String()` of the parse nodes, as the error messages print them. -/
def Arg.text : Arg → GoString
  | .field ident => ident.flatMap (0x2E :: ·)
  | .variable ident => [0x2E].intercalate ident
  | .chain node fields =>
    (match node with
      | .pipe a d c => 0x28 :: Arg.pipeText a d c ++ [0x29]
      | n => n.text) ++ fields.flatMap (0x2E :: ·)
  | .dot => lit "."
  | .nil => lit "nil"
  | .bool b => if b then lit "true" else lit "false"
  | .number n => n.text
  | .string q _ => q
  | .identifier name => name
  | .pipe a d c => Arg.pipeText a d c

def Arg.pipeText (isAssign : Bool) (decl : List GoString) (cmds : List (List Arg)) : GoString :=
  (if decl = [] then [] else (lit ", ").intercalate decl ++ (if isAssign then lit " = " else lit " := ")) ++
    Arg.cmdsText cmds

def Arg.cmdsText : List (List Arg) → GoString
  | [] => []
  | [c] => Arg.cmdText c
  | c :: cs => Arg.cmdText c ++ lit " | " ++ Arg.cmdsText cs

def Arg.cmdText : List Arg → GoString
  | [] => []
  | [a] => Arg.argText a
  | a :: as => Arg.argText a ++ 0x20 :: Arg.cmdText as

def Arg.argText : Arg → GoString
  | .pipe a d c => 0x28 :: Arg.pipeText a d c ++ [0x29]
  | a => a.text
end

/-! ### Errors and items -/

/-- The parser's errors, one per `errorf` site, and `outOfFuel`, which the Go
parser has no counterpart of. -/
inductive ParseError where
  | lex (e : LexError)
  | unexpected (item : Item) (context : GoString)
  | unexpectedEnd
  | unexpectedElse
  | unexpectedEOF
  | unexpectedElseIn (context : GoString)
  | expectedEnd
  | missingValue (context : GoString)
  | nonExecutable (stage : Nat)
  | emptyCommand
  | functionNotDefined (name : GoString)
  | undefinedVariable (name : GoString)
  | unexpectedDotAfterTerm (term : GoString)
  | rangeOnlyVariables
  | tooManyDeclarations (context : GoString)
  | outsideRange (keyword : GoString)
  | invalidSyntax
  | number (e : NumberError) (text : GoString)
  | multipleDefinition (name : GoString)
  | outOfFuel
  deriving DecidableEq, Repr

/-- The builtin functions of `text/template`. -/
def builtinNames : List GoString :=
  [lit "and", lit "call", lit "html", lit "index", lit "slice", lit "js", lit "len", lit "not",
    lit "or", lit "print", lit "printf", lit "println", lit "urlquery", lit "eq", lit "ge",
    lit "gt", lit "le", lit "lt", lit "ne"]

/-- `hasFunction`: a name of `webhookFuncMap` or a builtin. -/
def hasFunction (name : GoString) : Bool := name ∈ webhookFuncNames || name ∈ builtinNames

/-- The items after the spaces at the head. -/
def dropSpaces : List Item → List Item
  | .tok .itemSpace _ :: ts => dropSpaces ts
  | ts => ts

/-- `nextNonSpace`; past the end of the list it reads `eof`. -/
def nextNonSpace (ts : List Item) : Item × List Item :=
  match dropSpaces ts with
  | [] => (.eof, [])
  | i :: rest => (i, rest)

/-- `unexpected`: a lexer error the parser reached, or an item out of place. -/
def unexpected (i : Item) (context : GoString) : ParseError :=
  match i with
  | .error e => .lex e
  | i => .unexpected i context

/-- `expect`: the next non-space item must be of type `typ`. -/
def expect (typ : ItemType) (context : GoString) (ts : List Item) : Except ParseError (List Item) :=
  match nextNonSpace ts with
  | (.tok t v, rest) => if t = typ then .ok rest else .error (unexpected (.tok t v) context)
  | (i, _) => .error (unexpected i context)

def isField : Item → Bool
  | .tok .itemField _ => true
  | _ => false

/-- A field item's name. -/
def fieldName : Item → GoString
  | .tok .itemField val => val.drop 1
  | _ => []

/-- The item types that start an operand. -/
def startsOperand : ItemType → Bool
  | .itemBool | .itemCharConstant | .itemComplex | .itemDot | .itemField | .itemIdentifier
  | .itemNumber | .itemNil | .itemRawString | .itemString | .itemVariable | .itemLeftParen => true
  | _ => false

/-- Whether an argument is a literal or the dot, which cannot start a command
after the first. -/
def Arg.isLiteral : Arg → Bool
  | .bool _ | .dot | .nil | .number _ | .string _ _ => true
  | _ => false

/-- `checkPipeline`: a pipeline has a command, and a command after the first
does not start with a literal or the dot. -/
def checkPipeline (context : GoString) (pipe : Pipe) : Except ParseError Pipe :=
  if pipe.cmds.isEmpty then .error (.missingValue context)
  else
    match (pipe.cmds.drop 1).findIdx? fun c => (c.head?.map Arg.isLiteral).getD false with
    | some i => .error (.nonExecutable (i + 2))
    | none => .ok pipe

/-! ### Parser state -/

/-- What the parser carries along: the variables in scope, `$` first, and the
trees defined so far. -/
structure PState where
  vars : List GoString
  trees : TreeSet

/-- `popVars`: the variables declared since `mark` leave scope. -/
def PState.popVars (st : PState) (mark : Nat) : PState := { st with vars := st.vars.take mark }

@[simp] theorem PState.popVars_length (st : PState) : st.popVars st.vars.length = st := by
  simp [PState.popVars]

/-- A declared variable comes into scope. -/
def PState.push (st : PState) (v : GoString) : PState := { st with vars := st.vars ++ [v] }

/-- The declarations at the head of a pipeline (the `decls:` loop): `$x :=` or
`$x =`, and in a `range` a first `$i,` before a second variable. A variable not
followed by one of these is an operand and stays in the items. `k` bounds the
loop, which comes back at most once. -/
def declarations (context : GoString) : Nat → List GoString → PState → List Item →
    Except ParseError (List GoString × Bool × PState × List Item)
  | 0, decl, st, ts => .ok (decl, false, st, ts)
  | k + 1, decl, st, ts =>
    match nextNonSpace ts with
    | (.tok .itemVariable v, ts') =>
      match nextNonSpace ts' with
      | (.tok .itemAssign _, rest) => .ok (decl ++ [v], true, st.push v, rest)
      | (.tok .itemDeclare _, rest) => .ok (decl ++ [v], false, st.push v, rest)
      | (.tok .itemChar c, rest) =>
        if c = [0x2C] then
          if context = lit "range" ∧ decl = [] then
            match (nextNonSpace rest).1 with
            | .tok .itemVariable _ | .tok .itemRightDelim _ | .tok .itemRightParen _ =>
              declarations context k (decl ++ [v]) (st.push v) rest
            | _ => .error .rangeOnlyVariables
          else .error (.tooManyDeclarations context)
        else .ok (decl, false, st, .tok .itemVariable v :: ts')
      | _ => .ok (decl, false, st, .tok .itemVariable v :: ts')
    | _ => .ok (decl, false, st, ts)

/-- `parseTemplateName`: the unquoted name of a `template` or `block`. -/
def parseTemplateName (token : Item) (context : GoString) : Except ParseError GoString :=
  match token with
  | .tok .itemString v | .tok .itemRawString v =>
    match unquote v with
    | some s => .ok s
    | none => .error .invalidSyntax
  | i => .error (unexpected i context)

/-- `breakControl` and `continueControl`: the keyword must close its action and
stand inside a `range`. -/
def loopControl (keyword : GoString) (node : Node) (rangeDepth : Nat) (ts : List Item) :
    Except ParseError (Node × List Item) :=
  match nextNonSpace ts with
  | (.tok .itemRightDelim _, rest) => if rangeDepth = 0 then .error (.outsideRange keyword) else .ok (node, rest)
  | (i, _) => .error (unexpected i keyword)

def breakControl : Nat → List Item → Except ParseError (Node × List Item) :=
  loopControl (lit "\x7b\x7bbreak\x7d\x7d") .breakNode

def continueControl : Nat → List Item → Except ParseError (Node × List Item) :=
  loopControl (lit "\x7b\x7bcontinue\x7d\x7d") .continueNode

/-- `IsEmptyTree`: a list of text nodes that trim to nothing. -/
def isEmptyTree (nodes : List Node) : Bool :=
  nodes.all fun
    | .text s => trimSpace s = []
    | _ => false

/-- `add`: a tree is installed under its name unless a non-empty one is there
already, which a second non-empty one may not replace. -/
def addTree (name : GoString) (root : List Node) (trees : TreeSet) : Except ParseError TreeSet :=
  match trees.lookup name with
  | none => .ok (trees ++ [(name, root)])
  | some old =>
    if isEmptyTree old then .ok (trees.map fun p => if p.1 = name then (name, root) else p)
    else if isEmptyTree root then .ok trees
    else .error (.multipleDefinition name)

/-- What `textOrAction` returns: a node, or the `{{end}}` or `{{else}}` that
closes the list being read. -/
inductive Parsed where
  | node (n : Node)
  | endMark
  | elseMark

/-- `elseControl`: an `else` followed by `if` or `with` leaves that keyword to
be read next. -/
def elseControl (ts : List Item) : Except ParseError (List Item) :=
  match nextNonSpace ts with
  | (.tok .itemIf _, _) | (.tok .itemWith _, _) => .ok (dropSpaces ts)
  | _ => expect .itemRightDelim (lit "else") ts

/-- The node of a control structure by its keyword. -/
def controlNode (context : GoString) (pipe : Pipe) (list elseList : List Node) : Node :=
  if context = lit "if" then .ifNode pipe list elseList
  else if context = lit "range" then .rangeNode pipe list elseList
  else .withNode pipe list elseList

/-! ### The parsing functions -/

mutual
/-- `term`: the operand the next non-space item starts, or none, the items
left as they were but for the spaces skipped. -/
def term : Nat → PState → List Item → Except ParseError (Option Arg × PState × List Item)
  | 0, _, _ => .error .outOfFuel
  | fuel + 1, st, ts =>
    match nextNonSpace ts with
    | (.tok .itemIdentifier name, rest) =>
      if hasFunction name then .ok (some (.identifier name), st, rest) else .error (.functionNotDefined name)
    | (.tok .itemDot _, rest) => .ok (some .dot, st, rest)
    | (.tok .itemNil _, rest) => .ok (some .nil, st, rest)
    | (.tok .itemVariable v, rest) =>
      if v ∈ st.vars then .ok (some (.variable [v]), st, rest) else .error (.undefinedVariable v)
    | (.tok .itemField v, rest) => .ok (some (.field [v.drop 1]), st, rest)
    | (.tok .itemBool v, rest) => .ok (some (.bool (v = lit "true")), st, rest)
    | (.tok .itemCharConstant v, rest) =>
      match newNumber v .itemCharConstant with
      | .ok n => .ok (some (.number n), st, rest)
      | .error e => .error (.number e v)
    | (.tok .itemComplex v, rest) =>
      match newNumber v .itemComplex with
      | .ok n => .ok (some (.number n), st, rest)
      | .error e => .error (.number e v)
    | (.tok .itemNumber v, rest) =>
      match newNumber v .itemNumber with
      | .ok n => .ok (some (.number n), st, rest)
      | .error e => .error (.number e v)
    | (.tok .itemLeftParen _, rest) =>
      match pipeline (lit "parenthesized pipeline") .itemRightParen fuel st rest with
      | .ok (p, st, rest) => .ok (some p.toArg, st, rest)
      | .error e => .error e
    | (.tok .itemString v, rest) | (.tok .itemRawString v, rest) =>
      match unquote v with
      | some s => .ok (some (.string v s), st, rest)
      | none => .error .invalidSyntax
    | _ => .ok (none, st, dropSpaces ts)

/-- `operand`: a term and the fields chained after it. Fields after a field or
a variable lengthen it; after a literal they are an error; after a function or
a parenthesized pipeline they make a chain. -/
def operand : Nat → PState → List Item → Except ParseError (Option Arg × PState × List Item)
  | 0, _, _ => .error .outOfFuel
  | fuel + 1, st, ts =>
    match term fuel st ts with
    | .error e => .error e
    | .ok (none, st, rest) => .ok (none, st, rest)
    | .ok (some node, st, rest) =>
      let fields := (rest.takeWhile isField).map fieldName
      if fields = [] then .ok (some node, st, rest)
      else
        let rest := rest.dropWhile isField
        match node with
        | .field ident => .ok (some (.field (ident ++ fields)), st, rest)
        | .variable ident => .ok (some (.variable (ident ++ fields)), st, rest)
        | .bool _ | .dot | .nil | .number _ | .string _ _ => .error (.unexpectedDotAfterTerm node.text)
        | node => .ok (some (.chain node fields), st, rest)

/-- The loop of `command`: after each operand a space goes on, a right
delimiter or parenthesis ends the command and stays, a pipe ends it and is
consumed. A command has an argument. -/
def command : Nat → PState → List Arg → List Item → Except ParseError (List Arg × PState × List Item)
  | 0, _, _, _ => .error .outOfFuel
  | fuel + 1, st, cmd, ts =>
    match operand fuel st (dropSpaces ts) with
    | .error e => .error e
    | .ok (op, st, rest) =>
      let cmd := cmd ++ op.toList
      let finish (rest : List Item) : Except ParseError (List Arg × PState × List Item) :=
        if cmd.isEmpty then .error .emptyCommand else .ok (cmd, st, rest)
      match rest with
      | .tok .itemSpace _ :: rest => command fuel st cmd rest
      | .tok .itemRightDelim v :: rest => finish (.tok .itemRightDelim v :: rest)
      | .tok .itemRightParen v :: rest => finish (.tok .itemRightParen v :: rest)
      | .tok .itemPipe _ :: rest => finish rest
      | i :: _ => .error (unexpected i (lit "operand"))
      | [] => .error (unexpected .eof (lit "operand"))

/-- `pipeline`: declarations, then commands up to the item `endT`. -/
def pipeline (context : GoString) (endT : ItemType) : Nat → PState → List Item →
    Except ParseError (Pipe × PState × List Item)
  | 0, _, _ => .error .outOfFuel
  | fuel + 1, st, ts =>
    match declarations context 2 [] st ts with
    | .error e => .error e
    | .ok (decl, isAssign, st, ts) => pipelineLoop context endT fuel ⟨isAssign, decl, []⟩ st ts

/-- The command loop of `pipeline`. -/
def pipelineLoop (context : GoString) (endT : ItemType) : Nat → Pipe → PState → List Item →
    Except ParseError (Pipe × PState × List Item)
  | 0, _, _, _ => .error .outOfFuel
  | fuel + 1, pipe, st, ts =>
    match nextNonSpace ts with
    | (.tok t v, rest) =>
      if t = endT then (checkPipeline context pipe).map (·, st, rest)
      else if startsOperand t then
        match command fuel st [] (.tok t v :: rest) with
        | .error e => .error e
        | .ok (cmd, st, rest) => pipelineLoop context endT fuel { pipe with cmds := pipe.cmds ++ [cmd] } st rest
      else .error (unexpected (.tok t v) context)
    | (i, _) => .error (unexpected i context)

/-- `textOrAction`. -/
def textOrAction : Nat → Nat → PState → List Item → Except ParseError (Parsed × PState × List Item)
  | 0, _, _, _ => .error .outOfFuel
  | fuel + 1, depth, st, ts =>
    match nextNonSpace ts with
    | (.tok .itemText s, rest) => .ok (.node (.text s), st, rest)
    | (.tok .itemLeftDelim _, rest) => action fuel depth st rest
    | (i, _) => .error (unexpected i (lit "input"))
termination_by structural fuel _ _ _ => fuel

/-- `action`: a control keyword, or a pipeline to print. The variables an
action declares stay in scope until the enclosing `{{end}}`. -/
def action : Nat → Nat → PState → List Item → Except ParseError (Parsed × PState × List Item)
  | 0, _, _, _ => .error .outOfFuel
  | fuel + 1, depth, st, ts =>
    match nextNonSpace ts with
    | (.tok .itemBlock _, rest) =>
      match blockControl fuel st rest with
      | .ok (n, st, rest) => .ok (.node n, st, rest)
      | .error e => .error e
    | (.tok .itemBreak _, rest) => (breakControl depth rest).map fun (n, rest) => (.node n, st, rest)
    | (.tok .itemContinue _, rest) => (continueControl depth rest).map fun (n, rest) => (.node n, st, rest)
    | (.tok .itemElse _, rest) => (elseControl rest).map (.elseMark, st, ·)
    | (.tok .itemEnd _, rest) => (expect .itemRightDelim (lit "end") rest).map (.endMark, st, ·)
    | (.tok .itemIf _, rest) => parseControl (lit "if") fuel depth st rest
    | (.tok .itemRange _, rest) => parseControl (lit "range") fuel depth st rest
    | (.tok .itemTemplate _, rest) =>
      match templateControl fuel st rest with
      | .ok (n, st, rest) => .ok (.node n, st, rest)
      | .error e => .error e
    | (.tok .itemWith _, rest) => parseControl (lit "with") fuel depth st rest
    | _ =>
      match pipeline (lit "command") .itemRightDelim fuel st ts with
      | .ok (p, st, rest) => .ok (.node (.action p), st, rest)
      | .error e => .error e

/-- `parseControl`, with `ifControl`, `rangeControl` and `withControl`: the
pipeline, the list (inside a `range` one level deeper), and an else list; an
`else if` in an `if` and an `else with` in a `with` are a nested node that takes
the `{{end}}`. The variables declared since the keyword leave scope at its end. -/
def parseControl (context : GoString) : Nat → Nat → PState → List Item →
    Except ParseError (Parsed × PState × List Item)
  | 0, _, _, _ => .error .outOfFuel
  | fuel + 1, depth, st, ts =>
    let mark := st.vars.length
    match pipeline context .itemRightDelim fuel st ts with
    | .error e => .error e
    | .ok (pipe, st, ts) =>
      match itemList fuel (if context = lit "range" then depth + 1 else depth) st ts with
      | .error e => .error e
      | .ok (list, false, st, ts) => .ok (.node (controlNode context pipe list []), st.popVars mark, ts)
      | .ok (list, true, st, ts) =>
        let nested := match ts with
          | .tok .itemIf _ :: ts' => if context = lit "if" then some ts' else none
          | .tok .itemWith _ :: ts' => if context = lit "with" then some ts' else none
          | _ => none
        match nested with
        | some ts' =>
          match parseControl context fuel depth st ts' with
          | .ok (.node n, st, ts) => .ok (.node (controlNode context pipe list [n]), st.popVars mark, ts)
          | .ok (_, _, _) => .error .expectedEnd
          | .error e => .error e
        | none =>
          match itemList fuel depth st ts with
          | .error e => .error e
          | .ok (elseList, false, st, ts) =>
            .ok (.node (controlNode context pipe list elseList), st.popVars mark, ts)
          | .ok (_, true, _, _) => .error .expectedEnd

/-- `itemList`: nodes up to an `{{end}}` (`false`) or `{{else}}` (`true`). -/
def itemList : Nat → Nat → PState → List Item → Except ParseError (List Node × Bool × PState × List Item)
  | 0, _, _, _ => .error .outOfFuel
  | fuel + 1, depth, st, ts =>
    if (nextNonSpace ts).1 = .eof then .error .unexpectedEOF
    else
      match textOrAction fuel depth st ts with
      | .error e => .error e
      | .ok (.node n, st, ts) => (itemList fuel depth st ts).map fun (l, e, st, ts) => (n :: l, e, st, ts)
      | .ok (.endMark, st, ts) => .ok ([], false, st, ts)
      | .ok (.elseMark, st, ts) => .ok ([], true, st, ts)

/-- `blockControl`: `{{block "name" pipeline}}` defines the template `name` by
the list up to its `{{end}}`, read as a tree of its own, and calls it. -/
def blockControl : Nat → PState → List Item → Except ParseError (Node × PState × List Item)
  | 0, _, _ => .error .outOfFuel
  | fuel + 1, st, ts =>
    let context := lit "block clause"
    match parseTemplateName (nextNonSpace ts).1 context with
    | .error e => .error e
    | .ok name =>
      match pipeline context .itemRightDelim fuel st (nextNonSpace ts).2 with
      | .error e => .error e
      | .ok (pipe, st, ts) =>
        match itemList fuel 0 { st with vars := [lit "$"] } ts with
        | .error e => .error e
        | .ok (_, true, _, _) => .error (.unexpectedElseIn context)
        | .ok (root, false, st', ts) =>
          match addTree name root st'.trees with
          | .error e => .error e
          | .ok trees => .ok (.template name (some pipe), { st with trees }, ts)

/-- `templateControl`: `{{template "name"}}` with an optional pipeline. -/
def templateControl : Nat → PState → List Item → Except ParseError (Node × PState × List Item)
  | 0, _, _ => .error .outOfFuel
  | fuel + 1, st, ts =>
    let context := lit "template clause"
    match parseTemplateName (nextNonSpace ts).1 context with
    | .error e => .error e
    | .ok name =>
      match nextNonSpace (nextNonSpace ts).2 with
      | (.tok .itemRightDelim _, rest) => .ok (.template name none, st, rest)
      | _ =>
        match pipeline context .itemRightDelim fuel st (nextNonSpace ts).2 with
        | .ok (p, st, rest) => .ok (.template name (some p), st, rest)
        | .error e => .error e
end

/-! ### Top level -/

/-- `parseDefinition`, after `{{define`: the quoted name, the delimiter, and the
list up to `{{end}}`, read as a tree of its own and installed. -/
def parseDefinition (fuel : Nat) (st : PState) (ts : List Item) : Except ParseError (PState × List Item) :=
  let context := lit "define clause"
  match nextNonSpace ts with
  | (.tok t v, rest) =>
    if t = .itemString ∨ t = .itemRawString then
      match unquote v with
      | none => .error .invalidSyntax
      | some name =>
        match expect .itemRightDelim context rest with
        | .error e => .error e
        | .ok ts =>
          match itemList fuel 0 { st with vars := [lit "$"] } ts with
          | .error e => .error e
          | .ok (_, true, _, _) => .error (.unexpectedElseIn context)
          | .ok (root, false, st', ts) => (addTree name root st'.trees).map fun trees => ({ st with trees }, ts)
    else .error (unexpected (.tok t v) context)
  | (i, _) => .error (unexpected i context)

/-- Whether the top-level loop is at the end of the input. -/
def atEOF : List Item → Bool
  | [] | .eof :: _ => true
  | _ => false

/-- The items after `{{define`, when a definition starts here. -/
def defineAt : List Item → Option (List Item)
  | .tok .itemLeftDelim _ :: rest =>
    match nextNonSpace rest with
    | (.tok .itemDefine _, r) => some r
    | _ => none
  | _ => none

/-- The loop of `parse`: top-level nodes and definitions up to the end of the
input, where an `{{end}}` or `{{else}}` is out of place. -/
def parseTop : Nat → PState → List Node → List Item → Except ParseError (List Node × PState)
  | 0, _, _, _ => .error .outOfFuel
  | fuel + 1, st, root, ts =>
    if atEOF ts then .ok (root, st)
    else match defineAt ts with
      | some rest =>
        match parseDefinition fuel st rest with
        | .error e => .error e
        | .ok (st, ts) => parseTop fuel st root ts
      | none =>
        match textOrAction fuel 0 st ts with
        | .error e => .error e
        | .ok (.node n, st, ts) => parseTop fuel st (root ++ [n]) ts
        | .ok (.endMark, _, _) => .error .unexpectedEnd
        | .ok (.elseMark, _, _) => .error .unexpectedElse

/-- The fuel `parse` gives: five units per item and three more. -/
def parseFuel (items : List Item) : Nat := 5 * items.length + 3

/-- `parse.Parse(name, text, ...)`: the trees the text defines, the top-level
one under `name`. -/
def parse (lib : Lib) (name text : GoString) : Except ParseError TreeSet :=
  let items := lex lib text
  match parseTop (parseFuel items) ⟨[lit "$"], []⟩ [] items with
  | .error e => .error e
  | .ok (root, st) => addTree name root st.trees

end Ofelia.Template
