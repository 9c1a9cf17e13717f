import Ofelia.Template.Data

/-! The lexer of `text/template` with the delimiters `{{` and `}}`, as
`executeTemplate` runs it: comments are dropped, `break` and `continue` are
keywords. The lexer is a state machine over the bytes of the template. Outside
an action it copies text up to the next `{{`. Inside an action it reads one item
at a time until `}}`. A trim marker `{{- ` or ` -}}` drops the spaces next to
the delimiter.

The item list ends with `eof` or with the first error. The parser reads it from
the front and stops at the first error, so an error item is reported only when
the parser reaches it. -/

namespace Ofelia.Template

/-- `itemType`. -/
inductive ItemType where
  | itemBool | itemChar | itemCharConstant | itemComplex | itemAssign | itemDeclare | itemField
  | itemIdentifier | itemLeftDelim | itemLeftParen | itemNumber | itemPipe | itemRawString
  | itemRightDelim | itemRightParen | itemSpace | itemString | itemText | itemVariable
  | itemBlock | itemBreak | itemContinue | itemDefine | itemDot | itemElse | itemEnd | itemIf
  | itemNil | itemRange | itemTemplate | itemWith
  deriving DecidableEq, Repr

/-- The messages of `(*lexer).errorf`. -/
inductive LexError where
  | unclosedComment
  | commentEndsBeforeClosingDelimiter
  | unclosedLeftParen
  | unclosedAction
  | expectedDeclare
  | unexpectedRightParen
  | unrecognizedCharacter (r : Nat)
  | badCharacter (r : Nat)
  | unterminatedQuotedString
  | unterminatedRawQuotedString
  | unterminatedCharacterConstant
  | badNumberSyntax (text : GoString)
  deriving DecidableEq, Repr

/-- `item` without its position: a token with its text, the end of the input,
or an error. -/
inductive Item where
  | tok (typ : ItemType) (val : GoString)
  | eof
  | error (e : LexError)
  deriving DecidableEq, Repr

def leftDelim : GoString := [0x7B, 0x7B]

def rightDelim : GoString := [0x7D, 0x7D]

def leftComment : GoString := [0x2F, 0x2A]

def rightComment : GoString := [0x2A, 0x2F]

/-- `isSpace`: the bytes of `spaceChars`, space, tab, carriage return and newline. -/
def isSpace (c : UInt8) : Bool := c = 0x20 || c = 0x09 || c = 0x0D || c = 0x0A

/-- `isAlphaNumeric`: an underscore, a letter or a digit. -/
def isAlphaNumeric (lib : Lib) (r : Nat) : Bool :=
  r = 0x5F || (0x41 ≤ r && r ≤ 0x5A) || (0x61 ≤ r && r ≤ 0x7A) || (0x30 ≤ r && r ≤ 0x39) ||
    (0x80 ≤ r && (lib.isLetter r || lib.isDigit r))

def hasLeftTrimMarker : GoString → Bool
  | 0x2D :: c :: _ => isSpace c
  | _ => false

def hasRightTrimMarker : GoString → Bool
  | c :: 0x2D :: _ => isSpace c
  | _ => false

/-- `atRightDelim`: whether a right delimiter starts here, and whether a trim
marker stands before it. -/
def atRightDelim (s : GoString) : Bool × Bool :=
  if hasRightTrimMarker s && rightDelim.isPrefixOf (s.drop 2) then (true, true)
  else if rightDelim.isPrefixOf s then (true, false)
  else (false, false)

/-- `strings.Index`. -/
def indexOf (sep : GoString) : GoString → Option Nat
  | [] => if sep = [] then some 0 else none
  | c :: s => if sep.isPrefixOf (c :: s) then some 0 else (indexOf sep s).map (· + 1)

/-- `strings.TrimRight(s, spaceChars)`. -/
def trimRightSpace (s : GoString) : GoString := (s.reverse.dropWhile isSpace).reverse

/-- What follows a right delimiter at the head of `s`, after `lexRightDelim`
skipped the trim marker and, with one, the spaces after the delimiter. -/
def afterRightDelim (trim : Bool) (s : GoString) : GoString :=
  if trim then ((s.drop 2).drop 2).dropWhile isSpace else s.drop 2

/-- `atTerminator`: a space, the end, one of `. , | : ) (`, or a right delimiter. -/
def atTerminator : GoString → Bool
  | [] => true
  | c :: s => isSpace c || c = 0x2E || c = 0x2C || c = 0x7C || c = 0x3A || c = 0x29 || c = 0x28 ||
      rightDelim.isPrefixOf (c :: s)

/-- The longest prefix of runes satisfying `p`, and what follows it. -/
def spanRunes (p : Nat → Bool) (s : GoString) : GoString × GoString :=
  (((runes s).takeWhile (p ·.1)).flatMap (·.2), ((runes s).dropWhile (p ·.1)).flatMap (·.2))

/-- The keywords of the `key` table. -/
def keyword (word : GoString) : Option ItemType :=
  if word = lit "block" then some .itemBlock
  else if word = lit "break" then some .itemBreak
  else if word = lit "continue" then some .itemContinue
  else if word = lit "define" then some .itemDefine
  else if word = lit "else" then some .itemElse
  else if word = lit "end" then some .itemEnd
  else if word = lit "if" then some .itemIf
  else if word = lit "range" then some .itemRange
  else if word = lit "nil" then some .itemNil
  else if word = lit "template" then some .itemTemplate
  else if word = lit "with" then some .itemWith
  else none

/-! ### Items -/

/-- `lexIdentifier`: a keyword, `true` or `false`, or an identifier. -/
def lexIdentifier (lib : Lib) (s : GoString) : Except LexError (Item × GoString) :=
  let (word, rest) := spanRunes (isAlphaNumeric lib) s
  if !atTerminator rest then .error (.badCharacter (decodeRune rest).1)
  else match keyword word with
    | some k => .ok (.tok k word, rest)
    | none =>
      .ok (.tok (if word = lit "true" ∨ word = lit "false" then .itemBool else .itemIdentifier) word, rest)

/-- `lexFieldOrVariable` after the sigil `.` or `$`: a lone sigil is `.` or
`$`, otherwise the sigil and a name. -/
def lexFieldOrVariable (lib : Lib) (typ : ItemType) (sigil : UInt8) (s : GoString) :
    Except LexError (Item × GoString) :=
  if atTerminator s then .ok (.tok (if typ = .itemVariable then .itemVariable else .itemDot) [sigil], s)
  else
    let (word, rest) := spanRunes (isAlphaNumeric lib) s
    if atTerminator rest then .ok (.tok typ (sigil :: word), rest)
    else .error (.badCharacter (decodeRune rest).1)

/-- `lexQuote`, `lexChar`: after the opening quote, the rest of the literal up
to and including the closing `quote`, and what follows. A backslash escapes the
next byte; a newline or the end of the input leaves the literal unterminated. -/
def scanQuoted (quote : UInt8) : GoString → Option (GoString × GoString)
  | [] => none
  | c :: s =>
    if c = 0x5C then
      match s with
      | d :: s' => if d = 0x0A then none else (scanQuoted quote s').map fun (b, r) => (c :: d :: b, r)
      | [] => none
    else if c = 0x0A then none
    else if c = quote then some ([c], s)
    else (scanQuoted quote s).map fun (b, r) => (c :: b, r)

/-- `lexRawQuote` after the opening backquote. -/
def scanRawQuoted : GoString → Option (GoString × GoString)
  | [] => none
  | c :: s => if c = 0x60 then some ([c], s) else (scanRawQuoted s).map fun (b, r) => (c :: b, r)

/-- `accept`: consume one byte of `valid`. -/
def accept (valid : GoString) : GoString → Bool × GoString
  | c :: s => if c ∈ valid then (true, s) else (false, c :: s)
  | [] => (false, [])

/-- `scanNumber`: what follows a number's text, and whether no alphanumeric
rune follows it (after which the rune is consumed too). -/
def scanNumber (lib : Lib) (s : GoString) : Bool × GoString :=
  let s := (accept (lit "+-") s).2
  let (zero, s) := accept (lit "0") s
  let (digits, s) : GoString × GoString :=
    if zero then
      match accept (lit "xX") s with
      | (true, s) => (lit "0123456789abcdefABCDEF_", s)
      | (false, s) =>
        match accept (lit "oO") s with
        | (true, s) => (lit "01234567_", s)
        | (false, s) =>
          match accept (lit "bB") s with
          | (true, s) => (lit "01_", s)
          | (false, s) => (lit "0123456789_", s)
    else (lit "0123456789_", s)
  let s := s.dropWhile (· ∈ digits)
  let s := match accept (lit ".") s with
    | (true, s) => s.dropWhile (· ∈ digits)
    | (false, s) => s
  let s := if digits.length = 11 then
      match accept (lit "eE") s with
      | (true, s) => ((accept (lit "+-") s).2).dropWhile (· ∈ lit "0123456789_")
      | (false, s) => s
    else s
  let s := if digits.length = 23 then
      match accept (lit "pP") s with
      | (true, s) => ((accept (lit "+-") s).2).dropWhile (· ∈ lit "0123456789_")
      | (false, s) => s
    else s
  let s := (accept (lit "i") s).2
  if s ≠ [] ∧ isAlphaNumeric lib (decodeRune s).1 then (false, s.drop (decodeRune s).2) else (true, s)

/-- `lexNumber`: a number, or a complex constant such as `1+2i`. -/
def lexNumber (lib : Lib) (s : GoString) : Except LexError (Item × GoString) :=
  let consumed (r : GoString) := s.take (s.length - r.length)
  match scanNumber lib s with
  | (false, r) => .error (.badNumberSyntax (consumed r))
  | (true, r) =>
    if r.head? = some 0x2B ∨ r.head? = some 0x2D then
      match scanNumber lib r with
      | (ok, r') =>
        if ok ∧ (consumed r').getLast? = some 0x69 then .ok (.tok .itemComplex (consumed r'), r')
        else .error (.badNumberSyntax (consumed r'))
    else .ok (.tok .itemNumber (consumed r), r)

/-- `lexComment` from the `/*` marker: what follows the comment's right
delimiter. -/
def lexComment (s : GoString) : Except LexError GoString :=
  match indexOf rightComment (s.drop 2) with
  | none => .error .unclosedComment
  | some x =>
    let r := s.drop (2 + x + 2)
    match atRightDelim r with
    | (false, _) => .error .commentEndsBeforeClosingDelimiter
    | (true, trim) => .ok (afterRightDelim trim r)

/-! ### The state machine -/

/-- Where the lexer is: in text, or inside an action with its open
parentheses. -/
inductive Mode where
  | text
  | action (parenDepth : Int)
  deriving DecidableEq, Repr

/-- An item and the lexer's next state, or the error that stops it. -/
def emit (k : GoString → List Item) : Except LexError (Item × GoString) → List Item
  | .error e => [.error e]
  | .ok (i, rest) => i :: k rest

/-- `lexText` and `lexInsideAction` with the state functions they hand over
to, for at most `fuel` states. -/
def lexFrom (lib : Lib) : Nat → Mode → GoString → List Item
  | 0, _, _ => []
  | fuel + 1, .text, s =>
    match indexOf leftDelim s with
    | none => if s = [] then [.eof] else [.tok .itemText s, .eof]
    | some x =>
      let r := s.drop (x + 2)
      let trim := hasLeftTrimMarker r
      let text := if trim then trimRightSpace (s.take x) else s.take x
      let r := if trim then r.drop 2 else r
      (if text = [] then [] else [.tok .itemText text]) ++
        if leftComment.isPrefixOf r then
          match lexComment r with
          | .error e => [.error e]
          | .ok rest => lexFrom lib fuel .text rest
        else .tok .itemLeftDelim leftDelim :: lexFrom lib fuel (.action 0) r
  | fuel + 1, .action d, s =>
    match atRightDelim s with
    | (true, trim) =>
      if d = 0 then .tok .itemRightDelim rightDelim :: lexFrom lib fuel .text (afterRightDelim trim s)
      else [.error .unclosedLeftParen]
    | (false, _) =>
      match s with
      | [] => [.error .unclosedAction]
      | c :: t =>
        let r := (decodeRune s).1
        if isSpace c then
          let n := (s.takeWhile isSpace).length
          if [0x2D, 0x7D, 0x7D].isPrefixOf (s.drop n) then
            if n = 1 then .tok .itemRightDelim rightDelim :: lexFrom lib fuel .text (afterRightDelim true s)
            else .tok .itemSpace (s.take (n - 1)) :: lexFrom lib fuel (.action d) (s.drop (n - 1))
          else .tok .itemSpace (s.take n) :: lexFrom lib fuel (.action d) (s.drop n)
        else if c = 0x3D then .tok .itemAssign [c] :: lexFrom lib fuel (.action d) t
        else if c = 0x3A then
          if t.head? = some 0x3D then .tok .itemDeclare [0x3A, 0x3D] :: lexFrom lib fuel (.action d) (t.drop 1)
          else [.error .expectedDeclare]
        else if c = 0x7C then .tok .itemPipe [c] :: lexFrom lib fuel (.action d) t
        else if c = 0x22 then
          match scanQuoted 0x22 t with
          | none => [.error .unterminatedQuotedString]
          | some (q, rest) => .tok .itemString (c :: q) :: lexFrom lib fuel (.action d) rest
        else if c = 0x60 then
          match scanRawQuoted t with
          | none => [.error .unterminatedRawQuotedString]
          | some (q, rest) => .tok .itemRawString (c :: q) :: lexFrom lib fuel (.action d) rest
        else if c = 0x24 then emit (lexFrom lib fuel (.action d)) (lexFieldOrVariable lib .itemVariable c t)
        else if c = 0x27 then
          match scanQuoted 0x27 t with
          | none => [.error .unterminatedCharacterConstant]
          | some (q, rest) => .tok .itemCharConstant (c :: q) :: lexFrom lib fuel (.action d) rest
        else if c = 0x2E ∧ ∃ d0 ∈ t.head?, d0 < 0x30 ∨ 0x39 < d0 then
          emit (lexFrom lib fuel (.action d)) (lexFieldOrVariable lib .itemField c t)
        else if c = 0x2E ∨ c = 0x2B ∨ c = 0x2D ∨ (0x30 ≤ c ∧ c ≤ 0x39) then
          emit (lexFrom lib fuel (.action d)) (lexNumber lib s)
        else if isAlphaNumeric lib r then emit (lexFrom lib fuel (.action d)) (lexIdentifier lib s)
        else if c = 0x28 then .tok .itemLeftParen [c] :: lexFrom lib fuel (.action (d + 1)) t
        else if c = 0x29 then
          .tok .itemRightParen [c] ::
            if d - 1 < 0 then [.error .unexpectedRightParen] else lexFrom lib fuel (.action (d - 1)) t
        else if r ≤ 0x7F ∧ 0x20 ≤ r ∧ r ≤ 0x7E then .tok .itemChar [c] :: lexFrom lib fuel (.action d) t
        else [.error (.unrecognizedCharacter r)]

/-- `lex`: every state consumes a byte of the template or ends the run, so one
state per byte and one for the end suffice. -/
def lex (lib : Lib) (s : GoString) : List Item := lexFrom lib (s.length + 1) .text s

end Ofelia.Template
