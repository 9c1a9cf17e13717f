import Ofelia.Template.Fields

/-! Templates with `if` blocks on a field, the form of most presets of the
documentation: `{{if .Failed}}failed{{else}}completed{{end}}`, and chains
`{{if .Failed}}…{{else if .Skipped}}…{{else}}…{{end}}`, around text and field
references. `executeTemplate` runs such a template as its tree says: each
block renders the list of its first branch whose field is true, the else list
or nothing when none is, and the run stops at the first field the data does
not have among those it evaluates.

As for field templates, the proof follows the pipeline: the items the lexer
produces for the rendered tree, the nodes the parser builds from them, and the
walk over those nodes. -/

namespace Ofelia.Template

/-! ### Templates with `if` chains -/

mutual
/-- A sequence of pieces, each after a text: a field reference or an `if`
chain; then the text after the last. -/
inductive Tmpl where
  | tail (text : GoString)
  | field (text name : GoString) (rest : Tmpl)
  | block (text : GoString) (c : IfChain) (rest : Tmpl)

/-- An `if` block on a field with its list, closed by `{{end}}`, by an
`{{else}}` list and `{{end}}`, or continued by `{{else if` and the next
block of the chain, which takes the `{{end}}`. -/
inductive IfChain where
  | ifEnd (name : GoString) (list : Tmpl)
  | ifElse (name : GoString) (list elseList : Tmpl)
  | ifElseIf (name : GoString) (list : Tmpl) (next : IfChain)
end

/-- An action holding `words`. -/
def delimited (words : GoString) : GoString := leftDelim ++ words ++ rightDelim

mutual
/-- The template's text. -/
def Tmpl.source : Tmpl → GoString
  | .tail text => text
  | .field text name rest => text ++ leftDelim ++ 0x2E :: name ++ rightDelim ++ rest.source
  | .block text c rest => text ++ leftDelim ++ lit "if" ++ c.clause ++ rest.source

/-- The text of an `if` block after its keyword `if`. -/
def IfChain.clause : IfChain → GoString
  | .ifEnd name list => 0x20 :: 0x2E :: name ++ rightDelim ++ list.source ++ delimited (lit "end")
  | .ifElse name list elseList => 0x20 :: 0x2E :: name ++ rightDelim ++ list.source ++
      delimited (lit "else") ++ elseList.source ++ delimited (lit "end")
  | .ifElseIf name list next => 0x20 :: 0x2E :: name ++ rightDelim ++ list.source ++
      leftDelim ++ lit "else if" ++ next.clause
end

/-- A text that holds no `{{` and does not end with `{`, which would open the
action after it one byte early. -/
def plainText (text : GoString) : Bool := (indexOf leftDelim (text ++ [0x7B])).isNone

mutual
/-- Every text is plain and every field name is read whole by the lexer. -/
def Tmpl.wellFormed : Tmpl → Bool
  | .tail text => plainText text
  | .field text name rest => plainText text && validFieldName name && rest.wellFormed
  | .block text c rest => plainText text && c.wellFormed && rest.wellFormed

def IfChain.wellFormed : IfChain → Bool
  | .ifEnd name list => validFieldName name && list.wellFormed
  | .ifElse name list elseList => validFieldName name && list.wellFormed && elseList.wellFormed
  | .ifElseIf name list next => validFieldName name && list.wellFormed && next.wellFormed
end

/-- As `wellFormed`, but the text after the last piece of the whole template
need only hold no `{{`: nothing follows it, so it may end with `{`. -/
def Tmpl.wellFormedTop : Tmpl → Bool
  | .tail text => (indexOf leftDelim text).isNone
  | .field text name rest => plainText text && validFieldName name && rest.wellFormedTop
  | .block text c rest => plainText text && c.wellFormed && rest.wellFormedTop

/-- A template with `if` chains whose texts and names keep the shape the lexer
reads back. -/
structure CondTemplate where
  tmpl : Tmpl
  wellFormed : tmpl.wellFormedTop = true

/-! ### What a template renders -/

/-- The truth of the field a condition names, or the error for a field the
data does not have. -/
def fieldTruth (d : WebhookTemplateData) (name : GoString) : Except ExecError Bool :=
  (fieldValue d name).map Val.truth

mutual
/-- The output of a template: its texts, the printed value of each field it
references, and the rendering of each block, up to the first field the data
does not have. -/
def Tmpl.render (lib : Lib) (d : WebhookTemplateData) : Tmpl → Except ExecError GoString
  | .tail text => .ok text
  | .field text name rest =>
    (printField lib d name).bind fun out => (rest.render lib d).map fun r => text ++ out ++ r
  | .block text c rest =>
    (c.render lib d).bind fun out => (rest.render lib d).map fun r => text ++ out ++ r

/-- The list of the first branch whose field is true, the else list, or nothing. -/
def IfChain.render (lib : Lib) (d : WebhookTemplateData) : IfChain → Except ExecError GoString
  | .ifEnd name list => (fieldTruth d name).bind fun b => if b then list.render lib d else .ok []
  | .ifElse name list elseList =>
    (fieldTruth d name).bind fun b => if b then list.render lib d else elseList.render lib d
  | .ifElseIf name list next =>
    (fieldTruth d name).bind fun b => if b then list.render lib d else next.render lib d
end

/-! ### Lexing -/

/-- A text item for a nonempty text. -/
def textItems (text : GoString) : List Item := if text = [] then [] else [.tok .itemText text]

/-- The items of the condition of a block after `if`: a space, the field, `}}`. -/
def condItems (name : GoString) : List Item :=
  [.tok .itemSpace [0x20], .tok .itemField (0x2E :: name), .tok .itemRightDelim rightDelim]

/-- The items of the action holding the keyword `word` of type `typ`. -/
def keywordItems (typ : ItemType) (word : GoString) : List Item :=
  [.tok .itemLeftDelim leftDelim, .tok typ word, .tok .itemRightDelim rightDelim]

mutual
/-- The items the lexer produces for a template, without the final `eof`. -/
def Tmpl.items : Tmpl → List Item
  | .tail text => textItems text
  | .field text name rest => textItems text ++
      [.tok .itemLeftDelim leftDelim, .tok .itemField (0x2E :: name), .tok .itemRightDelim rightDelim] ++
      rest.items
  | .block text c rest => textItems text ++ .tok .itemLeftDelim leftDelim :: .tok .itemIf (lit "if") ::
      c.items ++ rest.items

/-- The items of an `if` block after the keyword `if`. -/
def IfChain.items : IfChain → List Item
  | .ifEnd name list => condItems name ++ list.items ++ keywordItems .itemEnd (lit "end")
  | .ifElse name list elseList => condItems name ++ list.items ++ keywordItems .itemElse (lit "else") ++
      elseList.items ++ keywordItems .itemEnd (lit "end")
  | .ifElseIf name list next => condItems name ++ list.items ++
      [.tok .itemLeftDelim leftDelim, .tok .itemElse (lit "else"), .tok .itemSpace [0x20], .tok .itemIf (lit "if")] ++
      next.items
end

mutual
/-- The lexer's states over a template, the state of its last text apart. -/
def Tmpl.steps : Tmpl → Nat
  | .tail _ => 0
  | .field _ _ rest => rest.steps + 3
  | .block _ c rest => c.steps + rest.steps + 2

/-- The lexer's states over an `if` block after its keyword. -/
def IfChain.steps : IfChain → Nat
  | .ifEnd _ list => list.steps + 6
  | .ifElse _ list elseList => list.steps + elseList.steps + 9
  | .ifElseIf _ list next => list.steps + next.steps + 7
end

/-- What may follow the last text of a list: the end of the input, or an
action starting with `e`, `{{end}}` or `{{else`. -/
def closesList : GoString → Bool
  | [] => true
  | z => (leftDelim ++ [0x65]).isPrefixOf z

theorem indexOf_leftDelim_of_plainText : ∀ {text : GoString}, plainText text = true →
    indexOf leftDelim text = none
  | [], _ => rfl
  | c :: text, h => by
    rw [plainText, Option.isNone_iff_eq_none, List.cons_append, indexOf] at h
    split_ifs at h with hp
    rw [indexOf, if_neg fun hp' => hp (List.isPrefixOf_iff_prefix.2 ((List.isPrefixOf_iff_prefix.1 hp').trans
      (List.prefix_append _ _))), indexOf_leftDelim_of_plainText (by rwa [plainText, Option.isNone_iff_eq_none,
      ← Option.map_eq_none'])]
    rfl

theorem Tmpl.wellFormedTop_of_wellFormed : ∀ {t : Tmpl}, t.wellFormed = true → t.wellFormedTop = true
  | .tail _, h => Option.isNone_iff_eq_none.2 (indexOf_leftDelim_of_plainText h)
  | .field .., h | .block .., h => by
    simp only [Tmpl.wellFormed, Tmpl.wellFormedTop, Bool.and_eq_true] at h ⊢
    exact ⟨h.1, Tmpl.wellFormedTop_of_wellFormed h.2⟩

/-- `lexText` at an action that opens with neither a trim marker nor a
comment: the text, if any, and `{{`. -/
theorem lexFrom_text_open (lib : Lib) (f : Nat) {text : GoString} (ht : plainText text = true) {y : GoString}
    (hk : hasLeftTrimMarker y = false) (hc : leftComment.isPrefixOf y = false) :
    lexFrom lib (f + 1) .text (text ++ (leftDelim ++ y)) =
      textItems text ++ .tok .itemLeftDelim leftDelim :: lexFrom lib f (.action 0) y := by
  have hd : (text ++ 0x7B :: 0x7B :: y).drop (text.length + 2) = y := by
    rw [List.drop_append]
    rfl
  rw [plainText, Option.isNone_iff_eq_none] at ht
  rw [lexFrom, show leftDelim ++ y = 0x7B :: 0x7B :: y from rfl, indexOf_leftDelim_append ht]
  simp only [hd, hk, hc, List.take_left', Bool.false_eq_true, if_false, textItems]

/-- `lexText` at `{{` with no text before it. -/
theorem lexFrom_open (lib : Lib) (f : Nat) {y : GoString} (hk : hasLeftTrimMarker y = false)
    (hc : leftComment.isPrefixOf y = false) :
    lexFrom lib (f + 1) .text (leftDelim ++ y) = .tok .itemLeftDelim leftDelim :: lexFrom lib f (.action 0) y :=
  lexFrom_text_open lib f (show plainText [] = true from rfl) hk hc

/-- The last text of a list, before the end of the input or an action starting with `e`. -/
theorem lexFrom_plainText (lib : Lib) (f : Nat) {text : GoString} (ht : plainText text = true) :
    ∀ {z : GoString}, closesList z = true →
      lexFrom lib (f + 1) .text (text ++ z) = textItems text ++ lexFrom lib (f + 1) .text z
  | [], _ => by
    rw [List.append_nil, lexFrom, lexFrom, indexOf_leftDelim_of_plainText ht]
    by_cases h : text = [] <;> simp [h, textItems, indexOf, leftDelim]
  | c :: z, hz => by
    obtain ⟨z', hz'⟩ := List.isPrefixOf_iff_prefix.1 hz
    rw [← hz', show leftDelim ++ [0x65] ++ z' = leftDelim ++ 0x65 :: z' from rfl,
      lexFrom_text_open lib f ht (y := 0x65 :: z') rfl rfl, lexFrom_open lib f (y := 0x65 :: z') rfl rfl]

/-- The runes of a name before an ASCII byte that is not alphanumeric are its
bytes, and that byte ends them. -/
theorem spanRunes_stop (lib : Lib) {name : GoString} (hn : name.all isNameByte = true) {b : UInt8}
    (hb : b < 0x80) (hb' : isAlphaNumeric lib b.toNat = false) (z : GoString) :
    spanRunes (isAlphaNumeric lib) (name ++ b :: z) = (name, b :: z) := by
  have hn' : ∀ c ∈ name, isNameByte c = true := List.all_eq_true.1 hn
  have hr : runes (name ++ b :: z) = name.map (fun c => (c.toNat, [c])) ++ (b.toNat, [b]) :: runes z := by
    rw [runes_append_ascii _ _ fun c h => isNameByte_lt (hn' c h), runes_cons_ascii _ hb]
  have hp : ∀ x ∈ name.map (fun c => (c.toNat, [c])), isAlphaNumeric lib x.1 = true := by
    simp only [List.mem_map]
    rintro _ ⟨c, hc, rfl⟩
    exact isAlphaNumeric_of_isNameByte lib (hn' c hc)
  simp only [spanRunes, hr, List.takeWhile_append_of_pos hp, List.dropWhile_append_of_pos hp,
    List.takeWhile_cons, List.dropWhile_cons, hb']
  simp [List.flatMap_map, Function.comp_def, flatMap_runes]

theorem atRightDelim_of_not_space {c : UInt8} (hs : isSpace c = false) (hc : c ≠ 0x7D) (s : GoString) :
    atRightDelim (c :: s) = (false, false) := by
  rcases s with _ | ⟨b, s⟩
  · simp [atRightDelim, hasRightTrimMarker, rightDelim, List.isPrefixOf]
  · by_cases hb : b = 0x2D
    · subst hb
      simp [atRightDelim, hasRightTrimMarker, hs, rightDelim, List.isPrefixOf, hc]
    · simp [atRightDelim, hasRightTrimMarker, hb, rightDelim, List.isPrefixOf, Ne.symm hc]

/-- `lexInsideAction` at the `e` of `else` or `end` or the `i` of `if`: an identifier. -/
theorem lexFrom_letter (lib : Lib) (f : Nat) {c : UInt8} (hc : c = 0x65 ∨ c = 0x69) (t : GoString) :
    lexFrom lib (f + 1) (.action 0) (c :: t) = emit (lexFrom lib f (.action 0)) (lexIdentifier lib (c :: t)) := by
  have ha := atRightDelim_of_not_space (c := c) (by rcases hc with rfl | rfl <;> rfl)
    (by rcases hc with rfl | rfl <;> decide) t
  rw [lexFrom, ha]
  rcases hc with rfl | rfl <;> simp [isSpace, decodeRune_ascii, isAlphaNumeric, UInt8.size]

/-- A keyword before a space or `}}`. -/
theorem lexFrom_keyword (lib : Lib) (f : Nat) {word : GoString} {typ : ItemType}
    (hw : word = lit "if" ∨ word = lit "else" ∨ word = lit "end") (hk : keyword word = some typ)
    {y : GoString} (hy : ∃ z, y = 0x20 :: z ∨ y = rightDelim ++ z) :
    lexFrom lib (f + 1) (.action 0) (word ++ y) = .tok typ word :: lexFrom lib f (.action 0) y := by
  have hn : word.all isNameByte = true := by rcases hw with rfl | rfl | rfl <;> rfl
  have hl : lexIdentifier lib (word ++ y) = .ok (.tok typ word, y) := by
    obtain ⟨z, rfl | rfl⟩ := hy
    · rw [lexIdentifier, spanRunes_stop lib hn (b := 0x20) (by decide) (show isAlphaNumeric lib 32 = false by simp [isAlphaNumeric])]
      simp [atTerminator, isSpace, hk]
    · rw [show rightDelim ++ z = 0x7D :: 0x7D :: z from rfl, lexIdentifier,
        spanRunes_stop lib hn (b := 0x7D) (by decide) (show isAlphaNumeric lib 125 = false by simp [isAlphaNumeric])]
      simp [atTerminator, isSpace, rightDelim, List.isPrefixOf, hk]
  obtain ⟨c, t, hct, hc⟩ : ∃ c t, word ++ y = c :: t ∧ (c = 0x65 ∨ c = 0x69) := by
    rcases hw with rfl | rfl | rfl <;> exact ⟨_, _, rfl, by decide⟩
  rw [hct, lexFrom_letter lib f hc, ← hct, hl]
  rfl

/-- `lexSpace` for one space before a byte that neither is a space nor opens a
trim marker. -/
theorem lexFrom_space (lib : Lib) (f : Nat) {y : GoString}
    (hy : ∃ c z, y = c :: z ∧ isSpace c = false ∧ c ≠ 0x2D) :
    lexFrom lib (f + 1) (.action 0) (0x20 :: y) = .tok .itemSpace [0x20] :: lexFrom lib f (.action 0) y := by
  obtain ⟨c, z, rfl, hs, hc⟩ := hy
  have ha : atRightDelim (0x20 :: c :: z) = (false, false) := by
    simp [atRightDelim, hasRightTrimMarker, hc, Ne.symm hc, rightDelim, List.isPrefixOf]
  rw [lexFrom, ha]
  simp [show isSpace 0x20 = true from rfl, hs, Ne.symm hc, List.isPrefixOf]

/-- An action holding `else` or `end`, then what follows it. -/
theorem lexFrom_delimited (lib : Lib) (g : Nat) {word : GoString} {typ : ItemType}
    (hw : word = lit "else" ∨ word = lit "end") (hk : keyword word = some typ) (y : GoString) :
    lexFrom lib (g + 3) .text (delimited word ++ y) = keywordItems typ word ++ lexFrom lib g .text y := by
  have h0 : hasLeftTrimMarker (word ++ (rightDelim ++ y)) = false ∧
      leftComment.isPrefixOf (word ++ (rightDelim ++ y)) = false := by
    rcases hw with rfl | rfl <;> exact ⟨rfl, rfl⟩
  rw [delimited, List.append_assoc, List.append_assoc, lexFrom_open lib _ h0.1 h0.2,
    lexFrom_keyword lib _ (hw.elim (.inr ∘ .inl) (.inr ∘ .inr)) hk ⟨y, .inr rfl⟩, lexFrom_rightDelim]
  rfl

/-! ### The lexer over a template -/

/-- The lexer reads a template before any continuation `z` that `Z` allows to
its items, in a state for each item it counts and one for its last text. A
list inside a block is read before `{{end}}` or `{{else`, the whole template
before the end of the input. -/
def Tmpl.Lexes (lib : Lib) (Z : GoString → Prop) (t : Tmpl) : Prop :=
  ∀ f z, Z z → lexFrom lib (f + 1 + t.steps) .text (t.source ++ z) = t.items ++ lexFrom lib (f + 1) .text z

/-- The continuations of a list inside a block. -/
def Closes (z : GoString) : Prop := closesList z = true

/-- The lexer reads an `if` block after its keyword to its items. -/
def IfChain.Lexes (lib : Lib) (c : IfChain) : Prop :=
  ∀ g y, lexFrom lib (g + c.steps) (.action 0) (c.clause ++ y) = c.items ++ lexFrom lib g .text y

theorem IfChain.clause_space (c : IfChain) : ∃ w, c.clause = 0x20 :: w := by
  cases c <;> exact ⟨_, rfl⟩

theorem lexes_tail (lib : Lib) {text : GoString} (ht : plainText text = true) :
    (Tmpl.tail text).Lexes lib Closes :=
  fun f _ hz => lexFrom_plainText lib f ht hz

/-- The text after the last piece of the whole template. -/
theorem lexes_tail_end (lib : Lib) {text : GoString} (ht : indexOf leftDelim text = none) :
    (Tmpl.tail text).Lexes lib (· = []) := by
  rintro f _ rfl
  rw [List.append_nil, Tmpl.steps, Nat.add_zero, Tmpl.source, lexFrom_tail lib f ht,
    show lexFrom lib (f + 1) .text [] = [.eof] from rfl]
  by_cases h : text = [] <;> simp [h, Tmpl.items, textItems]

theorem lexes_field (lib : Lib) {Z : GoString → Prop} {text name : GoString} {rest : Tmpl}
    (ht : plainText text = true) (hn : validFieldName name = true) (ih : rest.Lexes lib Z) :
    (Tmpl.field text name rest).Lexes lib Z := by
  intro f z hz
  simp only [Tmpl.source, Tmpl.items, Tmpl.steps, List.append_assoc, List.cons_append, List.nil_append]
  rw [show f + 1 + (rest.steps + 3) = f + 1 + rest.steps + 1 + 1 + 1 by omega,
    lexFrom_text_open lib _ ht (y := 0x2E :: _) rfl rfl,
    lexFrom_field lib _ hn, lexFrom_rightDelim, ih f z hz]

theorem lexes_block (lib : Lib) {Z : GoString → Prop} {text : GoString} {c : IfChain} {rest : Tmpl}
    (ht : plainText text = true) (hc : c.Lexes lib) (ih : rest.Lexes lib Z) :
    (Tmpl.block text c rest).Lexes lib Z := by
  intro f z hz
  obtain ⟨w, hw⟩ := c.clause_space
  simp only [Tmpl.source, Tmpl.items, Tmpl.steps, List.append_assoc, List.cons_append]
  rw [show f + 1 + (c.steps + rest.steps + 2) = f + 1 + rest.steps + c.steps + 1 + 1 by omega,
    lexFrom_text_open lib _ ht (y := lit "if" ++ _) rfl rfl,
    lexFrom_keyword lib _ (.inl rfl) rfl ⟨w ++ (rest.source ++ z), .inl (by rw [hw]; rfl)⟩, hc, ih f z hz]

/-- The condition of a block and its list, up to the `{{` after the list. -/
theorem lexFrom_cond (lib : Lib) {name : GoString} {list : Tmpl} (hn : validFieldName name = true)
    (ih : list.Lexes lib Closes) (g : Nat) {w : GoString} (hw : closesList w = true) :
    lexFrom lib (g + 1 + list.steps + 3) (.action 0) (0x20 :: 0x2E :: (name ++ (rightDelim ++ (list.source ++ w)))) =
      condItems name ++ (list.items ++ lexFrom lib (g + 1) .text w) := by
  rw [lexFrom_space lib _ (y := 0x2E :: _) ⟨0x2E, _, rfl, rfl, by decide⟩, lexFrom_field lib _ hn, lexFrom_rightDelim, ih g w hw]
  rfl

theorem lexes_ifEnd (lib : Lib) {name : GoString} {list : Tmpl} (hn : validFieldName name = true)
    (ih : list.Lexes lib Closes) : (IfChain.ifEnd name list).Lexes lib := by
  intro g y
  simp only [IfChain.clause, IfChain.items, IfChain.steps, List.append_assoc, List.cons_append]
  rw [show g + (list.steps + 6) = g + 2 + 1 + list.steps + 3 by omega,
    lexFrom_cond lib hn ih _ (w := delimited (lit "end") ++ y) rfl,
    show g + 2 + 1 = g + 3 from rfl, lexFrom_delimited lib g (.inr rfl) rfl]

theorem lexes_ifElse (lib : Lib) {name : GoString} {list elseList : Tmpl} (hn : validFieldName name = true)
    (ih : list.Lexes lib Closes) (ihElse : elseList.Lexes lib Closes) :
    (IfChain.ifElse name list elseList).Lexes lib := by
  intro g y
  simp only [IfChain.clause, IfChain.items, IfChain.steps, List.append_assoc, List.cons_append]
  rw [show g + (list.steps + elseList.steps + 9) = g + 2 + 1 + elseList.steps + 2 + 1 + list.steps + 3 by omega,
    lexFrom_cond lib hn ih _ (w := delimited (lit "else") ++ _) rfl,
    show g + 2 + 1 + elseList.steps + 2 + 1 = g + 2 + 1 + elseList.steps + 3 from rfl,
    lexFrom_delimited lib _ (.inl rfl) rfl, ihElse (g + 2) (delimited (lit "end") ++ y) rfl, show g + 2 + 1 = g + 3 from rfl,
    lexFrom_delimited lib g (.inr rfl) rfl]

theorem lexes_ifElseIf (lib : Lib) {name : GoString} {list : Tmpl} {next : IfChain}
    (hn : validFieldName name = true) (ih : list.Lexes lib Closes) (ihNext : next.Lexes lib) :
    (IfChain.ifElseIf name list next).Lexes lib := by
  intro g y
  obtain ⟨w, hw⟩ := next.clause_space
  simp only [IfChain.clause, IfChain.items, IfChain.steps, List.append_assoc, List.cons_append,
    List.nil_append]
  rw [show g + (list.steps + next.steps + 7) = g + next.steps + 3 + 1 + list.steps + 3 by omega,
    show lit "else if" ++ (next.clause ++ y) = lit "else" ++ 0x20 :: (lit "if" ++ (next.clause ++ y)) from rfl,
    lexFrom_cond lib hn ih _ (w := leftDelim ++ (lit "else" ++ _)) rfl, lexFrom_open lib _ (y := lit "else" ++ _) rfl rfl,
    lexFrom_keyword lib _ (.inr (.inl rfl)) rfl ⟨_, .inl rfl⟩,
    lexFrom_space lib _ (y := lit "if" ++ _) ⟨0x69, _, rfl, rfl, by decide⟩,
    lexFrom_keyword lib _ (.inl rfl) rfl ⟨w ++ y, .inl (by rw [hw]; rfl)⟩, ihNext g y]

mutual
theorem Tmpl.lexes (lib : Lib) : ∀ t : Tmpl, t.wellFormed = true → t.Lexes lib Closes
  | .tail _, h => lexes_tail lib h
  | .field _ _ rest, h => by
    simp only [Tmpl.wellFormed, Bool.and_eq_true] at h
    exact lexes_field lib h.1.1 h.1.2 (Tmpl.lexes lib rest h.2)
  | .block _ c rest, h => by
    simp only [Tmpl.wellFormed, Bool.and_eq_true] at h
    exact lexes_block lib h.1.1 (IfChain.lexes lib c h.1.2) (Tmpl.lexes lib rest h.2)

theorem IfChain.lexes (lib : Lib) : ∀ c : IfChain, c.wellFormed = true → c.Lexes lib
  | .ifEnd _ list, h => by
    simp only [IfChain.wellFormed, Bool.and_eq_true] at h
    exact lexes_ifEnd lib h.1 (Tmpl.lexes lib list h.2)
  | .ifElse _ list elseList, h => by
    simp only [IfChain.wellFormed, Bool.and_eq_true] at h
    exact lexes_ifElse lib h.1.1 (Tmpl.lexes lib list h.1.2) (Tmpl.lexes lib elseList h.2)
  | .ifElseIf _ list next, h => by
    simp only [IfChain.wellFormed, Bool.and_eq_true] at h
    exact lexes_ifElseIf lib h.1.1 (Tmpl.lexes lib list h.1.2) (IfChain.lexes lib next h.2)
end

/-- The lexer reads a whole template to its items, up to the end of the input. -/
theorem Tmpl.lexesEnd (lib : Lib) : ∀ t : Tmpl, t.wellFormedTop = true → t.Lexes lib (· = [])
  | .tail _, h => lexes_tail_end lib (Option.isNone_iff_eq_none.1 h)
  | .field _ _ rest, h => by
    simp only [Tmpl.wellFormedTop, Bool.and_eq_true] at h
    exact lexes_field lib h.1.1 h.1.2 (Tmpl.lexesEnd lib rest h.2)
  | .block _ c rest, h => by
    simp only [Tmpl.wellFormedTop, Bool.and_eq_true] at h
    exact lexes_block lib h.1.1 (IfChain.lexes lib c h.1.2) (Tmpl.lexesEnd lib rest h.2)

mutual
theorem Tmpl.steps_le_length : ∀ t : Tmpl, t.steps ≤ t.source.length
  | .tail _ => Nat.zero_le _
  | .field _ _ rest => by
    have := rest.steps_le_length
    simp only [Tmpl.steps, Tmpl.source, List.length_append, List.length_cons, leftDelim, rightDelim]
    omega
  | .block _ c rest => by
    have := rest.steps_le_length
    have := c.steps_le_length
    simp only [Tmpl.steps, Tmpl.source, List.length_append, show (lit "if").length = 2 from rfl]
    omega

theorem IfChain.steps_le_length : ∀ c : IfChain, c.steps ≤ c.clause.length
  | .ifEnd _ list => by
    have := list.steps_le_length
    simp only [IfChain.steps, IfChain.clause, List.length_append, List.length_cons, delimited, leftDelim,
      rightDelim, show (lit "end").length = 3 from rfl]
    omega
  | .ifElse _ list elseList => by
    have := list.steps_le_length
    have := elseList.steps_le_length
    simp only [IfChain.steps, IfChain.clause, List.length_append, List.length_cons, delimited, leftDelim,
      rightDelim, show (lit "end").length = 3 from rfl, show (lit "else").length = 4 from rfl]
    omega
  | .ifElseIf _ list next => by
    have := list.steps_le_length
    have := next.steps_le_length
    simp only [IfChain.steps, IfChain.clause, List.length_append, List.length_cons, leftDelim, rightDelim,
      show (lit "else if").length = 7 from rfl]
    omega
end

/-- The lexer reads a template to its items and the end. -/
theorem lex_tmpl (lib : Lib) {t : Tmpl} (h : t.wellFormedTop = true) : lex lib t.source = t.items ++ [.eof] := by
  have hl := Tmpl.lexesEnd lib t h (t.source.length - t.steps) [] rfl
  rw [List.append_nil, show t.source.length - t.steps + 1 + t.steps = t.source.length + 1 by
    have := t.steps_le_length; omega] at hl
  rw [lex, hl]
  rfl

/-! ### Parsing -/

/-- A text node for a nonempty text. -/
def textNodes (text : GoString) : List Node := if text = [] then [] else [.text text]

mutual
/-- The nodes the parser builds for a template. -/
def Tmpl.nodes : Tmpl → List Node
  | .tail text => textNodes text
  | .field text name rest => textNodes text ++ .action (fieldPipe name) :: rest.nodes
  | .block text c rest => textNodes text ++ c.node :: rest.nodes

/-- The `IfNode` of a block; an `else if` is an else list holding the next block's node. -/
def IfChain.node : IfChain → Node
  | .ifEnd name list => .ifNode (fieldPipe name) list.nodes []
  | .ifElse name list elseList => .ifNode (fieldPipe name) list.nodes elseList.nodes
  | .ifElseIf name list next => .ifNode (fieldPipe name) list.nodes [next.node]
end

/-- Items that both of the parser's loops, `itemList` and the loop of
`parse`, read to `nodes` in any state, whatever follows them, within the fuel
`parse` gives for the items. -/
def ReadsNodes (items : List Item) (nodes : List Node) : Prop :=
  nodes.length ≤ items.length ∧ ∀ fuel depth st root ts, 5 * (items ++ ts).length + 3 ≤ fuel →
    itemList fuel depth st (items ++ ts) =
        (itemList (fuel - nodes.length) depth st ts).map (fun r => (nodes ++ r.1, r.2)) ∧
      parseTop fuel st root (items ++ ts) = parseTop (fuel - nodes.length) st (root ++ nodes) ts

theorem readsNodes_nil : ReadsNodes [] [] :=
  ⟨le_rfl, fun fuel depth st root ts _ => by
    simp only [List.nil_append, List.length_nil, Nat.sub_zero, List.append_nil, and_true]
    cases itemList fuel depth st ts <;> simp [Except.map]⟩

theorem readsNodes_append {a b : List Item} {n m : List Node} (ha : ReadsNodes a n) (hb : ReadsNodes b m) :
    ReadsNodes (a ++ b) (n ++ m) := by
  have := ha.1
  have := hb.1
  refine ⟨by simp only [List.length_append]; omega, fun fuel depth st root ts hf => ?_⟩
  simp only [List.length_append] at hf
  obtain ⟨hi, hp⟩ := ha.2 fuel depth st root (b ++ ts) (by simp only [List.length_append]; omega)
  obtain ⟨hi', hp'⟩ := hb.2 (fuel - n.length) depth st (root ++ n) ts (by simp only [List.length_append]; omega)
  rw [List.append_assoc, hi, hp, hi', hp', List.length_append, Nat.sub_sub, List.append_assoc]
  refine ⟨?_, rfl⟩
  cases itemList (fuel - (n.length + m.length)) depth st ts <;> simp [Except.map]

/-- One item run that `textOrAction` reads to one node, keeping the state, and
that neither loop takes for the end or a `define`. -/
theorem readsNodes_single {u : List Item} {n : Node}
    (hd : ∀ ts, (nextNonSpace (u ++ ts)).1 ≠ .eof ∧ atEOF (u ++ ts) = false ∧ defineAt (u ++ ts) = none)
    (ht : ∀ f depth st ts, 5 * (u ++ ts).length + 2 ≤ f → textOrAction f depth st (u ++ ts) = .ok (.node n, st, ts)) :
    ReadsNodes u [n] := by
  have hu : u ≠ [] := by
    rintro rfl
    simpa [atEOF] using (hd []).2.1
  refine ⟨by simpa [Nat.one_le_iff_ne_zero] using hu, fun fuel depth st root ts hf => ?_⟩
  obtain ⟨f, rfl⟩ : ∃ f, fuel = f + 1 := ⟨fuel - 1, by omega⟩
  obtain ⟨h1, h2, h3⟩ := hd ts
  rw [itemList, if_neg h1, ht f depth st ts (by omega), parseTop, if_neg (by simp [h2]), h3]
  refine ⟨?_, by simp only [ht f 0 st ts (by omega)]; rfl⟩
  cases itemList f depth st ts with
  | error e => rfl
  | ok r => rfl

theorem readsNodes_text (text : GoString) : ReadsNodes (textItems text) (textNodes text) := by
  by_cases h : text = []
  · simp only [textItems, textNodes, if_pos h]
    exact readsNodes_nil
  · simp only [textItems, textNodes, if_neg h]
    refine readsNodes_single (fun ts => by simp [nextNonSpace, dropSpaces, atEOF, defineAt]) fun f depth st ts hf => ?_
    obtain ⟨f, rfl⟩ : ∃ g, f = g + 1 := ⟨f - 1, by simp at hf; omega⟩
    simp [textOrAction, nextNonSpace, dropSpaces]

theorem readsNodes_field (name : GoString) :
    ReadsNodes [.tok .itemLeftDelim leftDelim, .tok .itemField (0x2E :: name), .tok .itemRightDelim rightDelim]
      [.action (fieldPipe name)] := by
  refine readsNodes_single (fun ts => by simp [nextNonSpace, dropSpaces, atEOF, defineAt]) fun f depth st ts hf => ?_
  obtain ⟨f, rfl⟩ : ∃ g, f = g + 7 := ⟨f - 7, by simp at hf; omega⟩
  exact textOrAction_field f depth st name ts

/-- `parseControl` reads an `if` block after its keyword to its node, in any
state, within the fuel `parse` gives for the items. -/
def IfChain.Parses (c : IfChain) : Prop :=
  ∀ fuel depth st ts, 5 * (c.items ++ ts).length + 6 ≤ fuel →
    parseControl (lit "if") fuel depth st (c.items ++ ts) = .ok (.node c.node, st, ts)

theorem readsNodes_block {c : IfChain} (hc : c.Parses) :
    ReadsNodes (.tok .itemLeftDelim leftDelim :: .tok .itemIf (lit "if") :: c.items) [c.node] := by
  refine readsNodes_single (fun ts => by simp [nextNonSpace, dropSpaces, atEOF, defineAt]) fun f depth st ts hf => ?_
  obtain ⟨f, rfl⟩ : ∃ g, f = g + 2 := ⟨f - 2, by simp at hf; omega⟩
  simp only [List.cons_append, List.length_cons] at hf
  simp [textOrAction, action, nextNonSpace, dropSpaces, hc f depth st ts (by omega)]

/-- The condition of a block: the field it tests. -/
theorem pipeline_cond (fuel : Nat) (st : PState) (name : GoString) (ts : List Item) :
    pipeline (lit "if") .itemRightDelim (fuel + 5) st (condItems name ++ ts) = .ok (fieldPipe name, st, ts) := by
  simp [pipeline, declarations, condItems, pipelineLoop, nextNonSpace, dropSpaces, startsOperand, command, operand,
    term, isField, checkPipeline, Except.map, fieldPipe]

theorem itemList_end {g : Nat} (hg : 3 ≤ g) (depth : Nat) (st : PState) (ts : List Item) :
    itemList g depth st (keywordItems .itemEnd (lit "end") ++ ts) = .ok ([], false, st, ts) := by
  obtain ⟨g, rfl⟩ : ∃ k, g = k + 3 := ⟨g - 3, by omega⟩
  simp [itemList, keywordItems, nextNonSpace, dropSpaces, textOrAction, action, expect, Except.map]

theorem itemList_else {g : Nat} (hg : 3 ≤ g) (depth : Nat) (st : PState) (ts : List Item) :
    itemList g depth st (keywordItems .itemElse (lit "else") ++ ts) = .ok ([], true, st, ts) := by
  obtain ⟨g, rfl⟩ : ∃ k, g = k + 3 := ⟨g - 3, by omega⟩
  simp [itemList, keywordItems, nextNonSpace, dropSpaces, textOrAction, action, elseControl, expect, Except.map]

theorem itemList_elseIf {g : Nat} (hg : 3 ≤ g) (depth : Nat) (st : PState) (ts : List Item) :
    itemList g depth st ([.tok .itemLeftDelim leftDelim, .tok .itemElse (lit "else"), .tok .itemSpace [0x20],
      .tok .itemIf (lit "if")] ++ ts) = .ok ([], true, st, .tok .itemIf (lit "if") :: ts) := by
  obtain ⟨g, rfl⟩ : ∃ k, g = k + 3 := ⟨g - 3, by omega⟩
  simp [itemList, nextNonSpace, dropSpaces, textOrAction, action, elseControl, Except.map]

/-- Items that start with a text or `{{`: what follows an `{{else}}` that is
not an `else if`. -/
def opensNode : List Item → Bool
  | .tok .itemText _ :: _ | .tok .itemLeftDelim _ :: _ => true
  | _ => false

theorem parseControl_if_end {f depth : Nat} {st : PState} {ts L rest : List Item} {pipe : Pipe} {list : List Node}
    (hp : pipeline (lit "if") .itemRightDelim f st ts = .ok (pipe, st, L))
    (hl : itemList f depth st L = .ok (list, false, st, rest)) :
    parseControl (lit "if") (f + 1) depth st ts = .ok (.node (.ifNode pipe list []), st, rest) := by
  simp [parseControl, hp, hl, controlNode, show lit "if" ≠ lit "range" by decide]

theorem parseControl_if_else {f depth : Nat} {st : PState} {ts L R rest : List Item} {pipe : Pipe}
    {list elseList : List Node} (hp : pipeline (lit "if") .itemRightDelim f st ts = .ok (pipe, st, L))
    (hl : itemList f depth st L = .ok (list, true, st, R)) (hR : opensNode R = true)
    (he : itemList f depth st R = .ok (elseList, false, st, rest)) :
    parseControl (lit "if") (f + 1) depth st ts = .ok (.node (.ifNode pipe list elseList), st, rest) := by
  unfold opensNode at hR
  split at hR
  case h_3 => cases hR
  all_goals
    simp [parseControl, hp, hl, show lit "if" ≠ lit "range" by decide]
    simp [he, controlNode]

theorem parseControl_if_elseIf {f depth : Nat} {st : PState} {ts L R rest : List Item} {pipe : Pipe}
    {list : List Node} {v : GoString} {n : Node} (hp : pipeline (lit "if") .itemRightDelim f st ts = .ok (pipe, st, L))
    (hl : itemList f depth st L = .ok (list, true, st, .tok .itemIf v :: R))
    (hn : parseControl (lit "if") f depth st R = .ok (.node n, st, rest)) :
    parseControl (lit "if") (f + 1) depth st ts = .ok (.node (.ifNode pipe list [n]), st, rest) := by
  simp [parseControl, hp, hl, hn, controlNode, show lit "if" ≠ lit "range" by decide]

theorem opensNode_textItems_append (text : GoString) {X : List Item} (hX : opensNode X = true) :
    opensNode (textItems text ++ X) = true := by
  by_cases h : text = []
  · simpa [textItems, h] using hX
  · simp [textItems, h, opensNode]

/-- The items of a template, before `{{`, start with a text or `{{`: what
`parseControl` reads after `{{else}}` is an else list, not an `else if`. -/
theorem Tmpl.opensNode_items_append (t : Tmpl) {X : List Item} (hX : opensNode X = true) :
    opensNode (t.items ++ X) = true := by
  cases t with
  | tail text => exact opensNode_textItems_append text hX
  | field text name rest | block text c rest =>
    simp only [Tmpl.items, List.append_assoc, List.cons_append]
    exact opensNode_textItems_append text rfl

theorem parses_ifEnd {name : GoString} {list : Tmpl} (hl : ReadsNodes list.items list.nodes) :
    (IfChain.ifEnd name list).Parses := by
  intro fuel depth st ts hf
  have := hl.1
  simp only [IfChain.items, IfChain.node, List.append_assoc] at hf ⊢
  simp only [List.length_append, condItems, keywordItems, List.length_cons, List.length_nil] at hf
  obtain ⟨f, rfl⟩ : ∃ f, fuel = f + 6 := ⟨fuel - 6, by omega⟩
  have hi := (hl.2 (f + 5) depth st [] (keywordItems .itemEnd (lit "end") ++ ts)
    (by simp only [List.length_append, keywordItems, List.length_cons, List.length_nil]; omega)).1
  rw [itemList_end (by omega)] at hi
  exact parseControl_if_end (pipeline_cond f st name _) (by simpa [Except.map] using hi)

theorem parses_ifElse {name : GoString} {list elseList : Tmpl} (hl : ReadsNodes list.items list.nodes)
    (he : ReadsNodes elseList.items elseList.nodes) : (IfChain.ifElse name list elseList).Parses := by
  intro fuel depth st ts hf
  have := hl.1
  have := he.1
  simp only [IfChain.items, IfChain.node, List.append_assoc] at hf ⊢
  simp only [List.length_append, condItems, keywordItems, List.length_cons, List.length_nil] at hf
  obtain ⟨f, rfl⟩ : ∃ f, fuel = f + 6 := ⟨fuel - 6, by omega⟩
  have hi := (hl.2 (f + 5) depth st []
    (keywordItems .itemElse (lit "else") ++ (elseList.items ++ (keywordItems .itemEnd (lit "end") ++ ts)))
    (by simp only [List.length_append, keywordItems, List.length_cons, List.length_nil]; omega)).1
  rw [itemList_else (by omega)] at hi
  have hi' := (he.2 (f + 5) depth st [] (keywordItems .itemEnd (lit "end") ++ ts)
    (by simp only [List.length_append, keywordItems, List.length_cons, List.length_nil]; omega)).1
  rw [itemList_end (by omega)] at hi'
  exact parseControl_if_else (pipeline_cond f st name _) (by simpa [Except.map] using hi)
    (elseList.opensNode_items_append (X := keywordItems .itemEnd (lit "end") ++ ts) rfl)
    (by simpa [Except.map] using hi')

theorem parses_ifElseIf {name : GoString} {list : Tmpl} {next : IfChain} (hl : ReadsNodes list.items list.nodes)
    (hn : next.Parses) : (IfChain.ifElseIf name list next).Parses := by
  intro fuel depth st ts hf
  have := hl.1
  simp only [IfChain.items, IfChain.node, List.append_assoc] at hf ⊢
  simp only [List.length_append, condItems, List.length_cons, List.length_nil] at hf
  obtain ⟨f, rfl⟩ : ∃ f, fuel = f + 6 := ⟨fuel - 6, by omega⟩
  have hi := (hl.2 (f + 5) depth st [] ([.tok .itemLeftDelim leftDelim, .tok .itemElse (lit "else"),
    .tok .itemSpace [0x20], .tok .itemIf (lit "if")] ++ (next.items ++ ts))
    (by simp only [List.length_append, List.length_cons, List.length_nil]; omega)).1
  rw [itemList_elseIf (by omega)] at hi
  exact parseControl_if_elseIf (pipeline_cond f st name _) (by simpa [Except.map] using hi)
    (hn (f + 5) depth st ts (by simp only [List.length_append]; omega))

mutual
theorem Tmpl.readsNodes : ∀ t : Tmpl, ReadsNodes t.items t.nodes
  | .tail text => readsNodes_text text
  | .field text name rest => by
    rw [Tmpl.items, Tmpl.nodes, List.append_assoc]
    exact readsNodes_append (readsNodes_text text) (readsNodes_append (readsNodes_field name) rest.readsNodes)
  | .block text c rest => by
    rw [Tmpl.items, Tmpl.nodes, List.append_assoc]
    exact readsNodes_append (readsNodes_text text) (readsNodes_append (readsNodes_block c.parses) rest.readsNodes)

theorem IfChain.parses : ∀ c : IfChain, c.Parses
  | .ifEnd _ list => parses_ifEnd list.readsNodes
  | .ifElse _ list elseList => parses_ifElse list.readsNodes elseList.readsNodes
  | .ifElseIf _ list next => parses_ifElseIf list.readsNodes next.parses
end

/-- The parser builds a template's nodes from the text, as the tree of the
name it is given. -/
theorem parse_tmpl (lib : Lib) (name : GoString) {t : Tmpl} (h : t.wellFormedTop = true) :
    parse lib name t.source = .ok [(name, t.nodes)] := by
  have := t.readsNodes.1
  have hr := (t.readsNodes.2 (parseFuel (t.items ++ [Item.eof])) 0 ⟨[lit "$"], []⟩ [] [Item.eof]
    (by simp only [parseFuel, List.length_append, List.length_singleton]; omega)).2
  obtain ⟨k, hk⟩ : ∃ k, parseFuel (t.items ++ [Item.eof]) - t.nodes.length = k + 1 :=
    ⟨_, (Nat.succ_pred_eq_of_pos (by simp only [parseFuel, List.length_append]; omega)).symm⟩
  rw [hk, parseTop, if_pos (show atEOF [Item.eof] = true from rfl), List.nil_append] at hr
  rw [parse, lex_tmpl lib h]
  simp [hr, addTree]

/-! ### Running -/

/-- A node that writes `r` and leaves the flow and the variables as they were
is followed by the rest of the list. -/
theorem walkList_cons_normal {env : Env} {dot : Val} {n : Node} {vars : Vars} {r : Except ExecError GoString}
    (h : walk env dot n vars = r.map (·, .normal, vars)) (ns : List Node) :
    walkList env dot (n :: ns) vars = r.bind fun out => (walkList env dot ns vars).map fun x => (out ++ x.1, x.2) := by
  rw [walkList, h]
  cases r with
  | error e => rfl
  | ok out => simp only [Except.map, Except.bind, if_true]

theorem walkList_textNodes (env : Env) (dot : Val) (text : GoString) (ns : List Node) (vars : Vars) :
    walkList env dot (textNodes text ++ ns) vars = (walkList env dot ns vars).map fun x => (text ++ x.1, x.2) := by
  by_cases h : text = []
  · rw [textNodes, if_pos h, List.nil_append, h]
    cases walkList env dot ns vars <;> simp [Except.map]
  · rw [textNodes, if_neg h, List.singleton_append, walkList_cons_normal (n := .text text) (r := .ok text) rfl]
    rfl

/-- A list walked before nothing writes what it writes before anything. -/
theorem walkList_of_cont {env : Env} {dot : Val} {nodes : List Node} {vars : Vars} {r : Except ExecError GoString}
    (h : walkList env dot (nodes ++ []) vars =
      r.bind fun out => (walkList env dot [] vars).map fun x => (out ++ x.1, x.2)) :
    walkList env dot nodes vars = r.map (·, .normal, vars) := by
  rw [List.append_nil] at h
  rw [h]
  cases r <;> simp [walkList, Except.bind, Except.map]

/-- An `IfNode` testing a field walks the list or the else list as the field is
true: when both write their output and keep the variables, so does the node. -/
theorem walk_ifNode (env : Env) (name : GoString) {list elseList : List Node} {vars : Vars}
    {r s : Except ExecError GoString} (hr : walkList env .data list vars = r.map (·, .normal, vars))
    (hs : walkList env .data elseList vars = s.map (·, .normal, vars)) :
    walk env .data (.ifNode (fieldPipe name) list elseList) vars =
      ((fieldTruth env.data name).bind fun b => if b then r else s).map (·, .normal, vars) := by
  rw [walk, Env.scope, evalPipeline_fieldPipe, fieldTruth]
  cases fieldValue env.data name with
  | error e => rfl
  | ok v =>
    show Except.map _ (if v.truth = true then _ else _) = Except.map _ (if v.truth = true then _ else _)
    split
    · rw [hr]; cases r <;> simp [Except.map]
    · rw [hs]; cases s <;> simp [Except.map]

mutual
/-- The walk over a template's nodes renders it, before any list of nodes. -/
theorem Tmpl.walkList_nodes (env : Env) (ns : List Node) (vars : Vars) : ∀ t : Tmpl,
    walkList env .data (t.nodes ++ ns) vars =
      (t.render env.lib env.data).bind fun out => (walkList env .data ns vars).map fun x => (out ++ x.1, x.2)
  | .tail text => by
    rw [Tmpl.nodes, walkList_textNodes, Tmpl.render]
    rfl
  | .field text name rest => by
    rw [Tmpl.nodes, List.append_assoc, walkList_textNodes, List.cons_append,
      walkList_cons_normal (walk_field env name vars), Tmpl.walkList_nodes env ns vars rest, Tmpl.render]
    cases printField env.lib env.data name <;> cases rest.render env.lib env.data <;>
      cases walkList env .data ns vars <;> simp [Except.bind, Except.map]
  | .block text c rest => by
    rw [Tmpl.nodes, List.append_assoc, walkList_textNodes, List.cons_append,
      walkList_cons_normal (IfChain.walk_node env vars c), Tmpl.walkList_nodes env ns vars rest, Tmpl.render]
    cases c.render env.lib env.data <;> cases rest.render env.lib env.data <;>
      cases walkList env .data ns vars <;> simp [Except.bind, Except.map]

/-- The walk over a block's node renders it. -/
theorem IfChain.walk_node (env : Env) (vars : Vars) :
    ∀ c : IfChain, walk env .data c.node vars = (c.render env.lib env.data).map (·, .normal, vars)
  | .ifEnd name list => by
    rw [IfChain.node, walk_ifNode env name (walkList_of_cont (Tmpl.walkList_nodes env [] vars list))
      (show walkList env .data [] vars = (Except.ok ([] : GoString)).map (·, .normal, vars) from rfl), IfChain.render]
  | .ifElse name list elseList => by
    rw [IfChain.node, walk_ifNode env name (walkList_of_cont (Tmpl.walkList_nodes env [] vars list))
      (walkList_of_cont (Tmpl.walkList_nodes env [] vars elseList)), IfChain.render]
  | .ifElseIf name list next => by
    rw [IfChain.node, walk_ifNode env name (walkList_of_cont (Tmpl.walkList_nodes env [] vars list))
      (walkList_of_cont (walkList_cons_normal (IfChain.walk_node env vars next) [])), IfChain.render]
end

theorem Tmpl.walkList_nodes_nil (env : Env) (vars : Vars) (t : Tmpl) :
    walkList env .data t.nodes vars = (t.render env.lib env.data).map (·, .normal, vars) :=
  walkList_of_cont (t.walkList_nodes env [] vars)

/-- A tree runs as a walk from the variable `$`, with or without a call left. -/
theorem runTree_eq (lib : Lib) (d : WebhookTemplateData) (trees : TreeSet) :
    ∀ k dot root, ∃ call, runTree lib d trees k dot root =
      (walkList ⟨lib, d, trees, call⟩ dot root [(lit "$", dot)]).map (·.1)
  | 0, _, _ => ⟨none, rfl⟩
  | _ + 1, _, _ => ⟨_, rfl⟩

/-! ### The template as a whole -/

/-- The template's text. -/
def CondTemplate.source (t : CondTemplate) : GoString := t.tmpl.source

/-- The pipeline of a well-formed template: lexed, parsed and walked, its text
renders its tree. -/
theorem Tmpl.executeTemplate_source (lib : Lib) (d : WebhookTemplateData) {t : Tmpl} (h : t.wellFormedTop = true) :
    executeTemplate lib t.source d = (t.render lib d).mapError .exec := by
  obtain ⟨call, hc⟩ := runTree_eq lib d [(lit "webhook", t.nodes)] maxExecDepth .data t.nodes
  have he : execute lib [(lit "webhook", t.nodes)] (lit "webhook") d = t.render lib d := by
    simp only [execute, List.lookup_cons_self, hc, Tmpl.walkList_nodes_nil]
    cases t.render lib d <;> rfl
  rw [executeTemplate, parse_tmpl lib _ h]
  simp only [he]
  cases t.render lib d <;> rfl

/-- A text without `{{` is a template of text alone, which renders as itself. -/
theorem executeTemplate_text (lib : Lib) (s : GoString) (data : WebhookTemplateData) (h : indexOf leftDelim s = none) :
    executeTemplate lib s data = .ok s :=
  (Tmpl.tail s).executeTemplate_source lib data (Option.isNone_iff_eq_none.2 h)

/-- `executeTemplate` of a template with `if` chains renders its tree. -/
theorem executeTemplate_condTemplate (lib : Lib) (d : WebhookTemplateData) (t : CondTemplate) :
    executeTemplate lib t.source d = (t.tmpl.render lib d).mapError .exec :=
  t.tmpl.executeTemplate_source lib d t.wellFormed

/-- The documentation's first preset body:
`Job {{.JobName}} {{if .Failed}}failed{{else}}completed{{end}} in {{.Duration}}`. -/
def statusTemplate : CondTemplate where
  tmpl := .field (lit "Job ") (lit "JobName") (.block (lit " ")
    (.ifElse (lit "Failed") (.tail (lit "failed")) (.tail (lit "completed")))
    (.field (lit " in ") (lit "Duration") (.tail [])))
  wellFormed := by decide

example : statusTemplate.source =
    lit "Job \x7b\x7b.JobName\x7d\x7d \x7b\x7bif .Failed\x7d\x7dfailed\x7b\x7belse\x7d\x7dcompleted\x7b\x7bend\x7d\x7d in \x7b\x7b.Duration\x7d\x7d" := by
  decide

example : executeTemplate asciiLib statusTemplate.source (buildTemplateData asciiLib backupContext) =
    .ok (lit "Job backup completed in 0s") := by
  decide

/-- The documentation's chain on `.Failed` and `.Skipped`. -/
def statusChainTemplate : CondTemplate where
  tmpl := .block [] (.ifElseIf (lit "Failed")
      (.field (lit "\n  Status: Failed\n  Error: ") (lit "Error") (.tail (lit "\n")))
      (.ifElse (lit "Skipped") (.tail (lit "\n  Status: Skipped\n")) (.tail (lit "\n  Status: Success\n"))))
    (.tail [])
  wellFormed := by decide

example : statusChainTemplate.source = lit ("\x7b\x7bif .Failed\x7d\x7d\n  Status: Failed\n  Error: \x7b\x7b.Error\x7d\x7d\n" ++
    "\x7b\x7belse if .Skipped\x7d\x7d\n  Status: Skipped\n\x7b\x7belse\x7d\x7d\n  Status: Success\n\x7b\x7bend\x7d\x7d") := by
  decide

example : statusChainTemplate.tmpl.render asciiLib (buildTemplateData asciiLib { backupContext with skipped := true }) =
    .ok (lit "\n  Status: Skipped\n") := by
  decide

/-! ### Field templates -/

/-- The template of text and references: a field piece for each reference. -/
def fieldTmpl : List (GoString × GoString) → GoString → Tmpl
  | [], tail => .tail tail
  | (text, name) :: refs, tail => .field text name (fieldTmpl refs tail)

theorem source_fieldTmpl (tail : GoString) :
    ∀ refs : List (GoString × GoString), (fieldTmpl refs tail).source = fieldSource refs tail
  | [] => by simp [fieldTmpl, Tmpl.source, fieldSource]
  | (text, name) :: refs => by simp [fieldTmpl, Tmpl.source, fieldSource, source_fieldTmpl tail refs]

/-- Rendering the template of a field template is the substitution it stands for. -/
theorem render_fieldTmpl (lib : Lib) (d : WebhookTemplateData) (tail : GoString) :
    ∀ refs : List (GoString × GoString), (fieldTmpl refs tail).render lib d = substitute lib d refs tail
  | [] => rfl
  | (text, name) :: refs => by rw [fieldTmpl, Tmpl.render, substitute, render_fieldTmpl lib d tail refs]

theorem wellFormedTop_fieldTmpl {tail : GoString} (ht : indexOf leftDelim tail = none) :
    ∀ refs : List (GoString × GoString),
      (∀ p ∈ refs, indexOf leftDelim (p.1 ++ [0x7B]) = none ∧ validFieldName p.2 = true) →
      (fieldTmpl refs tail).wellFormedTop = true
  | [], _ => Option.isNone_iff_eq_none.2 ht
  | (text, name) :: refs, h => by
    have hp := h _ (List.mem_cons_self _ _)
    simp only [fieldTmpl, Tmpl.wellFormedTop, plainText, Bool.and_eq_true, Option.isNone_iff_eq_none]
    exact ⟨hp, wellFormedTop_fieldTmpl ht refs fun p hq => h p (List.mem_cons_of_mem _ hq)⟩

/-- A field template is a template with no `if` block. -/
def FieldTemplate.toCond (t : FieldTemplate) : CondTemplate :=
  ⟨fieldTmpl t.refs t.tail,
    wellFormedTop_fieldTmpl t.tail_text t.refs fun p hp => ⟨t.refs_text p hp, t.refs_name p hp⟩⟩

theorem FieldTemplate.source_toCond (t : FieldTemplate) : t.toCond.source = t.source :=
  source_fieldTmpl t.tail t.refs

/-- `executeTemplate` of a field template is the substitution it stands for. -/
theorem executeTemplate_fieldTemplate (lib : Lib) (d : WebhookTemplateData) (t : FieldTemplate) :
    executeTemplate lib t.source d = (substitute lib d t.refs t.tail).mapError .exec := by
  rw [← t.source_toCond, CondTemplate.source, Tmpl.executeTemplate_source lib d t.toCond.wellFormed]
  exact congrArg _ (render_fieldTmpl lib d t.tail t.refs)

example : executeTemplate asciiLib (lit "Job \x7b\x7b.JobName\x7d\x7d finished at \x7b\x7b.Hostname\x7d\x7d")
    (buildTemplateData asciiLib backupContext) = .ok (lit "Job backup finished at localhost") := by
  decide

/-! ### Templates that name only fields of the data -/

mutual
/-- The fields a template references or tests. -/
def Tmpl.names : Tmpl → List GoString
  | .tail _ => []
  | .field _ name rest => name :: rest.names
  | .block _ c rest => c.names ++ rest.names

def IfChain.names : IfChain → List GoString
  | .ifEnd name list => name :: list.names
  | .ifElse name list elseList => name :: (list.names ++ elseList.names)
  | .ifElseIf name list next => name :: (list.names ++ next.names)
end

theorem printField_error (lib : Lib) (d : WebhookTemplateData) {name : GoString} {e : ExecError}
    (h : printField lib d name = .error e) : d.field name = none ∧ e = .cantEvaluateField name .dataPtr := by
  rw [printField, fieldValue] at h
  cases hv : d.field name with
  | none => rw [hv] at h; cases h; exact ⟨rfl, rfl⟩
  | some v =>
    obtain ⟨s, hs⟩ := actionText_field lib d hv
    rw [hv] at h
    simp [Except.bind, hs] at h

theorem fieldTruth_error (d : WebhookTemplateData) {name : GoString} {e : ExecError}
    (h : fieldTruth d name = .error e) : d.field name = none ∧ e = .cantEvaluateField name .dataPtr := by
  rw [fieldTruth, fieldValue] at h
  cases hv : d.field name with
  | none => rw [hv] at h; cases h; exact ⟨rfl, rfl⟩
  | some v => rw [hv] at h; cases h

theorem bind_map_error {α β : Type} {x : Except ExecError α} {y : Except ExecError β} {g : α → β → GoString}
    {e : ExecError} (h : (x.bind fun a => y.map (g a)) = .error e) : x = .error e ∨ y = .error e := by
  cases x <;> cases y <;> cases h <;> simp

theorem bind_ite_error {x : Except ExecError Bool} {y z : Except ExecError GoString} {e : ExecError}
    (h : (x.bind fun b => if b then y else z) = .error e) : x = .error e ∨ y = .error e ∨ z = .error e := by
  rcases x with _ | _ | _ <;> simp_all [Except.bind]

/-- The error of a template the data fails: the first field it evaluates that
is not a field of the data. -/
def MissingField (d : WebhookTemplateData) (names : List GoString) (e : ExecError) : Prop :=
  ∃ n ∈ names, d.field n = none ∧ e = .cantEvaluateField n .dataPtr

theorem MissingField.mono {d : WebhookTemplateData} {names names' : List GoString} {e : ExecError}
    (h : MissingField d names e) (hs : names ⊆ names') : MissingField d names' e :=
  let ⟨n, hn, h⟩ := h
  ⟨n, hs hn, h⟩

theorem missingField_head {d : WebhookTemplateData} {name : GoString} (names : List GoString) {e : ExecError}
    (h : d.field name = none ∧ e = .cantEvaluateField name .dataPtr) : MissingField d (name :: names) e :=
  ⟨name, List.mem_cons_self _ _, h⟩

mutual
/-- A template fails only at a field it names that the data does not have. -/
theorem Tmpl.render_error (lib : Lib) (d : WebhookTemplateData) :
    ∀ (t : Tmpl) (e : ExecError), t.render lib d = .error e → MissingField d t.names e
  | .tail _, _, h => by cases h
  | .field _ _ rest, e, h => by
    rcases bind_map_error h with h | h
    · exact missingField_head _ (printField_error lib d h)
    · exact (rest.render_error lib d e h).mono (List.subset_cons_self _ _)
  | .block _ c rest, e, h => by
    rcases bind_map_error h with h | h
    · exact (c.render_error lib d e h).mono (List.subset_append_left _ _)
    · exact (rest.render_error lib d e h).mono (List.subset_append_right _ _)

theorem IfChain.render_error (lib : Lib) (d : WebhookTemplateData) :
    ∀ (c : IfChain) (e : ExecError), c.render lib d = .error e → MissingField d c.names e
  | .ifEnd _ list, e, h => by
    rcases bind_ite_error h with h | h | h
    · exact missingField_head _ (fieldTruth_error d h)
    · exact (list.render_error lib d e h).mono (List.subset_cons_self _ _)
    · cases h
  | .ifElse _ list elseList, e, h => by
    rcases bind_ite_error h with h | h | h
    · exact missingField_head _ (fieldTruth_error d h)
    · exact (list.render_error lib d e h).mono fun _ hn => List.mem_cons_of_mem _ (List.mem_append_left _ hn)
    · exact (elseList.render_error lib d e h).mono fun _ hn => List.mem_cons_of_mem _ (List.mem_append_right _ hn)
  | .ifElseIf _ list next, e, h => by
    rcases bind_ite_error h with h | h | h
    · exact missingField_head _ (fieldTruth_error d h)
    · exact (list.render_error lib d e h).mono fun _ hn => List.mem_cons_of_mem _ (List.mem_append_left _ hn)
    · exact (next.render_error lib d e h).mono fun _ hn => List.mem_cons_of_mem _ (List.mem_append_right _ hn)
end

/-- A template renders when every field it names is a field of the data. -/
theorem Tmpl.render_ok (lib : Lib) (d : WebhookTemplateData) (t : Tmpl)
    (h : ∀ n ∈ t.names, (d.field n).isSome = true) : ∃ out, t.render lib d = .ok out := by
  cases hr : t.render lib d with
  | ok out => exact ⟨out, rfl⟩
  | error e =>
    obtain ⟨n, hn, hnone, -⟩ := t.render_error lib d e hr
    simpa [hnone] using h n hn

/-- A template with `if` chains that names only fields of the data runs
without error. -/
theorem executeTemplate_condTemplate_ok (lib : Lib) (d : WebhookTemplateData) (t : CondTemplate)
    (h : ∀ n ∈ t.tmpl.names, (d.field n).isSome = true) : ∃ out, executeTemplate lib t.source d = .ok out := by
  obtain ⟨out, ho⟩ := t.tmpl.render_ok lib d h
  rw [CondTemplate.source, t.tmpl.executeTemplate_source lib d t.wellFormed, ho]
  exact ⟨out, rfl⟩

theorem executeTemplate_condTemplate_ok_status :
    (∀ n ∈ statusTemplate.tmpl.names, ((buildTemplateData asciiLib backupContext).field n).isSome = true) ∧
      ∃ out, executeTemplate asciiLib statusTemplate.source (buildTemplateData asciiLib backupContext) = .ok out :=
  ⟨by decide, executeTemplate_condTemplate_ok _ _ _ (by decide)⟩

/-- A template with `if` chains fails only at a field it names that the data
does not have, and the error names it. -/
theorem executeTemplate_condTemplate_error (lib : Lib) (d : WebhookTemplateData) (t : CondTemplate)
    {e : TemplateError} (h : executeTemplate lib t.source d = .error e) :
    ∃ n ∈ t.tmpl.names, d.field n = none ∧ e = .exec (.cantEvaluateField n .dataPtr) := by
  rw [CondTemplate.source, t.tmpl.executeTemplate_source lib d t.wellFormed] at h
  cases hr : t.tmpl.render lib d with
  | ok out => rw [hr] at h; cases h
  | error e' =>
    rw [hr] at h
    cases h
    obtain ⟨n, hn, hnone, rfl⟩ := t.tmpl.render_error lib d e' hr
    exact ⟨n, hn, hnone, rfl⟩

/-- A status line whose else branch references `.Status`, which the data does not have. -/
def missingFieldTemplate : CondTemplate where
  tmpl := .block [] (.ifElse (lit "Failed") (.tail (lit "failed")) (.field [] (lit "Status") (.tail []))) (.tail [])
  wellFormed := by decide

theorem executeTemplate_condTemplate_error_status :
    executeTemplate asciiLib missingFieldTemplate.source (buildTemplateData asciiLib backupContext) =
        .error (.exec (.cantEvaluateField (lit "Status") .dataPtr)) ∧
      ∃ n ∈ missingFieldTemplate.tmpl.names, (buildTemplateData asciiLib backupContext).field n = none ∧
        TemplateError.exec (.cantEvaluateField (lit "Status") .dataPtr) = .exec (.cantEvaluateField n .dataPtr) :=
  have h : executeTemplate asciiLib missingFieldTemplate.source (buildTemplateData asciiLib backupContext) =
      .error (.exec (.cantEvaluateField (lit "Status") .dataPtr)) := by decide
  ⟨h, executeTemplate_condTemplate_error asciiLib _ _ h⟩

end Ofelia.Template
