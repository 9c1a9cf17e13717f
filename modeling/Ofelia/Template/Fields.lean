import Ofelia.Template.Exec

/-! Templates made of text and field references `{{.Name}}`, the form of the
preset bodies of the documentation. `executeTemplate` runs one as a
substitution: it copies the text and puts in place of each reference the
printed value of the field, or stops at the first field the data does not
have.

This module states what a field template is and what it stands for, and what
the lexer, the parser and the walk make of one reference. A field template is
a template without `if` blocks, and its run as a whole is proved with those
(`executeTemplate_fieldTemplate`). -/

namespace Ofelia.Template

/-! ### Field templates -/

/-- A byte of a field name: an ASCII letter, a digit or `_`. -/
def isNameByte (b : UInt8) : Bool :=
  b = 0x5F || (0x41 ≤ b && b ≤ 0x5A) || (0x61 ≤ b && b ≤ 0x7A) || (0x30 ≤ b && b ≤ 0x39)

/-- A field name the lexer reads whole after the dot: name bytes, the first
not a digit, which would make `.5` a number. -/
def validFieldName : GoString → Bool
  | [] => false
  | c :: cs => (c < 0x30 || 0x39 < c) && isNameByte c && cs.all isNameByte

/-- The text of a template: each piece of text with the reference after it,
then the text after the last reference. -/
def fieldSource (refs : List (GoString × GoString)) (tail : GoString) : GoString :=
  refs.flatMap (fun p => p.1 ++ leftDelim ++ 0x2E :: p.2 ++ rightDelim) ++ tail

/-- A template of text and field references. No text holds `{{`, and a text
before a reference does not end with `{`, which would open the action one
byte early. -/
structure FieldTemplate where
  refs : List (GoString × GoString)
  tail : GoString
  refs_text : ∀ p ∈ refs, indexOf leftDelim (p.1 ++ [0x7B]) = none
  refs_name : ∀ p ∈ refs, validFieldName p.2 = true
  tail_text : indexOf leftDelim tail = none

/-- The template's source text. -/
def FieldTemplate.source (t : FieldTemplate) : GoString := fieldSource t.refs t.tail

/-! ### Lexing -/

theorem runes_append_ascii (r : GoString) : ∀ a : GoString, (∀ b ∈ a, b < 0x80) →
    runes (a ++ r) = a.map (fun b => (b.toNat, [b])) ++ runes r
  | [], _ => rfl
  | b :: a, h => by
    rw [List.cons_append, runes_cons_ascii _ (h b (List.mem_cons_self b a)),
      runes_append_ascii r a fun c hc => h c (List.mem_cons_of_mem b hc), List.map_cons, List.cons_append]

theorem isNameByte_lt {b : UInt8} (h : isNameByte b = true) : b < 0x80 := by
  simp only [isNameByte, Bool.or_eq_true, Bool.and_eq_true, decide_eq_true_eq] at h
  have : b.toNat < 0x80 := by
    rcases h with ((rfl | ⟨-, h⟩) | ⟨-, h⟩) | ⟨-, h⟩
    · decide
    all_goals exact Nat.lt_of_le_of_lt (show b.toNat ≤ _ from h) (by decide)
  exact this

theorem isAlphaNumeric_of_isNameByte (lib : Lib) {b : UInt8} (h : isNameByte b = true) :
    isAlphaNumeric lib b.toNat = true := by
  simp only [isNameByte, Bool.or_eq_true, Bool.and_eq_true, decide_eq_true_eq] at h
  simp only [isAlphaNumeric, Bool.or_eq_true, Bool.and_eq_true, decide_eq_true_eq]
  rcases h with ((rfl | ⟨h1, h2⟩) | ⟨h1, h2⟩) | ⟨h1, h2⟩
  · exact .inl (.inl (.inl (.inl rfl)))
  · exact .inl (.inl (.inl (.inr ⟨h1, h2⟩)))
  · exact .inl (.inl (.inr ⟨h1, h2⟩))
  · exact .inl (.inr ⟨h1, h2⟩)

theorem ne_of_isNameByte {b c : UInt8} (h : isNameByte b = true) (hc : isNameByte c = false) : b ≠ c :=
  fun e => by rw [e, hc] at h; cases h

/-- The bytes that end a name after the dot are not name bytes. -/
theorem isNameByte_terminator :
    ∀ b ∈ [0x20, 0x09, 0x0D, 0x0A, 0x2E, 0x2C, 0x7C, 0x3A, 0x29, 0x28, 0x7D], isNameByte b = false := by
  decide

theorem atTerminator_of_isNameByte {c : UInt8} (h : isNameByte c = true) (s : GoString) :
    atTerminator (c :: s) = false := by
  have hne := fun b hb => ne_of_isNameByte h (isNameByte_terminator b hb)
  simp only [List.forall_mem_cons, List.forall_mem_nil] at hne
  simp [atTerminator, isSpace, rightDelim, List.isPrefixOf, hne, hne.2.2.2.2.2.2.2.2.2.2.1.symm]

theorem flatMap_runes (s : GoString) : (runes s).flatMap Prod.snd = s := flatten_runes s

/-- The runes of a name before `}}` are its bytes, and the first `}` ends them. -/
theorem spanRunes_name (lib : Lib) {name : GoString} (hn : name.all isNameByte = true) (z : GoString) :
    spanRunes (isAlphaNumeric lib) (name ++ rightDelim ++ z) = (name, rightDelim ++ z) := by
  have hb : ∀ b ∈ name, isNameByte b = true := List.all_eq_true.1 hn
  have hr : runes (name ++ rightDelim ++ z) =
      name.map (fun b => (b.toNat, [b])) ++ ((0x7D : UInt8).toNat, [0x7D]) :: runes (0x7D :: z) := by
    rw [List.append_assoc, runes_append_ascii _ _ fun b h => isNameByte_lt (hb b h), rightDelim,
      List.cons_append, runes_cons_ascii _ (by decide)]
    rfl
  have hp : ∀ x ∈ name.map (fun b => (b.toNat, [b])), isAlphaNumeric lib x.1 = true := by
    simp only [List.mem_map]
    rintro _ ⟨b, hb', rfl⟩
    exact isAlphaNumeric_of_isNameByte lib (hb b hb')
  have h7D : isAlphaNumeric lib (0x7D : UInt8).toNat = false := by
    show isAlphaNumeric lib 125 = false
    simp [isAlphaNumeric]
  simp only [spanRunes, hr, List.takeWhile_append_of_pos hp, List.dropWhile_append_of_pos hp,
    List.takeWhile_cons, List.dropWhile_cons, h7D]
  simp [List.flatMap_map, Function.comp_def, flatMap_runes, rightDelim]

/-- The first `{{` of a text that has none and does not end with `{`, followed
by `{{`, is the one after it. -/
theorem indexOf_leftDelim_append : ∀ {a : GoString}, indexOf leftDelim (a ++ [0x7B]) = none →
    ∀ z, indexOf leftDelim (a ++ 0x7B :: 0x7B :: z) = some a.length
  | [], _, _ => by simp [indexOf, leftDelim, List.isPrefixOf]
  | c :: a, h, z => by
    have hp : leftDelim.isPrefixOf (c :: (a ++ 0x7B :: 0x7B :: z)) =
        leftDelim.isPrefixOf (c :: (a ++ [0x7B])) := by
      cases a <;> simp [leftDelim, List.isPrefixOf]
    rw [List.cons_append, indexOf] at h ⊢
    rw [hp]
    split_ifs at h ⊢
    rw [Option.map_eq_none'] at h
    rw [indexOf_leftDelim_append h z]
    rfl

theorem validFieldName_cons {name : GoString} (hn : validFieldName name = true) :
    ∃ c cs, name = c :: cs ∧ (c < 0x30 ∨ 0x39 < c) ∧ name.all isNameByte = true := by
  obtain _ | ⟨c, cs⟩ := name
  · cases hn
  · simp only [validFieldName, Bool.and_eq_true, Bool.or_eq_true, decide_eq_true_eq] at hn
    exact ⟨c, cs, rfl, hn.1.1, by simp [hn.1.2, hn.2]⟩

/-- `lexFieldOrVariable` after the dot of a reference reads the name. -/
theorem lexFieldOrVariable_name (lib : Lib) {name : GoString} (hn : validFieldName name = true)
    (z : GoString) : lexFieldOrVariable lib .itemField 0x2E (name ++ rightDelim ++ z) =
      .ok (.tok .itemField (0x2E :: name), rightDelim ++ z) := by
  obtain ⟨c, cs, rfl, -, hall⟩ := validFieldName_cons hn
  have hc : isNameByte c = true := (List.all_eq_true.1 hall) c (List.mem_cons_self c cs)
  have hr : atTerminator (rightDelim ++ z) = true := by simp [atTerminator, rightDelim, List.isPrefixOf]
  rw [lexFieldOrVariable, List.cons_append, List.cons_append, atTerminator_of_isNameByte hc,
    ← List.cons_append, ← List.cons_append]
  simp only [spanRunes_name lib hall z, hr]
  rfl

theorem atRightDelim_dot (s : GoString) : atRightDelim (0x2E :: s) = (false, false) := by
  rcases s with _ | ⟨b, s⟩
  · rfl
  · by_cases hb : b = 0x2D
    · subst hb; rfl
    · simp [atRightDelim, hasRightTrimMarker, hb, rightDelim, List.isPrefixOf]

/-- `lexInsideAction` at the dot of a reference: the field item. -/
theorem lexFrom_field (lib : Lib) (fuel : Nat) {name : GoString} (hn : validFieldName name = true)
    (z : GoString) : lexFrom lib (fuel + 1) (.action 0) (0x2E :: (name ++ (rightDelim ++ z))) =
      .tok .itemField (0x2E :: name) :: lexFrom lib fuel (.action 0) (rightDelim ++ z) := by
  obtain ⟨c, cs, rfl, hd, -⟩ := validFieldName_cons hn
  have hl := lexFieldOrVariable_name lib hn z
  simp only [List.cons_append, List.append_assoc] at hl
  rw [lexFrom, atRightDelim_dot]
  simp [show isSpace 0x2E = false from rfl, hd, hl, emit]

/-- `lexRightDelim` closing a reference. -/
theorem lexFrom_rightDelim (lib : Lib) (fuel : Nat) (z : GoString) :
    lexFrom lib (fuel + 1) (.action 0) (rightDelim ++ z) =
      .tok .itemRightDelim rightDelim :: lexFrom lib fuel .text z := by
  have h : atRightDelim (0x7D :: 0x7D :: z) = (true, false) := by
    simp [atRightDelim, hasRightTrimMarker, rightDelim, List.isPrefixOf]
  rw [rightDelim, List.cons_append, List.cons_append, List.nil_append, lexFrom, h]
  rfl

/-- `lexText` after the last reference: the text, if any, and the end. -/
theorem lexFrom_tail (lib : Lib) (fuel : Nat) {tail : GoString} (h : indexOf leftDelim tail = none) :
    lexFrom lib (fuel + 1) .text tail = if tail = [] then [.eof] else [.tok .itemText tail, .eof] := by
  rw [lexFrom, h]

/-! ### Parsing -/

/-- The pipeline printing or testing a field. -/
def fieldPipe (name : GoString) : Pipe := ⟨false, [], [[.field [name]]]⟩

/-- An action holding one field reference parses to the node printing it. -/
theorem textOrAction_field (fuel depth : Nat) (st : PState) (name : GoString) (rest : List Item) :
    textOrAction (fuel + 7) depth st (.tok .itemLeftDelim leftDelim :: .tok .itemField (0x2E :: name) ::
      .tok .itemRightDelim rightDelim :: rest) = .ok (.node (.action (fieldPipe name)), st, rest) := by
  simp [textOrAction, action, pipeline, declarations, pipelineLoop, nextNonSpace, dropSpaces, startsOperand, command,
    operand, term, isField, checkPipeline, Except.map, fieldPipe]

/-! ### Running -/

/-- What a reference to field `name` of the data evaluates to: the field's
value, or the error for a field the data does not have. -/
def fieldValue (d : WebhookTemplateData) (name : GoString) : Except ExecError Val :=
  match d.field name with
  | some v => .ok v
  | none => .error (.cantEvaluateField name .dataPtr)

/-- What a reference to field `name` prints: the field's value as an action
prints it. -/
def printField (lib : Lib) (d : WebhookTemplateData) (name : GoString) : Except ExecError GoString :=
  (fieldValue d name).bind fun v =>
    match actionText lib d v with
    | some s => .ok s
    | none => .error (.unsupported (lit "printing a value"))

/-- The substitution a field template stands for: its text, with the printed
value of each field in place of its reference, up to the first field the data
does not have. -/
def substitute (lib : Lib) (d : WebhookTemplateData) :
    List (GoString × GoString) → GoString → Except ExecError GoString
  | [], tail => .ok tail
  | (text, name) :: refs, tail =>
    (printField lib d name).bind fun out => (substitute lib d refs tail).map fun rest => text ++ out ++ rest

/-- The pipeline of a reference evaluates the field, the variables untouched. -/
theorem evalPipeline_fieldPipe (lib : Lib) (d : WebhookTemplateData) (name : GoString) (vars : Vars) :
    evalPipeline ⟨lib, d, .data⟩ (fieldPipe name) vars = (fieldValue d name).map (·, vars) := by
  cases h : d.field name <;>
    simp [evalPipeline, fieldPipe, evalCmds, evalCommand, chainWith, fieldChain, lookupField, methodSig, fieldValue,
      h, Except.bind, declare, Except.map, pure, Except.pure]

theorem walk_field (env : Env) (name : GoString) (vars : Vars) :
    walk env .data (.action (fieldPipe name)) vars = (printField env.lib env.data name).map (·, .normal, vars) := by
  rw [walk, Env.scope, evalPipeline_fieldPipe, printField]
  cases fieldValue env.data name with
  | error e => rfl
  | ok v => cases h : actionText env.lib env.data v <;> simp [h, Except.bind, Except.map, fieldPipe]

/-- Every field of the data prints: it is a string, a boolean or a time. -/
theorem actionText_field (lib : Lib) (d : WebhookTemplateData) {name : GoString} {v : Val}
    (h : d.field name = some v) : ∃ s, actionText lib d v = some s := by
  obtain ⟨l₁, l₂, hl, -⟩ := List.lookup_eq_some_iff.1 h
  have hv : v ∈ d.fields.map Prod.snd :=
    List.mem_map.2 ⟨(name, v), hl ▸ List.mem_append_right _ (List.mem_cons_self _ _), rfl⟩
  have hall : ∀ w ∈ d.fields.map Prod.snd, ∃ s, actionText lib d w = some s := by
    simp [WebhookTemplateData.fields]
  exact hall v hv

end Ofelia.Template
