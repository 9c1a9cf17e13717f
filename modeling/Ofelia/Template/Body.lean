import Ofelia.Template.CondBody

/-! Bodies whose string values are field templates: text and references
`{{.Name}}`, as in the monitoring body of the documentation. A string body is
one template; an object or array body is marshalled and run as one template,
and is a body with `if` blocks that uses none, so it renders value by value
as those do. -/

namespace Ofelia.Template

open Json

/-- A string body is rendered as one template: each field reference is
replaced by what the field prints, and the text around it is kept. -/
theorem executeTemplateForBody_fieldTemplate (lib : Lib) (d : WebhookTemplateData) (t : FieldTemplate) :
    executeTemplateForBody lib (.string t.source) d =
      (substitute lib d t.refs t.tail).mapError (.template ∘ .exec) := by
  simp only [executeTemplateForBody, executeTemplate_fieldTemplate]
  cases substitute lib d t.refs t.tail <;> rfl

/-- Inside a JSON string literal, the text `jsonEscape` writes reads back as the
original text when that is valid UTF-8, and the literal ends at the quote
written after it, whatever follows. -/
theorem stringBody_jsonEscapeString (s : GoString) (hv : validString s = true) (rest : GoString) :
    stringBody (jsonEscapeString s ++ 0x22 :: rest) = .ok (s, rest) := by
  rw [jsonEscapeString_eq]
  exact stringBody_escape s hv rest

theorem stringBody_jsonEscapeString_quotedJob : validString (lit "say \"hi\"") = true ∧
    stringBody (jsonEscapeString (lit "say \"hi\"") ++ 0x22 :: lit "\x7d") = .ok (lit "say \"hi\"", lit "\x7d") :=
  ⟨by decide, stringBody_jsonEscapeString _ (by decide) _⟩

/-! ### Bodies with templated string values -/

/-- A body whose string values are field templates; its keys are plain text. -/
inductive TemplateBody where
  | null
  | bool (b : Bool)
  | number (n : GoString)
  | string (t : FieldTemplate)
  | array (xs : List TemplateBody)
  | object (kvs : List (GoString × TemplateBody))

namespace TemplateBody

mutual
/-- The body as one with `if` blocks, none of them used. -/
def toCond : TemplateBody → CondBody
  | .null => .null
  | .bool b => .bool b
  | .number n => .number n
  | .string t => .string t.toCond
  | .array xs => .array (toConds xs)
  | .object kvs => .object (toCondMembers kvs)

def toConds : List TemplateBody → List CondBody
  | [] => []
  | x :: xs => x.toCond :: toConds xs

def toCondMembers : List (GoString × TemplateBody) → List (GoString × CondBody)
  | [] => []
  | (k, v) :: kvs => (k, v.toCond) :: toCondMembers kvs
end

/-- The body as configured: each string value is its template's text. -/
def toValue (b : TemplateBody) : Value := b.toCond.toValue

/-- The bodies `executeTemplateForBody` marshals: objects and arrays. -/
def isCollection (b : TemplateBody) : Bool := b.toCond.isCollection

section

variable (lib : Lib) (d : WebhookTemplateData)

/-- The body as the documentation reads it: each string value rendered on its
own, as the substitution its field template stands for. -/
def subst (b : TemplateBody) : Except ExecError Value := CondBody.subst lib d b.toCond

/-- Keys hold no `{{`, texts are valid UTF-8 and every referenced field prints
a value that marshals to itself. -/
def neutral (b : TemplateBody) : Bool := CondBody.neutral lib d b.toCond

end

/-- A string value renders as the substitution of its field template. -/
theorem subst_string (lib : Lib) (d : WebhookTemplateData) (t : FieldTemplate) :
    subst lib d (.string t) = (substitute lib d t.refs t.tail).map .string := by
  simp only [subst, toCond, CondBody.subst, FieldTemplate.toCond, render_fieldTmpl]

/-- A string value is configured as its field template's text. -/
theorem toValue_string (t : FieldTemplate) : toValue (.string t) = .string t.source := by
  simp only [toValue, toCond, CondBody.toValue, FieldTemplate.source_toCond]

/-- On an object or array body, `executeTemplateForBody` renders each string
value on its own and marshals the result, as the documentation describes it,
when keys hold no `{{`, texts are valid UTF-8, printed values marshal to
themselves and the body is one the decoder builds. The JSON check of the
rendered text then always passes. -/
theorem executeTemplateForBody_templateBody (lib : Lib) (d : WebhookTemplateData) (b : TemplateBody)
    (hc : b.isCollection = true) (hn : neutral lib d b = true) (hv : decodable 0 b.toValue = true) :
    executeTemplateForBody lib b.toValue d = ((subst lib d b).map marshal).mapError (.template ∘ .exec) :=
  CondBody.executeTemplateForBody_collection lib d b.toCond hc hn hv

/-- The `job` and `source` members of the monitoring body of the documentation. -/
def monitoringBody : TemplateBody :=
  .object [(lit "job", .string ⟨[([], lit "JobName")], [], by decide, by decide, by decide⟩),
    (lit "source", .string ⟨[], lit "ofelia", by decide, by decide, by decide⟩)]

theorem executeTemplateForBody_monitoringBody :
    monitoringBody.isCollection = true ∧
      neutral asciiLib (buildTemplateData asciiLib backupContext) monitoringBody = true ∧
      decodable 0 monitoringBody.toValue = true ∧
      executeTemplateForBody asciiLib monitoringBody.toValue (buildTemplateData asciiLib backupContext) =
        ((subst asciiLib (buildTemplateData asciiLib backupContext) monitoringBody).map marshal).mapError
          (.template ∘ .exec) :=
  ⟨rfl, by decide, by decide, executeTemplateForBody_templateBody _ _ _ rfl (by decide) (by decide)⟩

example : executeTemplateForBody asciiLib monitoringBody.toValue (buildTemplateData asciiLib backupContext) =
    .ok (lit "\x7b\"job\":\"backup\",\"source\":\"ofelia\"\x7d") := by
  decide

end TemplateBody

end Ofelia.Template
