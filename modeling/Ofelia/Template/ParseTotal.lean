import Ofelia.Template.Exec

/-! The parser's fuel never runs out. The parsing functions of `parse.go`
recurse on the item list; the model gives each a fuel, spends a unit per call,
and returns `outOfFuel` when it is spent, which the Go parser never does.

Every call that reads no item before the next call passes the same items on,
so the fuel a function needs is five units per item plus its depth in the
longest such chain: `action` hands its items to `pipeline`, `pipeline` to
`pipelineLoop`, `pipelineLoop` to `command`, `command` to `operand` and
`operand` to `term`, and only then is an item read, the `(` of a parenthesized
pipeline, whose `pipeline` starts the chain again. The bounds:

  `term` 5n+1, `operand` 5n+2, `command` 5n+3, `pipelineLoop` 5n+4,
  `pipeline` 5n+5, `textOrAction` 5n+2, `action` and `parseControl` 5n+6,
  `itemList` 5n+3, `blockControl` and `templateControl` 5n+1, `parseTop` 5n+3,

where n is the number of items left; `parse` gives `parseTop` its bound. Each
function consumes items: `term` and `operand` the item of the operand they
return, `command` at least one, and every other at least one.
`ParsersComplete` states the bounds of the eleven mutually recursive functions
for one fuel, one lemma per function proves them for the next from them, and
an induction on the fuel puts them together. -/

namespace Ofelia.Template

/-- A parsing step that did not run out of fuel and whose success satisfies `P`. -/
def Completes {β : Type} (P : β → Prop) : Except ParseError β → Prop
  | .error e => e ≠ .outOfFuel
  | .ok b => P b

section

variable {β γ : Type} {P Q : β → Prop} {r : Except ParseError β}

theorem completes_error {e : ParseError} (h : e ≠ .outOfFuel) : Completes P (.error e) := h

theorem Completes.mono (h : Completes P r) (hPQ : ∀ b, P b → Q b) : Completes Q r := by
  cases r with
  | error e => exact h
  | ok b => exact hPQ b h

theorem Completes.map {Q : γ → Prop} (g : β → γ) (h : Completes P r) (hg : ∀ b, P b → Q (g b)) :
    Completes Q (r.map g) := by
  cases r with
  | error e => exact h
  | ok b => exact hg b h

theorem Completes.error_ne {e : ParseError} (h : Completes P r) (he : r = .error e) : e ≠ .outOfFuel := by
  subst he; exact h

theorem Completes.of_ok {b : β} (h : Completes P r) (hb : r = .ok b) : P b := by
  subst hb; exact h

end

theorem unexpected_ne (i : Item) (context : GoString) : unexpected i context ≠ .outOfFuel := by
  unfold unexpected
  split <;> nofun

/-! ### Items -/

theorem length_dropSpaces_le (ts : List Item) : (dropSpaces ts).length ≤ ts.length := by
  induction ts using dropSpaces.induct with
  | case1 v ts ih => rw [dropSpaces]; exact Nat.le_succ_of_le ih
  | case2 ts h => rw [dropSpaces.eq_2 ts h]

theorem length_nextNonSpace_tok {ts : List Item} {t : ItemType} {v : GoString}
    (h : (nextNonSpace ts).1 = .tok t v) : (nextNonSpace ts).2.length + 1 ≤ ts.length := by
  have hd := length_dropSpaces_le ts
  unfold nextNonSpace at h ⊢
  split at h
  · cases h
  · rename_i i rest hts
    rw [hts] at hd
    exact hd

theorem nextNonSpace_tok {ts rest : List Item} {t : ItemType} {v : GoString}
    (h : nextNonSpace ts = (.tok t v, rest)) : rest.length + 1 ≤ ts.length := by
  simpa [h] using length_nextNonSpace_tok (congrArg Prod.fst h)

theorem expect_completes (typ : ItemType) (context : GoString) (ts : List Item) :
    Completes (fun rest : List Item => rest.length < ts.length) (expect typ context ts) := by
  unfold expect
  split
  · split_ifs
    · exact nextNonSpace_tok ‹_›
    · exact unexpected_ne _ _
  · exact unexpected_ne _ _

theorem loopControl_completes (keyword : GoString) (node : Node) (rangeDepth : Nat) (ts : List Item) :
    Completes (fun r : Node × List Item => r.2.length < ts.length) (loopControl keyword node rangeDepth ts) := by
  unfold loopControl
  split
  · split_ifs
    · exact completes_error nofun
    · exact nextNonSpace_tok ‹_›
  · exact unexpected_ne _ _

/-- An `else` before `if` or `with` leaves that keyword, but the spaces before it. -/
theorem elseControl_completes (ts : List Item) :
    Completes (fun rest : List Item => rest.length ≤ ts.length) (elseControl ts) := by
  unfold elseControl
  split
  · exact length_dropSpaces_le ts
  · exact length_dropSpaces_le ts
  · exact (expect_completes _ _ ts).mono fun _ => Nat.le_of_lt

/-- A template name is a token, read from the items. -/
theorem parseTemplateName_completes (ts : List Item) (context : GoString) :
    Completes (fun _ => (nextNonSpace ts).2.length + 1 ≤ ts.length)
      (parseTemplateName (nextNonSpace ts).1 context) := by
  unfold parseTemplateName
  split
  all_goals first
    | exact unexpected_ne _ _
    | split
      · exact length_nextNonSpace_tok ‹_›
      · exact completes_error nofun

theorem addTree_completes (name : GoString) (root : List Node) (trees : TreeSet) :
    Completes (fun _ => True) (addTree name root trees) := by
  unfold addTree
  split
  · trivial
  · split_ifs <;> first | trivial | exact completes_error nofun

theorem checkPipeline_completes (context : GoString) (pipe : Pipe) :
    Completes (fun _ => True) (checkPipeline context pipe) := by
  unfold checkPipeline
  split_ifs
  · exact completes_error nofun
  · split
    · exact completes_error nofun
    · trivial

/-- The declarations at the head of a pipeline consume items or none. -/
theorem declarations_completes (context : GoString) : ∀ (k : Nat) (decl : List GoString) (st : PState)
    (ts : List Item), Completes (fun r : List GoString × Bool × PState × List Item => r.2.2.2.length ≤ ts.length)
      (declarations context k decl st ts)
  | 0, _, _, ts => Nat.le_refl ts.length
  | k + 1, decl, st, ts => by
    rw [declarations]
    split
    next v ts' hv =>
      have h₁ := nextNonSpace_tok hv
      split
      next rest h₂ => have := nextNonSpace_tok h₂; show rest.length ≤ ts.length; omega
      next rest h₂ => have := nextNonSpace_tok h₂; show rest.length ≤ ts.length; omega
      next c rest h₂ =>
        have h₃ := nextNonSpace_tok h₂
        split_ifs
        · split
          all_goals first
            | exact completes_error nofun
            | exact (declarations_completes context k _ _ rest).mono fun _ h => by omega
        · exact completes_error nofun
        · exact h₁
      next => exact h₁
    next => exact Nat.le_refl ts.length

/-! ### The bounds of the parsing functions -/

/-- The bounds the eleven mutually recursive parsing functions keep with fuel
`fuel`: on items few enough for it, each completes; `term` and `operand`
consume the item of the operand they return, `command` returns a command and
consumes an item per operand, and every other function consumes an item. -/
structure ParsersComplete (fuel : Nat) : Prop where
  term : ∀ st ts, 5 * ts.length + 1 ≤ fuel →
    Completes (fun r : Option Arg × PState × List Item => r.2.2.length + r.1.toList.length ≤ ts.length)
      (term fuel st ts)
  operand : ∀ st ts, 5 * ts.length + 2 ≤ fuel →
    Completes (fun r : Option Arg × PState × List Item => r.2.2.length + r.1.toList.length ≤ ts.length)
      (operand fuel st ts)
  command : ∀ st cmd ts, 5 * ts.length + 3 ≤ fuel →
    Completes (fun r : List Arg × PState × List Item => r.1 ≠ [] ∧ r.2.2.length + r.1.length ≤ ts.length + cmd.length)
      (command fuel st cmd ts)
  pipelineLoop : ∀ context endT pipe st ts, 5 * ts.length + 4 ≤ fuel →
    Completes (fun r : Pipe × PState × List Item => r.2.2.length < ts.length) (pipelineLoop context endT fuel pipe st ts)
  pipeline : ∀ context endT st ts, 5 * ts.length + 5 ≤ fuel →
    Completes (fun r : Pipe × PState × List Item => r.2.2.length < ts.length) (pipeline context endT fuel st ts)
  textOrAction : ∀ depth st ts, 5 * ts.length + 2 ≤ fuel →
    Completes (fun r : Parsed × PState × List Item => r.2.2.length < ts.length) (textOrAction fuel depth st ts)
  action : ∀ depth st ts, 5 * ts.length + 6 ≤ fuel →
    Completes (fun r : Parsed × PState × List Item => r.2.2.length < ts.length) (action fuel depth st ts)
  parseControl : ∀ context depth st ts, 5 * ts.length + 6 ≤ fuel →
    Completes (fun r : Parsed × PState × List Item => r.2.2.length < ts.length) (parseControl context fuel depth st ts)
  itemList : ∀ depth st ts, 5 * ts.length + 3 ≤ fuel →
    Completes (fun r : List Node × Bool × PState × List Item => r.2.2.2.length < ts.length) (itemList fuel depth st ts)
  blockControl : ∀ st ts, 5 * ts.length + 1 ≤ fuel →
    Completes (fun r : Node × PState × List Item => r.2.2.length < ts.length) (blockControl fuel st ts)
  templateControl : ∀ st ts, 5 * ts.length + 1 ≤ fuel →
    Completes (fun r : Node × PState × List Item => r.2.2.length < ts.length) (templateControl fuel st ts)

namespace ParsersComplete

variable {fuel : Nat} (h : ParsersComplete fuel)
include h

/-- A term reads one token; only a parenthesized pipeline reads on, with a
unit of fuel less. -/
theorem term_succ (st : PState) (ts : List Item) (hf : 5 * ts.length + 1 ≤ fuel + 1) :
    Completes (fun r : Option Arg × PState × List Item => r.2.2.length + r.1.toList.length ≤ ts.length)
      (Template.term (fuel + 1) st ts) := by
  rw [Template.term]
  split
  case h_10 v rest hn =>
    have h₁ := nextNonSpace_tok hn
    have hp := h.pipeline (lit "parenthesized pipeline") .itemRightParen st rest (by omega)
    split
    next p st' r he => exact (hp.of_ok he).trans h₁
    next e he => exact hp.error_ne he
  case h_13 => exact length_dropSpaces_le ts
  all_goals first
    | exact nextNonSpace_tok ‹_›
    | split
      all_goals first
        | exact nextNonSpace_tok ‹_›
        | exact completes_error nofun

/-- An operand is a term and the fields chained after it. -/
theorem operand_succ (st : PState) (ts : List Item) (hf : 5 * ts.length + 2 ≤ fuel + 1) :
    Completes (fun r : Option Arg × PState × List Item => r.2.2.length + r.1.toList.length ≤ ts.length)
      (Template.operand (fuel + 1) st ts) := by
  rw [Template.operand]
  have ht := h.term st ts (by omega)
  split
  next e he => exact ht.error_ne he
  next st' rest he => exact ht.of_ok he
  next node st' rest he =>
    have h₁ : rest.length + 1 ≤ ts.length := ht.of_ok he
    have h₂ := (List.dropWhile_suffix isField (l := rest)).length_le
    dsimp only
    split_ifs
    · exact h₁
    · split
      all_goals first
        | exact completes_error nofun
        | exact le_trans (Nat.add_le_add_right h₂ 1) h₁

/-- A command reads operands up to a delimiter, a parenthesis or a pipe, and
returns one at least. -/
theorem command_succ (st : PState) (cmd : List Arg) (ts : List Item) (hf : 5 * ts.length + 3 ≤ fuel + 1) :
    Completes (fun r : List Arg × PState × List Item => r.1 ≠ [] ∧ r.2.2.length + r.1.length ≤ ts.length + cmd.length)
      (Template.command (fuel + 1) st cmd ts) := by
  rw [Template.command]
  have hd := length_dropSpaces_le ts
  have ho := h.operand st (dropSpaces ts) (by omega)
  split
  next e he => exact ho.error_ne he
  next op st' rest he =>
    have h₁ : rest.length + op.toList.length ≤ (dropSpaces ts).length := ho.of_ok he
    dsimp only
    split
    next v rest' =>
      simp only [List.length_cons] at h₁
      exact (h.command st' _ rest' (by omega)).mono fun r ⟨hne, hr⟩ =>
        ⟨hne, by simp only [List.length_append] at hr; omega⟩
    all_goals first
      | exact unexpected_ne _ _
      | split_ifs with hc
        · exact completes_error nofun
        · refine ⟨fun he => hc (List.isEmpty_iff.2 he), ?_⟩
          simp only [List.length_cons, List.length_append] at h₁ ⊢
          omega

/-- The command loop reads a command per operand it starts with, and the
closing item. -/
theorem pipelineLoop_succ (context : GoString) (endT : ItemType) (pipe : Pipe) (st : PState) (ts : List Item)
    (hf : 5 * ts.length + 4 ≤ fuel + 1) :
    Completes (fun r : Pipe × PState × List Item => r.2.2.length < ts.length)
      (Template.pipelineLoop context endT (fuel + 1) pipe st ts) := by
  rw [Template.pipelineLoop]
  split
  next t v rest hn =>
    have h₁ := nextNonSpace_tok hn
    split_ifs
    · exact (checkPipeline_completes context pipe).map _ fun _ _ => h₁
    · have hc := h.command st [] (.tok t v :: rest) (by simp only [List.length_cons]; omega)
      split
      next e he => exact hc.error_ne he
      next cmd st' rest' he =>
        obtain ⟨hne, hr⟩ := hc.of_ok he
        have : 0 < cmd.length := List.length_pos.2 hne
        simp only [List.length_cons, List.length_nil] at hr
        exact (h.pipelineLoop context endT _ st' rest' (by omega)).mono fun _ h' => by omega
    · exact unexpected_ne _ _
  next => exact unexpected_ne _ _

theorem pipeline_succ (context : GoString) (endT : ItemType) (st : PState) (ts : List Item)
    (hf : 5 * ts.length + 5 ≤ fuel + 1) :
    Completes (fun r : Pipe × PState × List Item => r.2.2.length < ts.length)
      (Template.pipeline context endT (fuel + 1) st ts) := by
  rw [Template.pipeline]
  have hd := declarations_completes context 2 [] st ts
  split
  next e he => exact hd.error_ne he
  next decl isAssign st' ts' he =>
    have h₁ : ts'.length ≤ ts.length := hd.of_ok he
    exact (h.pipelineLoop context endT _ st' ts' (by omega)).mono fun _ h' => by omega

theorem textOrAction_succ (depth : Nat) (st : PState) (ts : List Item) (hf : 5 * ts.length + 2 ≤ fuel + 1) :
    Completes (fun r : Parsed × PState × List Item => r.2.2.length < ts.length)
      (Template.textOrAction (fuel + 1) depth st ts) := by
  rw [Template.textOrAction]
  split
  next s rest hn => exact nextNonSpace_tok hn
  next v rest hn =>
    have h₁ := nextNonSpace_tok hn
    exact (h.action depth st rest (by omega)).mono fun _ h' => by omega
  next => exact unexpected_ne _ _

theorem parseControl_succ (context : GoString) (depth : Nat) (st : PState) (ts : List Item)
    (hf : 5 * ts.length + 6 ≤ fuel + 1) :
    Completes (fun r : Parsed × PState × List Item => r.2.2.length < ts.length)
      (Template.parseControl context (fuel + 1) depth st ts) := by
  rw [Template.parseControl]
  have hp := h.pipeline context .itemRightDelim st ts (by omega)
  dsimp only
  split
  next e he => exact hp.error_ne he
  next pipe st₁ ts₁ he =>
    have h₁ : ts₁.length < ts.length := hp.of_ok he
    have hl := h.itemList (if context = lit "range" then depth + 1 else depth) st₁ ts₁ (by omega)
    split
    next e he => exact hl.error_ne he
    next list st₂ ts₂ he => have : ts₂.length < ts₁.length := hl.of_ok he; show ts₂.length < ts.length; omega
    next list st₂ ts₂ he =>
      have h₂ : ts₂.length < ts₁.length := hl.of_ok he
      split
      next ts' hts =>
        have h₃ : ts'.length < ts₂.length := by
          split at hts <;> (try split_ifs at hts) <;> cases hts <;> simp
        have hc := h.parseControl context depth st₂ ts' (by omega)
        split
        next n st₃ ts₃ he => have : ts₃.length < ts'.length := hc.of_ok he; show ts₃.length < ts.length; omega
        next => exact completes_error nofun
        next e he => exact hc.error_ne he
      next =>
        have hl₂ := h.itemList depth st₂ ts₂ (by omega)
        split
        next e he => exact hl₂.error_ne he
        next elseList st₃ ts₃ he =>
          have : ts₃.length < ts₂.length := hl₂.of_ok he; show ts₃.length < ts.length; omega
        next => exact completes_error nofun

/-- An action reads its keyword and hands the rest to the control structure, or
reads a pipeline. -/
theorem action_succ (depth : Nat) (st : PState) (ts : List Item) (hf : 5 * ts.length + 6 ≤ fuel + 1) :
    Completes (fun r : Parsed × PState × List Item => r.2.2.length < ts.length)
      (Template.action (fuel + 1) depth st ts) := by
  rw [Template.action]
  split
  next v rest hn =>
    have h₁ := nextNonSpace_tok hn
    have hb := h.blockControl st rest (by omega)
    split
    next n st' rest' he => have : rest'.length < rest.length := hb.of_ok he; show rest'.length < ts.length; omega
    next e he => exact hb.error_ne he
  case h_2 v rest hn | h_3 v rest hn =>
    have h₁ := nextNonSpace_tok hn
    exact (loopControl_completes _ _ depth rest).map _ fun _ h' => Nat.lt_trans h' h₁
  next v rest hn =>
    have h₁ := nextNonSpace_tok hn
    exact (elseControl_completes rest).map _ fun _ h' => Nat.lt_of_le_of_lt h' h₁
  next v rest hn =>
    have h₁ := nextNonSpace_tok hn
    exact (expect_completes _ _ rest).map _ fun _ h' => Nat.lt_trans h' h₁
  case h_6 v rest hn | h_7 v rest hn | h_9 v rest hn =>
    have h₁ := nextNonSpace_tok hn
    exact (h.parseControl _ depth st rest (by omega)).mono fun _ h' => Nat.lt_trans h' h₁
  next v rest hn =>
    have h₁ := nextNonSpace_tok hn
    have hc := h.templateControl st rest (by omega)
    split
    next n st' rest' he => have : rest'.length < rest.length := hc.of_ok he; show rest'.length < ts.length; omega
    next e he => exact hc.error_ne he
  next =>
    have hp := h.pipeline (lit "command") .itemRightDelim st ts (by omega)
    split
    next p st' rest he => exact hp.of_ok he
    next e he => exact hp.error_ne he

/-- An item list reads nodes up to its `{{end}}` or `{{else}}`. -/
theorem itemList_succ (depth : Nat) (st : PState) (ts : List Item) (hf : 5 * ts.length + 3 ≤ fuel + 1) :
    Completes (fun r : List Node × Bool × PState × List Item => r.2.2.2.length < ts.length)
      (Template.itemList (fuel + 1) depth st ts) := by
  rw [Template.itemList]
  split_ifs
  · exact completes_error nofun
  have ht := h.textOrAction depth st ts (by omega)
  split
  next e he => exact ht.error_ne he
  next n st₁ ts₁ he =>
    have h₁ : ts₁.length < ts.length := ht.of_ok he
    exact (h.itemList depth st₁ ts₁ (by omega)).map _ fun _ h' => Nat.lt_trans h' h₁
  next st₁ ts₁ he => exact ht.of_ok he
  next st₁ ts₁ he => exact ht.of_ok he

/-- A block reads its name, its pipeline and the list of its tree. -/
theorem blockControl_succ (st : PState) (ts : List Item) (hf : 5 * ts.length + 1 ≤ fuel + 1) :
    Completes (fun r : Node × PState × List Item => r.2.2.length < ts.length)
      (Template.blockControl (fuel + 1) st ts) := by
  rw [Template.blockControl]
  have hn := parseTemplateName_completes ts (lit "block clause")
  split
  next e he => exact hn.error_ne he
  next name he =>
    have h₁ := hn.of_ok he
    have hp := h.pipeline (lit "block clause") .itemRightDelim st (nextNonSpace ts).2 (by omega)
    split
    next e he => exact hp.error_ne he
    next pipe st₁ ts₁ he =>
      have h₂ : ts₁.length < (nextNonSpace ts).2.length := hp.of_ok he
      have hl := h.itemList 0 { st₁ with vars := [lit "$"] } ts₁ (by omega)
      split
      next e he => exact hl.error_ne he
      next => exact completes_error nofun
      next root st' ts₂ he =>
        have h₃ : ts₂.length < ts₁.length := hl.of_ok he
        have ha := addTree_completes name root st'.trees
        split
        next e he => exact ha.error_ne he
        next trees he => show ts₂.length < ts.length; omega

/-- A template call reads its name and, before the delimiter, a pipeline. -/
theorem templateControl_succ (st : PState) (ts : List Item) (hf : 5 * ts.length + 1 ≤ fuel + 1) :
    Completes (fun r : Node × PState × List Item => r.2.2.length < ts.length)
      (Template.templateControl (fuel + 1) st ts) := by
  rw [Template.templateControl]
  have hn := parseTemplateName_completes ts (lit "template clause")
  split
  next e he => exact hn.error_ne he
  next name he =>
    have h₁ := hn.of_ok he
    split
    next v rest hr => have := nextNonSpace_tok hr; show rest.length < ts.length; omega
    next =>
      have hp := h.pipeline (lit "template clause") .itemRightDelim st (nextNonSpace ts).2 (by omega)
      split
      next p st₁ ts₁ he =>
        have : ts₁.length < (nextNonSpace ts).2.length := hp.of_ok he; show ts₁.length < ts.length; omega
      next e he => exact hp.error_ne he

/-- The bounds for one more unit of fuel. -/
theorem succ : ParsersComplete (fuel + 1) :=
  ⟨h.term_succ, h.operand_succ, h.command_succ, h.pipelineLoop_succ, h.pipeline_succ, h.textOrAction_succ,
    h.action_succ, h.parseControl_succ, h.itemList_succ, h.blockControl_succ, h.templateControl_succ⟩

end ParsersComplete

end Ofelia.Template
