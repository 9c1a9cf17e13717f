import Ofelia.Template.Conditionals
import Ofelia.Json.Values

/-! Object and array bodies whose string values hold `if` blocks, as in the
Discord, Slack and Telegram presets of the documentation:
`"color": "{{if .Failed}}danger{{else}}good{{end}}"`. `executeTemplateForBody`
marshals such a body and runs the whole text as one template. That text is one
template with `if` chains: its texts are the JSON around the values and the
values' own texts, escaped, and its actions are theirs, which marshal to
themselves. Its run renders each string value in place.

So the code agrees with the documentation's reading, each string value
rendered on its own and the body marshalled, when keys hold no `{{`, texts are
valid UTF-8 (they may need escaping, as the newlines of the Telegram preset do)
and every printed field marshals to itself. The JSON check then never fires.
When a printed value has a byte to escape, they differ, as a quote in a job
name shows (`executeTemplateForBody_not_per_leaf`). -/

namespace Ofelia.Template

open Json

/-! ### Strings that marshal to themselves -/

/-- A string `json.Marshal` writes as it is between the quotes: valid UTF-8
with nothing to escape. -/
def Plain (s : GoString) : Prop := validString s = true ∧ escape s = s

instance (s : GoString) : Decidable (Plain s) := inferInstanceAs (Decidable (_ ∧ _))

/-- The runes of valid UTF-8 followed by anything are its runes, then those of
what follows. -/
theorem runes_append (b : GoString) (a : GoString) (hv : validString a = true) :
    runes (a ++ b) = runes a ++ runes b := by
  induction a using runes.induct with
  | case1 => rfl
  | case2 b0 b1 t1 hw ih =>
    have hr := runes.eq_2 b0 b1 t1 hw
    rw [validString_cons hr, Bool.and_eq_true] at hv
    have hd := decodeRune_append b0 (b1 :: t1) (by rw [hw]) (t1 ++ b)
    rw [hw] at hd
    simp only [Nat.reduceSub, List.take_succ_cons, List.take_zero, List.singleton_append] at hd
    rw [hr, List.cons_append, List.cons_append, runes.eq_2 _ _ _ (by rw [hd, hw]), ih hv.2, hd]
    rfl
  | case3 b0 b1 b2 t2 hw ih =>
    have hr := runes.eq_3 b0 b1 b2 t2 hw
    rw [validString_cons hr, Bool.and_eq_true] at hv
    have hd := decodeRune_append b0 (b1 :: b2 :: t2) (by rw [hw]; decide) (t2 ++ b)
    rw [hw] at hd
    simp only [Nat.reduceSub, List.take_succ_cons, List.take_zero, List.cons_append, List.nil_append] at hd
    rw [hr, List.cons_append, List.cons_append, List.cons_append, runes.eq_3 _ _ _ _ (by rw [hd, hw]),
      ih hv.2, hd]
    rfl
  | case4 b0 b1 b2 b3 t3 hw ih =>
    have hr := runes.eq_4 b0 b1 b2 b3 t3 hw
    rw [validString_cons hr, Bool.and_eq_true] at hv
    have hd := decodeRune_append b0 (b1 :: b2 :: b3 :: t3) (by rw [hw]; decide) (t3 ++ b)
    rw [hw] at hd
    simp only [Nat.reduceSub, List.take_succ_cons, List.take_zero, List.cons_append, List.nil_append] at hd
    rw [hr, List.cons_append, List.cons_append, List.cons_append, List.cons_append,
      runes.eq_4 _ _ _ _ _ (by rw [hd, hw]), ih hv.2, hd]
    rfl
  | case5 b0 t h2 h3 h4 ih =>
    have hr := runes.eq_5 b0 t h2 h3 h4
    rw [validString_cons hr, Bool.and_eq_true, decide_eq_true_eq] at hv
    have hb := lt_of_encodeRune_eq hv.1.symm
    rw [List.cons_append, runes_cons_ascii _ hb, runes_cons_ascii _ hb, ih hv.2]
    rfl

theorem validString_append {a b : GoString} (ha : validString a = true) (hb : validString b = true) :
    validString (a ++ b) = true := by
  rw [validString, runes_append b a ha, List.all_append, Bool.and_eq_true]
  exact ⟨ha, hb⟩

/-- `json.Marshal` escapes valid UTF-8 rune by rune. -/
theorem escape_append {a : GoString} (ha : validString a = true) (b : GoString) :
    escape (a ++ b) = escape a ++ escape b := by
  rw [escape, runes_append b a ha, List.flatMap_append]
  rfl

theorem Plain.append {a b : GoString} (ha : Plain a) (hb : Plain b) : Plain (a ++ b) :=
  ⟨validString_append ha.1 hb.1, by rw [escape_append ha.1, ha.2, hb.2]⟩

/-- An ASCII string whose bytes `escapeAscii` copies marshals to itself. -/
theorem plain_ascii {s : GoString} (h : ∀ b ∈ s, b < 0x80 ∧ escapeAscii b = [b]) : Plain s := by
  have hr := runes_ascii s fun b hb => (h b hb).1
  refine ⟨?_, ?_⟩
  · rw [validString, hr, List.all_eq_true]
    simp only [List.mem_map, forall_exists_index, and_imp, forall_apply_eq_imp_iff₂]
    intro b hb
    simp [encodeRune_ascii (h b hb).1]
  · rw [escape, hr, List.flatMap_map]
    conv => rhs; rw [← List.flatMap_singleton' s]
    refine List.flatMap_congr fun b hb => ?_
    simp only [escapeRune, if_pos (h b hb).1, (h b hb).2]

theorem isNameByte_ge {b : UInt8} (h : isNameByte b = true) : 48 ≤ b.toNat := by
  simp only [isNameByte, Bool.or_eq_true, Bool.and_eq_true, decide_eq_true_eq] at h
  rcases h with ((rfl | ⟨h1, -⟩) | ⟨h1, -⟩) | ⟨h1, -⟩
  · decide
  · exact Nat.le_trans (by decide) (show 65 ≤ b.toNat from h1)
  · exact Nat.le_trans (by decide) (show 97 ≤ b.toNat from h1)
  · exact h1

/-- `escapeAscii` copies the bytes of a field name. -/
theorem escapeAscii_nameByte {b : UInt8} (h : isNameByte b = true) : escapeAscii b = [b] := by
  have hb := isNameByte_ge h
  have lt48 : ∀ c : UInt8, c.toNat < 48 → b ≠ c := fun c hc e => by subst e; omega
  have h20 : ¬ b < 0x20 := fun hlt => by have : b.toNat < 32 := hlt; omega
  simp [escapeAscii, h20, lt48 0x22 (by decide), lt48 0x08 (by decide), lt48 0x0C (by decide),
    lt48 0x0A (by decide), lt48 0x0D (by decide), lt48 0x09 (by decide), lt48 0x26 (by decide),
    ne_of_isNameByte h (c := 0x5C) rfl, ne_of_isNameByte h (c := 0x3C) rfl, ne_of_isNameByte h (c := 0x3E) rfl]

/-- A field name marshals to itself. -/
theorem plain_fieldName {name : GoString} (hn : validFieldName name = true) : Plain name := by
  obtain ⟨-, -, -, -, hall⟩ := validFieldName_cons hn
  exact plain_ascii fun b hb =>
    ⟨isNameByte_lt (List.all_eq_true.1 hall b hb), escapeAscii_nameByte (List.all_eq_true.1 hall b hb)⟩

/-! ### Text that opens no action -/

/-- Text with no `{{` and no `{` at its end, so that an action opened right
after it starts where it should. -/
def BraceSafe (s : GoString) : Prop := indexOf leftDelim (s ++ [0x7B]) = none

theorem indexOf_cons_eq_none {c : UInt8} {s : GoString} :
    indexOf leftDelim (c :: s) = none ↔ ¬ (c = 0x7B ∧ s.head? = some 0x7B) ∧ indexOf leftDelim s = none := by
  have hp : leftDelim.isPrefixOf (c :: s) = true ↔ c = 0x7B ∧ s.head? = some 0x7B := by
    cases s <;> simp [leftDelim, List.isPrefixOf, @eq_comm _ (0x7B : UInt8)]
  rw [indexOf]
  split_ifs with h <;> simp_all

theorem BraceSafe.append : ∀ {a b : GoString}, BraceSafe a → BraceSafe b → BraceSafe (a ++ b)
  | [], _, _, hb => hb
  | c :: a, b, ha, hb => by
    unfold BraceSafe at *
    rw [List.cons_append, indexOf_cons_eq_none] at ha
    rw [List.cons_append, List.cons_append, indexOf_cons_eq_none]
    refine ⟨?_, BraceSafe.append ha.2 hb⟩
    rcases a with _ | ⟨d, a⟩
    · exact fun h => ha.1 ⟨h.1, rfl⟩
    · exact fun h => ha.1 ⟨h.1, h.2⟩

/-- A text with no `{{` followed by a byte other than `{` is brace-safe. -/
theorem braceSafe_append_byte : ∀ {t : GoString} {c : UInt8}, indexOf leftDelim t = none → c ≠ 0x7B →
    BraceSafe (t ++ [c])
  | [], c, _, hc => by simp [BraceSafe, indexOf, leftDelim, List.isPrefixOf, hc, Ne.symm hc]
  | d :: t, c, ht, hc => by
    unfold BraceSafe at *
    rw [indexOf_cons_eq_none] at ht
    rw [List.cons_append, List.cons_append, indexOf_cons_eq_none]
    refine ⟨?_, braceSafe_append_byte ht.2 hc⟩
    rcases t with _ | ⟨e, t⟩
    · exact fun h => hc (Option.some.inj h.2)
    · exact fun h => ht.1 ⟨h.1, h.2⟩

theorem BraceSafe.noDelim : ∀ {s : GoString}, BraceSafe s → indexOf leftDelim s = none
  | [], _ => rfl
  | c :: s, h => by
    unfold BraceSafe at h
    rw [List.cons_append, indexOf_cons_eq_none] at h
    rw [indexOf_cons_eq_none]
    refine ⟨?_, BraceSafe.noDelim h.2⟩
    rcases s with _ | ⟨e, s⟩
    · exact fun h' => nomatch h'.2
    · exact fun h' => h.1 ⟨h'.1, h'.2⟩

instance (s : GoString) : Decidable (BraceSafe s) := inferInstanceAs (Decidable (_ = none))

theorem braceSafe_of_forall_ne : ∀ {s : GoString}, (∀ c ∈ s, c ≠ 0x7B) → BraceSafe s
  | [], _ => rfl
  | c :: _, h => (braceSafe_append_byte (t := []) rfl (h c (List.mem_cons_self _ _))).append
      (braceSafe_of_forall_ne fun x hx => h x (List.mem_cons_of_mem _ hx))

/-- Text free of `{{` after brace-safe text stays free of `{{`. -/
theorem BraceSafe.append_noDelim : ∀ {a b : GoString}, BraceSafe a → indexOf leftDelim b = none →
    indexOf leftDelim (a ++ b) = none
  | [], _, _, hb => hb
  | c :: a, b, ha, hb => by
    unfold BraceSafe at ha
    rw [List.cons_append, indexOf_cons_eq_none] at ha
    rw [List.cons_append, indexOf_cons_eq_none]
    refine ⟨?_, BraceSafe.append_noDelim ha.2 hb⟩
    rcases a with _ | ⟨d, a⟩
    · exact fun h => ha.1 ⟨h.1, rfl⟩
    · exact fun h => ha.1 ⟨h.1, h.2⟩

/-! ### Printed values -/

section

variable (lib : Lib) (d : WebhookTemplateData)

/-- What a referenced field prints marshals to itself; a field the data does
not have stops the run before anything is printed. -/
def printsPlain (name : GoString) : Bool :=
  match printField lib d name with
  | .ok out => decide (Plain out)
  | .error _ => true

theorem printsPlain_iff (name : GoString) :
    printsPlain lib d name = true ↔ ∀ out, printField lib d name = .ok out → Plain out := by
  unfold printsPlain
  cases printField lib d name <;> simp

end

/-! ### Joining templates -/

/-- A text put before a template: it joins the template's first text. -/
def Tmpl.prepend (s : GoString) : Tmpl → Tmpl
  | .tail text => .tail (s ++ text)
  | .field text name rest => .field (s ++ text) name rest
  | .block text c rest => .block (s ++ text) c rest

/-- One template after another: the text after the last piece of the first
joins the first text of the second. -/
def Tmpl.append : Tmpl → Tmpl → Tmpl
  | .tail text, u => u.prepend text
  | .field text name rest, u => .field text name (rest.append u)
  | .block text c rest, u => .block text c (rest.append u)

theorem Tmpl.source_prepend (s : GoString) : ∀ t : Tmpl, (t.prepend s).source = s ++ t.source
  | .tail _ | .field .. | .block .. => by simp [Tmpl.prepend, Tmpl.source]

theorem Tmpl.source_append : ∀ t u : Tmpl, (t.append u).source = t.source ++ u.source
  | .tail text, u => Tmpl.source_prepend text u
  | .field text name rest, u => by simp [Tmpl.append, Tmpl.source, Tmpl.source_append rest u]
  | .block text c rest, u => by simp [Tmpl.append, Tmpl.source, Tmpl.source_append rest u]

section

variable (lib : Lib) (d : WebhookTemplateData)

theorem Tmpl.render_prepend (s : GoString) :
    ∀ t : Tmpl, (t.prepend s).render lib d = (t.render lib d).map (s ++ ·)
  | .tail _ => by simp [Tmpl.prepend, Tmpl.render, Except.map]
  | .field _ name rest => by
    simp only [Tmpl.prepend, Tmpl.render]
    cases printField lib d name <;> cases rest.render lib d <;> simp [Except.bind, Except.map]
  | .block _ c rest => by
    simp only [Tmpl.prepend, Tmpl.render]
    cases c.render lib d <;> cases rest.render lib d <;> simp [Except.bind, Except.map]

/-- The run of two templates one after the other: the first's output, then
the second's, and the first error stops both. -/
theorem Tmpl.render_append : ∀ t u : Tmpl,
    (t.append u).render lib d = (t.render lib d).bind fun a => (u.render lib d).map (a ++ ·)
  | .tail text, u => Tmpl.render_prepend lib d text u
  | .field _ name rest, u => by
    simp only [Tmpl.append, Tmpl.render, Tmpl.render_append rest u]
    cases printField lib d name <;> cases rest.render lib d <;> cases u.render lib d <;>
      simp [Except.bind, Except.map]
  | .block _ c rest, u => by
    simp only [Tmpl.append, Tmpl.render, Tmpl.render_append rest u]
    cases c.render lib d <;> cases rest.render lib d <;> cases u.render lib d <;>
      simp [Except.bind, Except.map]

end

theorem plainText_iff {s : GoString} : plainText s = true ↔ BraceSafe s := Option.isNone_iff_eq_none

theorem Tmpl.wellFormed_prepend {s : GoString} (hs : BraceSafe s) :
    ∀ {t : Tmpl}, t.wellFormed = true → (t.prepend s).wellFormed = true
  | .tail _, h | .field .., h | .block .., h => by
    simp only [Tmpl.prepend, Tmpl.wellFormed, Bool.and_eq_true, plainText_iff] at h ⊢
    first | exact hs.append h | exact ⟨⟨hs.append h.1.1, h.1.2⟩, h.2⟩

theorem Tmpl.wellFormed_append : ∀ {t u : Tmpl}, t.wellFormed = true → u.wellFormed = true →
    (t.append u).wellFormed = true
  | .tail _, _, ht, hu => Tmpl.wellFormed_prepend (plainText_iff.1 ht) hu
  | .field _ _ rest, _, ht, hu | .block _ _ rest, _, ht, hu => by
    simp only [Tmpl.append, Tmpl.wellFormed, Bool.and_eq_true] at ht ⊢
    exact ⟨ht.1, Tmpl.wellFormed_append ht.2 hu⟩

/-! ### Escaping keeps text free of `{{` -/

/-- A nonempty text without `{`. -/
def BraceFree (e : GoString) : Prop := e ≠ [] ∧ ∀ c ∈ e, c ≠ 0x7B

instance (e : GoString) : Decidable (BraceFree e) := inferInstanceAs (Decidable (_ ∧ _))

theorem BraceFree.ite {c : Prop} [Decidable c] {x y : GoString} (hx : c → BraceFree x) (hy : ¬c → BraceFree y) :
    BraceFree (if c then x else y) := iteInduction hx hy

theorem hexDigit_ne (n : Nat) : hexDigit n ≠ 0x7B := by
  rw [hexDigit, List.getD_eq_getElem?_getD]
  cases h : (lit "0123456789abcdef")[n]? with
  | none => decide
  | some c => exact (show ∀ c ∈ lit "0123456789abcdef", c ≠ 0x7B by decide) c (List.getElem?_mem h)

theorem braceFree_lit_append {s : String} (hs : BraceFree (lit s)) {x : GoString} (hx : ∀ c ∈ x, c ≠ 0x7B) :
    BraceFree (lit s ++ x) :=
  ⟨fun h => hs.1 (List.append_eq_nil.1 h).1, fun c hc => (List.mem_append.1 hc).elim (hs.2 c) (hx c)⟩

theorem escapeAscii_copy_or_free (b : UInt8) : escapeAscii b = [b] ∨ BraceFree (escapeAscii b) := by
  by_cases hb : b = 0x7B
  · subst hb; exact .inl (by decide)
  · right
    rw [escapeAscii]
    refine .ite (fun h => ?_) fun _ => .ite (fun _ => by decide) fun _ => .ite (fun _ => by decide) fun _ =>
      .ite (fun _ => by decide) fun _ => .ite (fun _ => by decide) fun _ => .ite (fun _ => by decide) fun _ =>
      .ite (fun _ => braceFree_lit_append (by decide) ?_) fun _ => ⟨List.cons_ne_nil _ _, by simpa using hb⟩
    · rcases h with rfl | rfl <;> decide
    · simp only [List.mem_cons, List.mem_singleton, List.not_mem_nil, or_false]
      rintro c (rfl | rfl) <;> exact hexDigit_ne _

theorem escapeRune_copy_or_free : ∀ x : Nat × GoString, escapeRune x = x.2 ∨ BraceFree (escapeRune x)
  | (r, [b]) => by
    rw [escapeRune]
    split_ifs
    · exact escapeAscii_copy_or_free b
    · exact .inr (by decide)
  | (r, []) | (r, _ :: _ :: _) => by
    simp only [escapeRune]
    split_ifs
    · exact .inr (braceFree_lit_append (by decide) (by simpa using hexDigit_ne _))
    · exact .inl rfl

theorem indexOf_of_append : ∀ {a x : GoString}, indexOf leftDelim (a ++ x) = none → indexOf leftDelim x = none
  | [], _, h => h
  | _ :: _, _, h => indexOf_of_append (indexOf_cons_eq_none.1 h).2

/-- Text without `{` put before text free of `{{` keeps it free. -/
theorem indexOf_append_of_forall_ne : ∀ {a x : GoString}, (∀ c ∈ a, c ≠ 0x7B) →
    indexOf leftDelim x = none → indexOf leftDelim (a ++ x) = none
  | [], _, _, hx => hx
  | c :: _, _, ha, hx => indexOf_cons_eq_none.2 ⟨fun h => ha c (List.mem_cons_self _ _) h.1,
      indexOf_append_of_forall_ne (fun b hb => ha b (List.mem_cons_of_mem _ hb)) hx⟩

theorem head?_append_of_head? {c x y : GoString} (hh : y.head? = some 0x7B → x.head? = some 0x7B)
    (h : (c ++ y).head? = some 0x7B) : (c ++ x).head? = some 0x7B := by
  cases c with
  | nil => exact hh h
  | cons => exact h

/-- A text free of `{{` stays free when what follows its prefix `c` is replaced
by a text free of `{{` that starts with `{` only if the first did. -/
theorem indexOf_append_congr : ∀ {c x y : GoString}, indexOf leftDelim (c ++ x) = none →
    indexOf leftDelim y = none → (y.head? = some 0x7B → x.head? = some 0x7B) → indexOf leftDelim (c ++ y) = none
  | [], _, _, _, hy, _ => hy
  | _ :: c, _, _, hx, hy, hh => by
    rw [List.cons_append, indexOf_cons_eq_none] at hx ⊢
    exact ⟨fun h => hx.1 ⟨h.1, head?_append_of_head? hh h.2⟩, indexOf_append_congr hx.2 hy hh⟩

/-- Replacing each chunk of a text by itself or by a nonempty text without `{`
keeps the text free of `{{` before any continuation `z`. -/
theorem indexOf_flatMap {α : Type} (f g : α → GoString) (z : GoString)
    (hfg : ∀ x, g x = f x ∨ BraceFree (g x)) : ∀ L : List α,
    indexOf leftDelim (L.flatMap f ++ z) = none →
      indexOf leftDelim (L.flatMap g ++ z) = none ∧
        ((L.flatMap g ++ z).head? = some 0x7B → (L.flatMap f ++ z).head? = some 0x7B)
  | [], h => ⟨h, id⟩
  | x :: L, h => by
    simp only [List.flatMap_cons, List.append_assoc] at h ⊢
    have ih := indexOf_flatMap f g z hfg L (indexOf_of_append h)
    rcases hfg x with he | ⟨hne, hfree⟩
    · rw [he]
      exact ⟨indexOf_append_congr h ih.1 ih.2, head?_append_of_head? ih.2⟩
    · refine ⟨indexOf_append_of_forall_ne hfree ih.1, fun hh => ?_⟩
      obtain ⟨c, cs, hc⟩ := List.exists_cons_of_ne_nil hne
      rw [hc] at hh hfree
      exact absurd (Option.some.inj hh) (hfree c (List.mem_cons_self _ _))

/-- `json.Marshal` writes no `{` but for a `{`, and it writes that one as it is:
a text free of `{{` before `z` stays free once escaped. -/
theorem indexOf_escape {s z : GoString} (h : indexOf leftDelim (s ++ z) = none) :
    indexOf leftDelim (escape s ++ z) = none := by
  rw [← flatten_runes s] at h
  exact (indexOf_flatMap Prod.snd escapeRune z escapeRune_copy_or_free (runes s) h).1

theorem escape_plain_append {p : GoString} (hp : Plain p) (s : GoString) : escape (p ++ s) = p ++ escape s := by
  rw [escape_append hp.1, hp.2]

/-! ### Templates in a JSON string -/

mutual
/-- The template with each text escaped as `json.Marshal` writes it; the
actions are left as they are. -/
def Tmpl.escapeTexts : Tmpl → Tmpl
  | .tail text => .tail (escape text)
  | .field text name rest => .field (escape text) name rest.escapeTexts
  | .block text c rest => .block (escape text) c.escapeTexts rest.escapeTexts

def IfChain.escapeTexts : IfChain → IfChain
  | .ifEnd name list => .ifEnd name list.escapeTexts
  | .ifElse name list elseList => .ifElse name list.escapeTexts elseList.escapeTexts
  | .ifElseIf name list next => .ifElseIf name list.escapeTexts next.escapeTexts
end

section

variable (lib : Lib) (d : WebhookTemplateData)

mutual
/-- Every text is valid UTF-8, and every value a referenced field prints
marshals to itself; the fields blocks test are not printed. -/
def Tmpl.neutral : Tmpl → Bool
  | .tail text => validString text
  | .field text name rest => validString text && printsPlain lib d name && rest.neutral
  | .block text c rest => validString text && c.neutral && rest.neutral

def IfChain.neutral : IfChain → Bool
  | .ifEnd _ list => list.neutral
  | .ifElse _ list elseList => list.neutral && elseList.neutral
  | .ifElseIf _ list next => list.neutral && next.neutral
end

end

mutual
/-- Escaping a template's text escapes its texts: the actions marshal to themselves. -/
theorem Tmpl.escape_source {lib : Lib} {d : WebhookTemplateData} :
    ∀ {t : Tmpl}, t.neutral lib d = true → t.wellFormedTop = true →
      ∀ z, escape (t.source ++ z) = t.escapeTexts.source ++ escape z
  | .tail _, hn, _, z => escape_append hn z
  | .field _ name rest, hn, hw, z => by
    simp only [Tmpl.neutral, Tmpl.wellFormedTop, Bool.and_eq_true] at hn hw
    have hname : Plain (0x2E :: name) := (show Plain [0x2E] by decide).append (plain_fieldName hw.1.2)
    simp only [Tmpl.source, Tmpl.escapeTexts, List.append_assoc, escape_append hn.1.1,
      escape_plain_append (show Plain leftDelim by decide), escape_plain_append hname,
      escape_plain_append (show Plain rightDelim by decide), Tmpl.escape_source hn.2 hw.2]
  | .block _ c rest, hn, hw, z => by
    simp only [Tmpl.neutral, Tmpl.wellFormedTop, Bool.and_eq_true] at hn hw
    simp only [Tmpl.source, Tmpl.escapeTexts, List.append_assoc, escape_append hn.1.1,
      escape_plain_append (show Plain leftDelim by decide), escape_plain_append (show Plain (lit "if") by decide),
      IfChain.escape_clause hn.1.2 hw.1.2, Tmpl.escape_source hn.2 hw.2]

theorem IfChain.escape_clause {lib : Lib} {d : WebhookTemplateData} :
    ∀ {c : IfChain}, c.neutral lib d = true → c.wellFormed = true →
      ∀ z, escape (c.clause ++ z) = c.escapeTexts.clause ++ escape z
  | .ifEnd name _, hn, hw, z => by
    simp only [IfChain.neutral, IfChain.wellFormed, Bool.and_eq_true] at hn hw
    have hcond : Plain (0x20 :: 0x2E :: name) :=
      (show Plain [0x20, 0x2E] by decide).append (plain_fieldName hw.1)
    simp only [IfChain.clause, IfChain.escapeTexts, List.append_assoc, escape_plain_append hcond,
      escape_plain_append (show Plain rightDelim by decide), Tmpl.escape_source hn (Tmpl.wellFormedTop_of_wellFormed hw.2),
      escape_plain_append (show Plain (delimited (lit "end")) by decide)]
  | .ifElse name _ _, hn, hw, z => by
    simp only [IfChain.neutral, IfChain.wellFormed, Bool.and_eq_true] at hn hw
    have hcond : Plain (0x20 :: 0x2E :: name) :=
      (show Plain [0x20, 0x2E] by decide).append (plain_fieldName hw.1.1)
    simp only [IfChain.clause, IfChain.escapeTexts, List.append_assoc, escape_plain_append hcond,
      escape_plain_append (show Plain rightDelim by decide), Tmpl.escape_source hn.1 (Tmpl.wellFormedTop_of_wellFormed hw.1.2),
      escape_plain_append (show Plain (delimited (lit "else")) by decide),
      Tmpl.escape_source hn.2 (Tmpl.wellFormedTop_of_wellFormed hw.2),
      escape_plain_append (show Plain (delimited (lit "end")) by decide)]
  | .ifElseIf name _ _, hn, hw, z => by
    simp only [IfChain.neutral, IfChain.wellFormed, Bool.and_eq_true] at hn hw
    have hcond : Plain (0x20 :: 0x2E :: name) :=
      (show Plain [0x20, 0x2E] by decide).append (plain_fieldName hw.1.1)
    simp only [IfChain.clause, IfChain.escapeTexts, List.append_assoc, escape_plain_append hcond,
      escape_plain_append (show Plain rightDelim by decide), Tmpl.escape_source hn.1 (Tmpl.wellFormedTop_of_wellFormed hw.1.2),
      escape_plain_append (show Plain leftDelim by decide), escape_plain_append (show Plain (lit "else if") by decide),
      IfChain.escape_clause hn.2 hw.2]
end

mutual
/-- What a neutral template renders is valid UTF-8. -/
theorem Tmpl.valid_render {lib : Lib} {d : WebhookTemplateData} :
    ∀ {t : Tmpl} {out : GoString}, t.neutral lib d = true → t.render lib d = .ok out → validString out = true
  | .tail _, _, hn, h => by cases h; exact hn
  | .field _ name rest, _, hn, h => by
    simp only [Tmpl.neutral, Bool.and_eq_true, printsPlain_iff] at hn
    obtain ⟨o, ho, h⟩ := bind_eq_ok h
    obtain ⟨r, hr, rfl⟩ := map_eq_ok h
    exact validString_append (validString_append hn.1.1 (hn.1.2 o ho).1) (Tmpl.valid_render hn.2 hr)
  | .block _ c rest, _, hn, h => by
    simp only [Tmpl.neutral, Bool.and_eq_true] at hn
    obtain ⟨o, ho, h⟩ := bind_eq_ok h
    obtain ⟨r, hr, rfl⟩ := map_eq_ok h
    exact validString_append (validString_append hn.1.1 (IfChain.valid_render hn.1.2 ho)) (Tmpl.valid_render hn.2 hr)

theorem IfChain.valid_render {lib : Lib} {d : WebhookTemplateData} :
    ∀ {c : IfChain} {out : GoString}, c.neutral lib d = true → c.render lib d = .ok out → validString out = true
  | .ifEnd _ list, _, hn, h => by
    obtain ⟨b, -, h⟩ := bind_eq_ok h
    cases b
    · cases h; rfl
    · exact Tmpl.valid_render hn h
  | .ifElse _ list elseList, _, hn, h => by
    simp only [IfChain.neutral, Bool.and_eq_true] at hn
    obtain ⟨b, -, h⟩ := bind_eq_ok h
    cases b
    · exact Tmpl.valid_render hn.2 h
    · exact Tmpl.valid_render hn.1 h
  | .ifElseIf _ list next, _, hn, h => by
    simp only [IfChain.neutral, Bool.and_eq_true] at hn
    obtain ⟨b, -, h⟩ := bind_eq_ok h
    cases b
    · exact IfChain.valid_render hn.2 h
    · exact Tmpl.valid_render hn.1 h
end

section

variable (lib : Lib) (d : WebhookTemplateData)

mutual
/-- The escaped template renders the escaped output: the values fields print
marshal to themselves. -/
theorem Tmpl.render_escapeTexts : ∀ {t : Tmpl}, t.neutral lib d = true →
    t.escapeTexts.render lib d = (t.render lib d).map escape
  | .tail _, _ => rfl
  | .field _ name rest, hn => by
    simp only [Tmpl.neutral, Bool.and_eq_true, printsPlain_iff] at hn
    rw [Tmpl.escapeTexts, Tmpl.render, Tmpl.render, Tmpl.render_escapeTexts hn.2]
    cases ho : printField lib d name with
    | error e => rfl
    | ok o =>
      cases rest.render lib d <;>
        simp [Except.bind, Except.map, escape_append hn.1.1, escape_plain_append (hn.1.2 o ho)]
  | .block _ c rest, hn => by
    simp only [Tmpl.neutral, Bool.and_eq_true] at hn
    rw [Tmpl.escapeTexts, Tmpl.render, Tmpl.render, IfChain.render_escapeTexts hn.1.2, Tmpl.render_escapeTexts hn.2]
    cases ho : c.render lib d with
    | error e => rfl
    | ok o =>
      cases rest.render lib d <;>
        simp [Except.bind, Except.map, escape_append hn.1.1, escape_append (IfChain.valid_render hn.1.2 ho)]

theorem IfChain.render_escapeTexts : ∀ {c : IfChain}, c.neutral lib d = true →
    c.escapeTexts.render lib d = (c.render lib d).map escape
  | .ifEnd name _, hn => by
    rw [IfChain.escapeTexts, IfChain.render, IfChain.render, Tmpl.render_escapeTexts hn]
    cases fieldTruth d name with
    | error e => rfl
    | ok b => cases b <;> rfl
  | .ifElse name _ _, hn => by
    simp only [IfChain.neutral, Bool.and_eq_true] at hn
    rw [IfChain.escapeTexts, IfChain.render, IfChain.render, Tmpl.render_escapeTexts hn.1,
      Tmpl.render_escapeTexts hn.2]
    cases fieldTruth d name with
    | error e => rfl
    | ok b => cases b <;> rfl
  | .ifElseIf name _ _, hn => by
    simp only [IfChain.neutral, Bool.and_eq_true] at hn
    rw [IfChain.escapeTexts, IfChain.render, IfChain.render, Tmpl.render_escapeTexts hn.1,
      IfChain.render_escapeTexts hn.2]
    cases fieldTruth d name with
    | error e => rfl
    | ok b => cases b <;> rfl
end

end

mutual
/-- Escaping opens no action: the escaped template keeps its shape. -/
theorem Tmpl.wellFormed_escapeTexts : ∀ {t : Tmpl}, t.wellFormed = true → t.escapeTexts.wellFormed = true
  | .tail _, hw => plainText_iff.2 (indexOf_escape (plainText_iff.1 hw))
  | .field .., hw => by
    simp only [Tmpl.wellFormed, Tmpl.escapeTexts, Bool.and_eq_true, plainText_iff] at hw ⊢
    exact ⟨⟨indexOf_escape hw.1.1, hw.1.2⟩, Tmpl.wellFormed_escapeTexts hw.2⟩
  | .block .., hw => by
    simp only [Tmpl.wellFormed, Tmpl.escapeTexts, Bool.and_eq_true, plainText_iff] at hw ⊢
    exact ⟨⟨indexOf_escape hw.1.1, IfChain.wellFormed_escapeTexts hw.1.2⟩, Tmpl.wellFormed_escapeTexts hw.2⟩

theorem IfChain.wellFormed_escapeTexts : ∀ {c : IfChain}, c.wellFormed = true → c.escapeTexts.wellFormed = true
  | .ifEnd .., hw => by
    simp only [IfChain.wellFormed, IfChain.escapeTexts, Bool.and_eq_true] at hw ⊢
    exact ⟨hw.1, Tmpl.wellFormed_escapeTexts hw.2⟩
  | .ifElse .., hw => by
    simp only [IfChain.wellFormed, IfChain.escapeTexts, Bool.and_eq_true] at hw ⊢
    exact ⟨⟨hw.1.1, Tmpl.wellFormed_escapeTexts hw.1.2⟩, Tmpl.wellFormed_escapeTexts hw.2⟩
  | .ifElseIf .., hw => by
    simp only [IfChain.wellFormed, IfChain.escapeTexts, Bool.and_eq_true] at hw ⊢
    exact ⟨⟨hw.1.1, Tmpl.wellFormed_escapeTexts hw.1.2⟩, IfChain.wellFormed_escapeTexts hw.2⟩
end

theorem Tmpl.wellFormedTop_escapeTexts : ∀ {t : Tmpl}, t.wellFormedTop = true → t.escapeTexts.wellFormedTop = true
  | .tail _, hw => Option.isNone_iff_eq_none.2
      (by simpa using indexOf_escape (z := []) (by simpa using Option.isNone_iff_eq_none.1 hw))
  | .field .., hw => by
    simp only [Tmpl.wellFormedTop, Tmpl.escapeTexts, Bool.and_eq_true, plainText_iff] at hw ⊢
    exact ⟨⟨indexOf_escape hw.1.1, hw.1.2⟩, Tmpl.wellFormedTop_escapeTexts hw.2⟩
  | .block .., hw => by
    simp only [Tmpl.wellFormedTop, Tmpl.escapeTexts, Bool.and_eq_true, plainText_iff] at hw ⊢
    exact ⟨⟨indexOf_escape hw.1.1, IfChain.wellFormed_escapeTexts hw.1.2⟩, Tmpl.wellFormedTop_escapeTexts hw.2⟩

theorem Tmpl.wellFormedTop_prepend {s : GoString} (hs : BraceSafe s) :
    ∀ {t : Tmpl}, t.wellFormedTop = true → (t.prepend s).wellFormedTop = true
  | .tail _, h => by
    simp only [Tmpl.prepend, Tmpl.wellFormedTop, Option.isNone_iff_eq_none] at h ⊢
    exact hs.append_noDelim h
  | .field .., h | .block .., h => by
    simp only [Tmpl.prepend, Tmpl.wellFormedTop, Bool.and_eq_true, plainText_iff] at h ⊢
    exact ⟨⟨hs.append h.1.1, h.1.2⟩, h.2⟩

/-- A byte other than `{` after a whole template ends its last text: the
template becomes one that text may follow. -/
theorem Tmpl.wellFormed_append_byte {c : UInt8} (hc : c ≠ 0x7B) :
    ∀ {t : Tmpl}, t.wellFormedTop = true → (t.append (.tail [c])).wellFormed = true
  | .tail _, h => plainText_iff.2 (braceSafe_append_byte (Option.isNone_iff_eq_none.1 h) hc)
  | .field .., h | .block .., h => by
    simp only [Tmpl.append, Tmpl.wellFormed, Tmpl.wellFormedTop, Bool.and_eq_true] at h ⊢
    exact ⟨h.1, Tmpl.wellFormed_append_byte hc h.2⟩

/-- The text a key's value follows, `{"key":` or `,"key":`: brace-safe when the
key holds no `{{`. -/
theorem braceSafe_quoteKey (b : UInt8) {k : GoString} (hk : indexOf leftDelim k = none) :
    BraceSafe (b :: Json.quote k ++ [0x3A]) := by
  have he : indexOf leftDelim (escape k ++ [0x22]) = none :=
    indexOf_escape (BraceSafe.noDelim (braceSafe_append_byte hk (by decide)))
  have e : b :: Json.quote k ++ [0x3A] = [b, 0x22] ++ (escape k ++ [0x22] ++ [0x3A]) := by simp [Json.quote]
  rw [e]
  exact BraceSafe.append (by simp [BraceSafe, indexOf, leftDelim, List.isPrefixOf])
    (braceSafe_append_byte he (by decide))

/-! ### Bodies with `if` blocks in their string values -/

/-- A body whose string values are templates with `if` chains; its keys are plain text. -/
inductive CondBody where
  | null
  | bool (b : Bool)
  | number (n : GoString)
  | string (t : CondTemplate)
  | array (xs : List CondBody)
  | object (kvs : List (GoString × CondBody))

namespace CondBody

mutual
/-- The body as configured: each string value is its template's text. -/
def toValue : CondBody → Value
  | .null => .null
  | .bool b => .bool b
  | .number n => .number n
  | .string t => .string t.source
  | .array xs => .array (toValues xs)
  | .object kvs => .object (toMembers kvs)

def toValues : List CondBody → List Value
  | [] => []
  | x :: xs => x.toValue :: toValues xs

def toMembers : List (GoString × CondBody) → List (GoString × Value)
  | [] => []
  | (k, v) :: kvs => (k, v.toValue) :: toMembers kvs
end

/-- The bodies `executeTemplateForBody` marshals: objects and arrays. -/
def isCollection : CondBody → Bool
  | .array _ | .object _ => true
  | _ => false

section

variable (lib : Lib) (d : WebhookTemplateData)

mutual
/-- The body as the documentation reads it: each string value rendered on its own. -/
def subst : CondBody → Except ExecError Value
  | .null => .ok .null
  | .bool b => .ok (.bool b)
  | .number n => .ok (.number n)
  | .string t => (t.tmpl.render lib d).map .string
  | .array xs => (substElems xs).map .array
  | .object kvs => (substMembers kvs).map .object

def substElems : List CondBody → Except ExecError (List Value)
  | [] => .ok []
  | x :: xs => (subst x).bind fun v => (substElems xs).map (v :: ·)

def substMembers : List (GoString × CondBody) → Except ExecError (List (GoString × Value))
  | [] => .ok []
  | (k, v) :: kvs => (subst v).bind fun v' => (substMembers kvs).map ((k, v') :: ·)
end

mutual
/-- Keys hold no `{{`; every string value is a neutral template. -/
def neutral : CondBody → Bool
  | .string t => t.tmpl.neutral lib d
  | .array xs => neutralElems xs
  | .object kvs => neutralMembers kvs
  | _ => true

def neutralElems : List CondBody → Bool
  | [] => true
  | x :: xs => neutral x && neutralElems xs

def neutralMembers : List (GoString × CondBody) → Bool
  | [] => true
  | (k, v) :: kvs =>
    decide (indexOf leftDelim k = none) && neutral v && neutralMembers kvs
end

end

mutual
/-- The marshalled body as one template: the JSON text around the templates of
its string values. -/
def template : CondBody → Tmpl
  | .null => .tail (marshal .null)
  | .bool b => .tail (marshal (.bool b))
  | .number n => .tail (marshal (.number n))
  | .string t => (t.tmpl.escapeTexts.prepend [0x22]).append (.tail [0x22])
  | .array [] => .tail [0x5B, 0x5D]
  | .array (x :: xs) => ((template x).prepend [0x5B]).append ((elemsTemplate xs).append (.tail [0x5D]))
  | .object [] => .tail [0x7B, 0x7D]
  | .object ((k, v) :: kvs) =>
    ((template v).prepend (0x7B :: Json.quote k ++ [0x3A])).append ((membersTemplate kvs).append (.tail [0x7D]))

def elemsTemplate : List CondBody → Tmpl
  | [] => .tail []
  | x :: xs => ((template x).prepend [0x2C]).append (elemsTemplate xs)

def membersTemplate : List (GoString × CondBody) → Tmpl
  | [] => .tail []
  | (k, v) :: kvs => ((template v).prepend (0x2C :: Json.quote k ++ [0x3A])).append (membersTemplate kvs)
end

section

variable (lib : Lib) (d : WebhookTemplateData)

mutual
/-- The marshalled body is the text of its template. -/
theorem source_template : ∀ b : CondBody, neutral lib d b = true → (template b).source = marshal (toValue b)
  | .null, _ | .bool _, _ | .number _, _ => rfl
  | .string t, h => by
    have he := Tmpl.escape_source h t.wellFormed []
    rw [List.append_nil, escape_nil, List.append_nil] at he
    simp [template, toValue, Tmpl.source_append, Tmpl.source_prepend, Tmpl.source, marshal, Json.quote, he,
      CondTemplate.source]
  | .array [], _ => rfl
  | .array (x :: xs), h => by
    simp only [neutral, neutralElems, Bool.and_eq_true] at h
    simp [template, Tmpl.source_append, Tmpl.source_prepend, Tmpl.source, source_template x h.1,
      source_elemsTemplate xs h.2, toValue, toValues, marshal, marshalElems]
  | .object [], _ => rfl
  | .object ((k, v) :: kvs), h => by
    simp only [neutral, neutralMembers, Bool.and_eq_true] at h
    simp [template, Tmpl.source_append, Tmpl.source_prepend, Tmpl.source, source_template v h.1.2,
      source_membersTemplate kvs h.2, toValue, toMembers, marshal, marshalMembers]

theorem source_elemsTemplate : ∀ xs : List CondBody, neutralElems lib d xs = true →
    (elemsTemplate xs).source = marshalElemsTail (toValues xs)
  | [], _ => rfl
  | x :: xs, h => by
    simp only [neutralElems, Bool.and_eq_true] at h
    simp [elemsTemplate, Tmpl.source_append, Tmpl.source_prepend, source_template x h.1,
      source_elemsTemplate xs h.2, toValues, marshalElemsTail]

theorem source_membersTemplate : ∀ kvs : List (GoString × CondBody), neutralMembers lib d kvs = true →
    (membersTemplate kvs).source = marshalMembersTail (toMembers kvs)
  | [], _ => rfl
  | (k, v) :: kvs, h => by
    simp only [neutralMembers, Bool.and_eq_true] at h
    simp [membersTemplate, Tmpl.source_append, Tmpl.source_prepend, source_template v h.1.2,
      source_membersTemplate kvs h.2, toMembers, marshalMembersTail]
end

end

section

variable (lib : Lib) (d : WebhookTemplateData)

mutual
/-- Running the marshalled body's template marshals the rendered body. -/
theorem render_template : ∀ b : CondBody, neutral lib d b = true →
    (template b).render lib d = (subst lib d b).map marshal
  | .null, _ | .bool _, _ | .number _, _ => rfl
  | .string t, h => by
    rw [template, Tmpl.render_append, Tmpl.render_prepend, Tmpl.render_escapeTexts lib d h, subst]
    cases t.tmpl.render lib d <;> simp [Except.map, Except.bind, Tmpl.render, marshal, Json.quote]
  | .array [], _ => rfl
  | .array (x :: xs), h => by
    simp only [neutral, neutralElems, Bool.and_eq_true] at h
    rw [template, Tmpl.render_append, Tmpl.render_prepend, Tmpl.render_append, render_template x h.1,
      render_elemsTemplate xs h.2, subst, substElems]
    cases subst lib d x <;> cases substElems lib d xs <;>
      simp [Except.map, Except.bind, Tmpl.render, marshal, marshalElems]
  | .object [], _ => rfl
  | .object ((k, v) :: kvs), h => by
    simp only [neutral, neutralMembers, Bool.and_eq_true] at h
    rw [template, Tmpl.render_append, Tmpl.render_prepend, Tmpl.render_append, render_template v h.1.2,
      render_membersTemplate kvs h.2, subst, substMembers]
    cases subst lib d v <;> cases substMembers lib d kvs <;>
      simp [Except.map, Except.bind, Tmpl.render, marshal, marshalMembers]

theorem render_elemsTemplate : ∀ xs : List CondBody, neutralElems lib d xs = true →
    (elemsTemplate xs).render lib d = (substElems lib d xs).map marshalElemsTail
  | [], _ => rfl
  | x :: xs, h => by
    simp only [neutralElems, Bool.and_eq_true] at h
    rw [elemsTemplate, Tmpl.render_append, Tmpl.render_prepend, render_template x h.1,
      render_elemsTemplate xs h.2, substElems]
    cases subst lib d x <;> cases substElems lib d xs <;> simp [Except.map, Except.bind, marshalElemsTail]

theorem render_membersTemplate : ∀ kvs : List (GoString × CondBody), neutralMembers lib d kvs = true →
    (membersTemplate kvs).render lib d = (substMembers lib d kvs).map marshalMembersTail
  | [], _ => rfl
  | (k, v) :: kvs, h => by
    simp only [neutralMembers, Bool.and_eq_true] at h
    rw [membersTemplate, Tmpl.render_append, Tmpl.render_prepend, render_template v h.1.2,
      render_membersTemplate kvs h.2, substMembers]
    cases subst lib d v <;> cases substMembers lib d kvs <;> simp [Except.map, Except.bind, marshalMembersTail]
end

/-- A JSON text between values: brace-safe, so it keeps its shape as template text. -/
theorem wellFormed_tail {s : GoString} (h : BraceSafe s) : (Tmpl.tail s).wellFormed = true := plainText_iff.2 h

mutual
/-- The texts of the marshalled body open no action: its template is well formed. -/
theorem wellFormed_template : ∀ (b : CondBody) (depth : Nat), neutral lib d b = true →
    decodable depth (toValue b) = true → (template b).wellFormed = true
  | .null, _, _, _ => rfl
  | .bool true, _, _, _ | .bool false, _, _, _ => rfl
  | .number n, _, _, hv => wellFormed_tail <| braceSafe_of_forall_ne fun c hc => by
      rintro rfl
      exact absurd (numberLiteral_bytes (of_decide_eq_true hv) _ hc) (by decide)
  | .string t, _, _, _ => Tmpl.wellFormed_append_byte (by decide)
    (Tmpl.wellFormedTop_prepend (by decide) (Tmpl.wellFormedTop_escapeTexts t.wellFormed))
  | .array [], _, _, _ => rfl
  | .array (x :: xs), depth, h, hv => by
    simp only [neutral, neutralElems, toValue, toValues, decodable, decodableElems, Bool.and_eq_true] at h hv
    exact Tmpl.wellFormed_append (Tmpl.wellFormed_prepend (by decide) (wellFormed_template x (depth + 1) h.1 hv.2.1))
      (Tmpl.wellFormed_append (wellFormed_elemsTemplate xs (depth + 1) h.2 hv.2.2) rfl)
  | .object [], _, _, _ => rfl
  | .object ((k, v) :: kvs), depth, h, hv => by
    simp only [neutral, neutralMembers, toValue, toMembers, decodable, decodableMembers, Bool.and_eq_true,
      decide_eq_true_eq] at h hv
    exact Tmpl.wellFormed_append (Tmpl.wellFormed_prepend (braceSafe_quoteKey _ h.1.1)
      (wellFormed_template v (depth + 1) h.1.2 hv.2.1.2))
      (Tmpl.wellFormed_append (wellFormed_membersTemplate kvs (depth + 1) h.2 hv.2.2) rfl)

theorem wellFormed_elemsTemplate : ∀ (xs : List CondBody) (depth : Nat), neutralElems lib d xs = true →
    decodableElems depth (toValues xs) = true → (elemsTemplate xs).wellFormed = true
  | [], _, _, _ => rfl
  | x :: xs, depth, h, hv => by
    simp only [neutralElems, toValues, decodableElems, Bool.and_eq_true] at h hv
    exact Tmpl.wellFormed_append (Tmpl.wellFormed_prepend (by decide) (wellFormed_template x depth h.1 hv.1))
      (wellFormed_elemsTemplate xs depth h.2 hv.2)

theorem wellFormed_membersTemplate : ∀ (kvs : List (GoString × CondBody)) (depth : Nat),
    neutralMembers lib d kvs = true → decodableMembers depth (toMembers kvs) = true →
    (membersTemplate kvs).wellFormed = true
  | [], _, _, _ => rfl
  | (k, v) :: kvs, depth, h, hv => by
    simp only [neutralMembers, toMembers, decodableMembers, Bool.and_eq_true, decide_eq_true_eq] at h hv
    exact Tmpl.wellFormed_append (Tmpl.wellFormed_prepend (braceSafe_quoteKey _ h.1.1)
      (wellFormed_template v depth h.1.2 hv.1.2)) (wellFormed_membersTemplate kvs depth h.2 hv.2)
end

end

theorem keys_toMembers : ∀ kvs : List (GoString × CondBody), (toMembers kvs).map (·.1) = kvs.map (·.1)
  | [] => rfl
  | (k, v) :: kvs => by simp [toMembers, keys_toMembers kvs]

theorem keys_substMembers (lib : Lib) (d : WebhookTemplateData) :
    ∀ (kvs : List (GoString × CondBody)) (kvs' : List (GoString × Value)),
      substMembers lib d kvs = .ok kvs' → kvs'.map (·.1) = kvs.map (·.1)
  | [], _, h => by cases h; rfl
  | (k, v) :: kvs, _, h => by
    obtain ⟨v', -, h⟩ := bind_eq_ok h
    obtain ⟨kvs', hr, rfl⟩ := map_eq_ok h
    simp [keys_substMembers lib d kvs kvs' hr]

section

variable (lib : Lib) (d : WebhookTemplateData)

mutual
/-- Rendering the string values of a body the decoder built gives one it builds. -/
theorem decodable_subst : ∀ (b : CondBody) (depth : Nat) (v : Value), neutral lib d b = true →
    decodable depth (toValue b) = true → subst lib d b = .ok v → decodable depth v = true
  | .null, _, _, _, hv, hs | .bool _, _, _, _, hv, hs | .number _, _, _, _, hv, hs => by cases hs; exact hv
  | .string t, _, _, h, _, hs => by
    obtain ⟨s, he, rfl⟩ := map_eq_ok hs
    exact Tmpl.valid_render h he
  | .array xs, depth, _, h, hv, hs => by
    obtain ⟨vs, he, rfl⟩ := map_eq_ok hs
    simp only [neutral, toValue, decodable, Bool.and_eq_true, decide_eq_true_eq] at h hv ⊢
    exact ⟨hv.1, decodable_substElems xs (depth + 1) vs h hv.2 he⟩
  | .object kvs, depth, _, h, hv, hs => by
    obtain ⟨kvs', he, rfl⟩ := map_eq_ok hs
    simp only [neutral, toValue, decodable, Bool.and_eq_true, decide_eq_true_eq] at h hv ⊢
    refine ⟨⟨hv.1.1, ?_⟩, decodable_substMembers kvs (depth + 1) kvs' h hv.2 he⟩
    rw [keys_substMembers lib d kvs kvs' he, ← keys_toMembers]
    exact hv.1.2

theorem decodable_substElems : ∀ (xs : List CondBody) (depth : Nat) (vs : List Value),
    neutralElems lib d xs = true → decodableElems depth (toValues xs) = true →
    substElems lib d xs = .ok vs → decodableElems depth vs = true
  | [], _, _, _, _, hs => by cases hs; rfl
  | x :: xs, depth, _, h, hv, hs => by
    obtain ⟨v, hx, hs⟩ := bind_eq_ok hs
    obtain ⟨vs, he, rfl⟩ := map_eq_ok hs
    simp only [neutralElems, toValues, decodableElems, Bool.and_eq_true] at h hv ⊢
    exact ⟨decodable_subst x depth v h.1 hv.1 hx, decodable_substElems xs depth vs h.2 hv.2 he⟩

theorem decodable_substMembers : ∀ (kvs : List (GoString × CondBody)) (depth : Nat)
    (kvs' : List (GoString × Value)), neutralMembers lib d kvs = true →
    decodableMembers depth (toMembers kvs) = true → substMembers lib d kvs = .ok kvs' →
    decodableMembers depth kvs' = true
  | [], _, _, _, _, hs => by cases hs; rfl
  | (k, v) :: kvs, depth, _, h, hv, hs => by
    obtain ⟨v', hx, hs⟩ := bind_eq_ok hs
    obtain ⟨kvs', he, rfl⟩ := map_eq_ok hs
    simp only [neutralMembers, toMembers, decodableMembers, Bool.and_eq_true] at h hv ⊢
    exact ⟨⟨hv.1.1, decodable_subst v depth v' h.1.2 hv.1.2 hx⟩, decodable_substMembers kvs depth kvs' h.2 hv.2 he⟩
end

/-- The marshalled body, run as one template, is the marshalled rendered body. -/
theorem executeTemplate_marshal (b : CondBody) (hn : neutral lib d b = true)
    (hv : decodable 0 (toValue b) = true) :
    executeTemplate lib (marshal (toValue b)) d = ((subst lib d b).map marshal).mapError .exec := by
  rw [← source_template lib d b hn,
    Tmpl.executeTemplate_source lib d (Tmpl.wellFormedTop_of_wellFormed (wellFormed_template lib d b 0 hn hv)),
    render_template lib d b hn]

end

/-- On an object or array body, `executeTemplateForBody` renders each string
value on its own and marshals the result, when the body is neutral and one the
decoder builds: the JSON check of the rendered text then always passes. -/
theorem executeTemplateForBody_collection (lib : Lib) (d : WebhookTemplateData) (b : CondBody)
    (hc : b.isCollection = true) (hn : neutral lib d b = true) (hv : decodable 0 b.toValue = true) :
    executeTemplateForBody lib b.toValue d = ((subst lib d b).map marshal).mapError (.template ∘ .exec) := by
  have he := executeTemplate_marshal lib d b hn hv
  have hd := decodable_subst lib d b 0
  cases b with
  | array xs | object kvs =>
    simp only [toValue] at he hd hv ⊢
    simp only [executeTemplateForBody, he]
    rcases hs : subst lib d _ with e | v
    · rfl
    · simp only [Except.map, Except.mapError, unmarshal_marshal v (hd v hn hv hs)]
  | _ => cases hc

/-- On an object or array body whose string values hold `if` blocks,
`executeTemplateForBody` renders each string value on its own and marshals the
result, as the documentation describes it, when keys hold no `{{`, texts are
valid UTF-8, printed values marshal to themselves and the body is one the
decoder builds. The JSON check of the rendered text then always passes. -/
theorem executeTemplateForBody_condBody (lib : Lib) (d : WebhookTemplateData) (b : CondBody)
    (hc : b.isCollection = true) (hn : neutral lib d b = true) (hv : decodable 0 b.toValue = true) :
    executeTemplateForBody lib b.toValue d = ((subst lib d b).map marshal).mapError (.template ∘ .exec) :=
  executeTemplateForBody_collection lib d b hc hn hv

/-- The body of the Telegram preset of the documentation, as the decoder
builds it: keys in order, and a text with newlines, which the marshalled body
holds escaped. -/
def telegramBody : CondBody :=
  .object [(lit "chat_id", .string ⟨.tail (lit "YOUR_CHAT_ID"), by decide⟩),
    (lit "parse_mode", .string ⟨.tail (lit "Markdown"), by decide⟩),
    (lit "text", .string ⟨.block [] (.ifElse (lit "Failed") (.tail (lit "❌")) (.tail (lit "✅")))
      (.field (lit " *") (lit "JobName")
        (.block (lit "*\n\nStatus: ") (.ifElse (lit "Failed") (.tail (lit "Failed")) (.tail (lit "Success")))
          (.field (lit "\nDuration: ") (lit "Duration") (.tail [])))), by decide⟩)]

theorem executeTemplateForBody_telegramBody :
    telegramBody.isCollection = true ∧ neutral asciiLib (buildTemplateData asciiLib backupContext) telegramBody = true ∧
      decodable 0 telegramBody.toValue = true ∧
      executeTemplateForBody asciiLib telegramBody.toValue (buildTemplateData asciiLib backupContext) =
        ((subst asciiLib (buildTemplateData asciiLib backupContext) telegramBody).map marshal).mapError
          (.template ∘ .exec) :=
  ⟨rfl, by decide, by decide, executeTemplateForBody_condBody _ _ _ rfl (by decide) (by decide)⟩

/-- The body of the package's JSON webhook test. -/
def jsonTestBody : CondBody :=
  .object [(lit "job", .string ⟨.field [] (lit "JobName") (.tail []), by decide⟩),
    (lit "status", .string ⟨.block [] (.ifElse (lit "Failed") (.tail (lit "failed")) (.tail (lit "success")))
      (.tail []), by decide⟩)]

example : executeTemplateForBody asciiLib jsonTestBody.toValue (buildTemplateData asciiLib backupContext) =
    .ok (lit "\x7b\"job\":\"backup\",\"status\":\"success\"\x7d") := by
  decide

end CondBody

end Ofelia.Template
