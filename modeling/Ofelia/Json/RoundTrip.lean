import Ofelia.Json.Decode

/-! `json.Unmarshal` reads back what `json.Marshal` writes. A string literal
decodes to the bytes it was written from when they are valid UTF-8 (an
ill-formed byte is written as the escape of U+FFFD, so it cannot come back), and
the text of a `[]string` of such strings decodes to the same `[]string`.

The other direction serves the comma-separated fallback of `parseWebhookNames`:
only `null` and arrays decode into a `[]string`, so text whose first byte is
neither white space nor `[` decodes into one only when it is `null`. -/

namespace Ofelia.Json

/-! ### Runes -/

theorem encodeRune_ascii {b : UInt8} (h : b < 0x80) : encodeRune b.toNat = [b] := by
  have hb : b.toNat < 0x80 := h
  simp only [encodeRune, hb, if_true, List.cons.injEq, and_true]
  apply UInt8.eq_of_val_eq
  simp [Nat.toUInt8, UInt8.ofNat, UInt8.toNat]

theorem decodeSeq_append (b0 : UInt8) (i : Nat × UInt8 × UInt8) (t X : GoString)
    (h : 2 ≤ (decodeSeq b0 i t).2) :
    decodeSeq b0 i (t.take ((decodeSeq b0 i t).2 - 1) ++ X) = decodeSeq b0 i t := by
  unfold decodeSeq at h ⊢
  split at h <;> (try split_ifs at h) <;> simp_all

/-- A rune of width `n ≥ 2` is decoded from its `n` bytes alone. -/
theorem decodeRune_append (b0 : UInt8) (t : GoString) (h : 2 ≤ (decodeRune (b0 :: t)).2) (X : GoString) :
    decodeRune (b0 :: (t.take ((decodeRune (b0 :: t)).2 - 1) ++ X)) = decodeRune (b0 :: t) := by
  simp only [decodeRune] at h ⊢
  split_ifs at h ⊢ with h1 h2
  · simp at h
  · simp at h
  · exact decodeSeq_append b0 _ t X h

/-- The width of a rune whose bytes are `b0 :: bs` does not depend on what follows them. -/
theorem decodeRune_width_append (b0 : UInt8) (bs t : GoString)
    (h : (decodeRune (b0 :: (bs ++ t))).2 = bs.length + 1) (hb : 1 ≤ bs.length) (X : GoString) :
    (decodeRune (b0 :: (bs ++ X))).2 = bs.length + 1 := by
  have := decodeRune_append b0 (bs ++ t) (by omega) X
  rw [h, Nat.add_sub_cancel, List.take_left] at this
  rw [this, h]

theorem lt_of_encodeRune_eq {r : Nat} {b : UInt8} (h : encodeRune r = [b]) : b < 0x80 := by
  unfold encodeRune at h
  split_ifs at h with h1 <;> simp only [List.cons.injEq, reduceCtorEq, and_false] at h
  rw [← h.1]
  show r.toUInt8.toNat < 128
  simp only [Nat.toUInt8, UInt8.ofNat, UInt8.toNat, BitVec.toNat_ofNat]
  omega

theorem escape_cons {s t : GoString} {p : Nat × GoString} (h : runes s = p :: runes t) :
    escape s = escapeRune p ++ escape t := by
  simp only [escape, h, List.flatMap_cons]

theorem validString_cons {s t : GoString} {p : Nat × GoString} (h : runes s = p :: runes t) :
    validString s = (decide (p.2 = encodeRune p.1) && validString t) := by
  simp only [validString, h, List.all_cons]

/-! ### Reading string literals -/

@[simp] theorem prependOut_ok (bs out rest : GoString) :
    prependOut bs (.ok (out, rest)) = .ok (bs ++ out, rest) := rfl

/-- A byte that is not a quote, a backslash or a control byte, below `0x80`, is copied. -/
theorem stringBody_ascii {c : UInt8} (s : GoString) (h5c : c ≠ 0x5C) (h22 : c ≠ 0x22)
    (h20 : ¬ c < 0x20) (h80 : c < 0x80) : stringBody (c :: s) = prependOut [c] (stringBody s) := by
  have hw : (decodeRune (c :: s)).2 = 1 := by rw [decodeRune_ascii c s h80]
  rw [stringBody.eq_10 c s (fun _ _ _ _ _ _ _ _ _ h _ => h5c h) (fun _ _ _ _ _ h _ => h5c h)
    (fun _ h _ => h5c h) (fun _ _ h _ => h5c h) (fun h _ => h5c h) (fun _ _ h _ => by omega)
    (fun _ _ _ h _ => by omega) (fun _ _ _ _ h _ => by omega), if_neg h22, if_neg h20, if_pos h80]

/-- A one-letter escape `\e`. -/
theorem stringBody_simpleEscape {e b : UInt8} (s : GoString) (he : simpleEscape e = some b) :
    stringBody (0x5C :: e :: s) = prependOut [b] (stringBody s) := by
  have hu : e ≠ 0x75 := by rintro rfl; simp [simpleEscape] at he
  rw [stringBody.eq_5 e s (fun _ _ _ _ _ _ _ _ _ h _ => hu h) (fun _ _ _ _ _ h _ => hu h) hu, he]

/-- A `\u` escape of a rune that is not a surrogate, whatever follows it. -/
theorem stringBody_unicode {h1 h2 h3 h4 : UInt8} {r : Nat} (hr : hex4 h1 h2 h3 h4 = some r)
    (hs : isSurrogate r = false) (s : GoString) :
    stringBody (0x5C :: 0x75 :: h1 :: h2 :: h3 :: h4 :: s) = prependOut (encodeRune r) (stringBody s) := by
  by_cases hu : ∃ g1 g2 g3 g4 s', s = 0x5C :: 0x75 :: g1 :: g2 :: g3 :: g4 :: s'
  · obtain ⟨g1, g2, g3, g4, s', rfl⟩ := hu
    rw [stringBody.eq_2]
    simp only [hr, hs, Bool.false_eq_true, if_false]
  · rw [stringBody.eq_3 _ _ _ _ _ fun g1 g2 g3 g4 s' h => hu ⟨g1, g2, g3, g4, s', h⟩]
    simp only [hr, hs, Bool.false_eq_true, if_false]

theorem hexValue_hexDigit : ∀ n < 16, hexValue (hexDigit n) = some n := by decide

/-- What `escapeAscii` writes for a byte below `0x80` reads back as that byte. -/
theorem stringBody_escapeAscii {b : UInt8} (hb : b < 0x80) (t : GoString) :
    stringBody (escapeAscii b ++ t) = prependOut [b] (stringBody t) := by
  unfold escapeAscii
  by_cases h1 : b = 0x5C ∨ b = 0x22
  · rw [if_pos h1]
    exact stringBody_simpleEscape t (by rcases h1 with rfl | rfl <;> rfl)
  rw [if_neg h1]
  by_cases h2 : b = 0x08
  · rw [if_pos h2, h2]; exact stringBody_simpleEscape (e := 0x62) t rfl
  rw [if_neg h2]
  by_cases h3 : b = 0x0C
  · rw [if_pos h3, h3]; exact stringBody_simpleEscape (e := 0x66) t rfl
  rw [if_neg h3]
  by_cases h4 : b = 0x0A
  · rw [if_pos h4, h4]; exact stringBody_simpleEscape (e := 0x6E) t rfl
  rw [if_neg h4]
  by_cases h5 : b = 0x0D
  · rw [if_pos h5, h5]; exact stringBody_simpleEscape (e := 0x72) t rfl
  rw [if_neg h5]
  by_cases h6 : b = 0x09
  · rw [if_pos h6, h6]; exact stringBody_simpleEscape (e := 0x74) t rfl
  rw [if_neg h6]
  by_cases h7 : b < 0x20 ∨ b = 0x3C ∨ b = 0x3E ∨ b = 0x26
  · rw [if_pos h7]
    have hb' : b.toNat < 128 := hb
    have hx : hex4 0x30 0x30 (hexDigit (b.toNat / 16)) (hexDigit (b.toNat % 16)) = some b.toNat := by
      simp [hex4, hexValue_hexDigit _ (show b.toNat / 16 < 16 by omega),
        hexValue_hexDigit _ (Nat.mod_lt _ (show 16 > 0 by decide)), show hexValue 0x30 = some 0 from rfl]
      omega
    rw [← encodeRune_ascii hb]
    exact stringBody_unicode hx (by simp only [isSurrogate, Bool.and_eq_false_iff, decide_eq_false_iff_not]; omega) t
  rw [if_neg h7]
  exact stringBody_ascii t (fun h => h1 (.inl h)) (fun h => h1 (.inr h)) (fun h => h7 (.inl h)) hb

/-- A rune of two to four bytes reads back as those bytes: they are copied, or,
for U+2028 and U+2029, written as a `\u` escape that decodes to them. -/
theorem stringBody_escapeRune_multi {r : Nat} {c b1 : UInt8} {cs : GoString}
    (hv : c :: b1 :: cs = encodeRune r)
    (hd : ∀ X, (decodeRune (c :: b1 :: (cs ++ X))).2 = cs.length + 2) (hcs : cs.length ≤ 2) (t : GoString) :
    stringBody (escapeRune (r, c :: b1 :: cs) ++ t) = prependOut (c :: b1 :: cs) (stringBody t) := by
  simp only [escapeRune]
  split_ifs with hr
  · rcases hr with rfl | rfl <;> rw [hv] <;> exact stringBody_unicode (by decide) (by decide) t
  have hc : ¬ c < 0x80 := fun h => by have := hd []; rw [decodeRune_ascii c _ h] at this; omega
  have h5c : c ≠ 0x5C := by rintro rfl; exact hc (by decide)
  have h22 : c ≠ 0x22 := by rintro rfl; exact hc (by decide)
  have h20 : ¬ c < 0x20 := fun h => hc (UInt8.lt_trans h (by decide))
  rcases cs with _ | ⟨b2, _ | ⟨b3, _ | ⟨b4, cs⟩⟩⟩
  · rw [List.cons_append, List.cons_append, List.nil_append, stringBody.eq_7 c b1 t
      (fun _ _ _ _ _ _ _ _ _ h _ => h5c h) (fun _ _ _ _ _ h _ => h5c h) (fun _ h _ => h5c h)
      (fun _ _ h _ => h5c h) (fun h _ => h5c h) (hd t), if_neg h22, if_neg h20, if_neg hc]
  · rw [List.cons_append, List.cons_append, List.cons_append, List.nil_append, stringBody.eq_8 c b1 b2 t
      (fun _ _ _ _ _ _ _ _ _ h _ => h5c h) (fun _ _ _ _ _ h _ => h5c h) (fun _ h _ => h5c h)
      (fun _ _ h _ => h5c h) (fun h _ => h5c h) (hd t), if_neg h22, if_neg h20, if_neg hc]
  · rw [List.cons_append, List.cons_append, List.cons_append, List.cons_append, List.nil_append,
      stringBody.eq_9 c b1 b2 b3 t
      (fun _ _ _ _ _ _ _ _ _ h _ => h5c h) (fun _ _ _ _ _ h _ => h5c h) (fun _ h _ => h5c h)
      (fun _ _ h _ => h5c h) (fun h _ => h5c h) (hd t), if_neg h22, if_neg h20, if_neg hc]
  · simp at hcs

/-- One rune: when it reads back and the runes after it do, the whole reads back. -/
theorem stringBody_escape_step {s t : GoString} {p : Nat × GoString} (hr : runes s = p :: runes t)
    (hs : s = p.2 ++ t) (hp : ∀ u, stringBody (escapeRune p ++ u) = prependOut p.2 (stringBody u))
    (ih : ∀ rest, stringBody (escape t ++ 0x22 :: rest) = .ok (t, rest)) (rest : GoString) :
    stringBody (escape s ++ 0x22 :: rest) = .ok (s, rest) := by
  rw [escape_cons hr, List.append_assoc, hp, ih, prependOut_ok, hs]

/-- A string literal that `json.Marshal` writes for valid UTF-8 reads back as
the string, and decoding resumes after its closing quote. -/
theorem stringBody_escape (s : GoString) (hv : validString s = true) (rest : GoString) :
    stringBody (escape s ++ 0x22 :: rest) = .ok (s, rest) := by
  induction s using runes.induct generalizing rest with
  | case1 => rfl
  | case2 b0 b1 t1 hw ih =>
    have hr := runes.eq_2 b0 b1 t1 hw
    rw [validString_cons hr, Bool.and_eq_true, decide_eq_true_eq] at hv
    exact stringBody_escape_step hr rfl (stringBody_escapeRune_multi hv.1
      (decodeRune_width_append b0 [b1] _ hw (by simp)) (by simp)) (ih hv.2) rest
  | case3 b0 b1 b2 t2 hw ih =>
    have hr := runes.eq_3 b0 b1 b2 t2 hw
    rw [validString_cons hr, Bool.and_eq_true, decide_eq_true_eq] at hv
    exact stringBody_escape_step hr rfl (stringBody_escapeRune_multi hv.1
      (decodeRune_width_append b0 [b1, b2] _ hw (by simp)) (by simp)) (ih hv.2) rest
  | case4 b0 b1 b2 b3 t3 hw ih =>
    have hr := runes.eq_4 b0 b1 b2 b3 t3 hw
    rw [validString_cons hr, Bool.and_eq_true, decide_eq_true_eq] at hv
    exact stringBody_escape_step hr rfl (stringBody_escapeRune_multi hv.1
      (decodeRune_width_append b0 [b1, b2, b3] _ hw (by simp)) (by simp)) (ih hv.2) rest
  | case5 b0 t h2 h3 h4 ih =>
    have hr := runes.eq_5 b0 t h2 h3 h4
    rw [validString_cons hr, Bool.and_eq_true, decide_eq_true_eq] at hv
    have hb := lt_of_encodeRune_eq hv.1.symm
    refine stringBody_escape_step hr rfl (fun u => ?_) (ih hv.2) rest
    simp only [escapeRune, if_pos hb]
    exact stringBody_escapeAscii hb u

/-! ### Arrays of strings -/

theorem skipSpace_cons {c : UInt8} (s : GoString) (h : isSpace c = false) : skipSpace (c :: s) = c :: s := by
  simp [skipSpace, h]

theorem skipSpace_quote (s r : GoString) : skipSpace (quote s ++ r) = quote s ++ r := rfl

/-- A string value of valid UTF-8 reads back, and decoding resumes after it. -/
theorem parseValue_quote (fuel depth : Nat) {s : GoString} (hv : validString s = true) (rest : GoString) :
    parseValue (fuel + 1) depth (quote s ++ rest) = .ok (.string s, rest) := by
  simp only [quote, List.cons_append, List.append_assoc, List.singleton_append, List.nil_append]
  rw [parseValue, skipSpace_cons _ (rfl : isSpace 0x22 = false)]
  simp only [if_neg (show (0x22 : UInt8) ≠ 0x7B by decide), if_neg (show (0x22 : UInt8) ≠ 0x5B by decide),
    if_true, stringBody_escape s hv rest]
  rfl

/-- The elements of an array of strings from the first one on: each after a
comma but the first, then `]`. -/
theorem parseElems_strings (depth : Nat) :
    ∀ (xs : List GoString) (x : GoString) (acc : List Value) (fuel : Nat) (rest : GoString),
      validString x = true → (∀ y ∈ xs, validString y = true) → xs.length + 2 ≤ fuel →
      parseElems fuel depth acc (quote x ++ (marshalElemsTail (xs.map .string) ++ 0x5D :: rest)) =
        .ok (.array (acc.reverse ++ (x :: xs).map .string), rest)
  | [], x, acc, fuel + 2, rest, hx, _, _ => by
    rw [List.map_nil, marshalElemsTail, List.nil_append, parseElems, parseValue_quote _ _ hx]
    dsimp only
    rw [skipSpace_cons _ (rfl : isSpace 0x5D = false)]
    simp
  | y :: xs, x, acc, fuel + 1, rest, hx, hxs, hf => by
    obtain ⟨f, rfl⟩ : ∃ f, fuel = f + 1 := ⟨fuel - 1, by simp at hf; omega⟩
    rw [List.map_cons, marshalElemsTail, parseElems, parseValue_quote _ _ hx]
    dsimp only
    simp only [List.cons_append, List.append_assoc]
    rw [skipSpace_cons _ (rfl : isSpace 0x2C = false), show marshal (.string y) = quote y from rfl]
    refine (parseElems_strings depth xs y (.string x :: acc) (f + 1) rest (hxs y (List.mem_cons_self y xs))
      (fun z hz => hxs z (List.mem_cons_of_mem y hz)) (by simp at hf; omega)).trans ?_
    simp

/-- The text of a `[]string` of valid UTF-8, and decoding resumes after it. -/
theorem parseValue_marshal_strings (L : List GoString) (hv : ∀ x ∈ L, validString x = true)
    (fuel depth : Nat) (hd : depth < maxNestingDepth) (hf : L.length + 1 ≤ fuel) (rest : GoString) :
    parseValue (fuel + 1) depth (marshal (.array (L.map .string)) ++ rest) = .ok (.array (L.map .string), rest) := by
  simp only [marshal, List.cons_append, List.append_assoc, List.singleton_append]
  rw [parseValue, skipSpace_cons _ (rfl : isSpace 0x5B = false)]
  simp only [if_neg (show (0x5B : UInt8) ≠ 0x7B by decide), if_true, if_neg (show ¬ maxNestingDepth ≤ depth by omega)]
  rcases L with _ | ⟨x, xs⟩
  · rfl
  · obtain ⟨f, rfl⟩ : ∃ f, fuel = f + 1 := ⟨fuel - 1, by simp at hf; omega⟩
    rw [List.map_cons, marshalElems, List.append_assoc, show marshal (.string x) = quote x from rfl,
      skipSpace_quote]
    exact parseElems_strings (depth + 1) xs x [] (f + 1) rest (hv x (List.mem_cons_self x xs))
      (fun y hy => hv y (List.mem_cons_of_mem x hy)) (by simp at hf; omega)

theorem length_marshalElemsTail_strings : ∀ xs : List GoString,
    xs.length ≤ (marshalElemsTail (xs.map .string)).length
  | [] => le_rfl
  | y :: xs => by
    simp only [List.map_cons, marshalElemsTail, marshal, quote, List.length_cons, List.length_append]
    have := length_marshalElemsTail_strings xs
    omega

theorem length_marshal_strings (L : List GoString) : L.length + 1 ≤ (marshal (.array (L.map .string))).length := by
  rcases L with _ | ⟨x, xs⟩
  · simp [marshal, marshalElems]
  · have := length_marshalElemsTail_strings xs
    simp only [List.map_cons, marshal, marshalElems, quote, List.length_cons, List.length_append]
    omega

/-- `json.Unmarshal` into a `[]string` reads back the text `json.Marshal`
writes for a `[]string` of valid UTF-8. -/
theorem unmarshalStrings_marshal (L : List GoString) (hv : ∀ x ∈ L, validString x = true) :
    unmarshalStrings (marshal (.array (L.map .string))) = .ok L := by
  have h := parseValue_marshal_strings L hv _ 0 (by decide) (length_marshal_strings L) []
  rw [List.append_nil] at h
  rw [unmarshalStrings, unmarshal, h]
  simp only [skipSpace]
  clear h hv
  induction L with
  | nil => rfl
  | cons x xs ih => rw [List.map_cons, List.mapM_cons, ih]; rfl

/-! ### What decodes into a `[]string` -/

theorem map_eq_ok {α β ε : Type} {f : α → β} {x : Except ε α} {b : β} (h : x.map f = .ok b) :
    ∃ a, x = .ok a ∧ f a = b := by
  cases x <;> simp_all [Except.map]

theorem literalRest_ok {word : GoString} : ∀ {ws s r : GoString}, literalRest word ws s = .ok r → s = ws ++ r
  | [], s, r, h => by cases h; rfl
  | _ :: _, [], _, h => by cases h
  | w :: ws, c :: s, r, h => by
    rw [literalRest] at h
    split_ifs at h with hc
    rw [hc, literalRest_ok h]; rfl

theorem parseElems_array {depth : Nat} : ∀ {fuel : Nat} {acc : List Value} {s r : GoString} {v : Value},
    parseElems fuel depth acc s = .ok (v, r) → ∃ xs, v = .array xs
  | 0, _, _, _, _, h => by cases h
  | fuel + 1, acc, s, r, v, h => by
    rw [parseElems] at h
    repeat' split at h
    all_goals first | (cases h; done) | (cases h; exact ⟨_, rfl⟩) | exact parseElems_array h

theorem parseMembers_object {depth : Nat} : ∀ {fuel : Nat} {acc : List (GoString × Value)} {s r : GoString}
    {v : Value}, parseMembers fuel depth acc s = .ok (v, r) → ∃ kvs, v = .object kvs
  | 0, _, _, _, _, h => by cases h
  | fuel + 1, acc, s, r, v, h => by
    rw [parseMembers] at h
    repeat' split at h
    all_goals first | (cases h; done) | (cases h; exact ⟨_, rfl⟩) | exact parseMembers_object h

/-- `parseValue` reads an array only where the first byte past white space is
`[`, and `null` only from the literal `null`. -/
theorem parseValue_ok_cases {fuel depth : Nat} {s r : GoString} {v : Value}
    (h : parseValue fuel depth s = .ok (v, r)) :
    ((∃ xs, v = .array xs) → ∃ t, skipSpace s = 0x5B :: t) ∧ (v = .null → skipSpace s = lit "null" ++ r) := by
  cases fuel with
  | zero => cases h
  | succ fuel =>
  rw [parseValue] at h
  split at h
  · cases h
  rename_i c rest hs
  rw [hs]
  by_cases h7B : c = 0x7B
  · rw [if_pos h7B] at h
    have : ∃ kvs, v = .object kvs := by
      split_ifs at h
      split at h
      · cases h; exact ⟨_, rfl⟩
      · exact parseMembers_object h
    obtain ⟨kvs, rfl⟩ := this
    exact ⟨(fun ⟨_, h⟩ => nomatch h), fun h => nomatch h⟩
  rw [if_neg h7B] at h
  by_cases h5B : c = 0x5B
  · rw [if_pos h5B] at h
    have : ∃ xs, v = .array xs := by
      split_ifs at h
      split at h
      · cases h; exact ⟨_, rfl⟩
      · exact parseElems_array h
    obtain ⟨xs, rfl⟩ := this
    exact ⟨fun _ => ⟨rest, by rw [h5B]⟩, fun h => nomatch h⟩
  rw [if_neg h5B] at h
  split_ifs at h with h22 hnum h74 h66 h6E
  all_goals
    obtain ⟨a, ha, he⟩ := map_eq_ok h
    cases he
    refine ⟨(fun ⟨_, h⟩ => nomatch h), fun h => ?_⟩
  all_goals try cases h
  rw [h6E, literalRest_ok ha]
  rfl

/-- Only `null` and arrays decode into a `[]string`. -/
theorem unmarshalStrings_ok_cases {s : GoString} {names : List GoString} (h : unmarshalStrings s = .ok names) :
    (∃ t, skipSpace s = 0x5B :: t) ∨ ∃ r, skipSpace s = lit "null" ++ r ∧ skipSpace r = [] := by
  unfold unmarshalStrings at h
  rcases hu : unmarshal s with e | v <;> rw [hu] at h
  · cases h
  unfold unmarshal at hu
  split at hu
  · cases hu
  rename_i v' r hp
  split at hu
  · rename_i hr
    cases hu
    obtain ⟨ha, hn⟩ := parseValue_ok_cases hp
    cases v with
    | null => exact .inr ⟨r, hn rfl, hr⟩
    | array xs => exact .inl (ha ⟨xs, rfl⟩)
    | _ => cases h
  · cases hu

/-- JSON white space is ASCII and white space to `unicode.IsSpace`. -/
theorem isSpace_ascii {c : UInt8} (h : isSpace c = true) : c < 0x80 ∧ isSpaceRune c.toNat = true := by
  simp only [isSpace, Bool.or_eq_true, decide_eq_true_eq] at h
  rcases h with ((rfl | rfl) | rfl) | rfl <;> decide

theorem isSpace_of_skipSpace_eq_nil : ∀ {r : GoString}, skipSpace r = [] → ∀ c ∈ r, isSpace c = true
  | [], _ => fun _ h => nomatch h
  | c :: r, h => by
    rw [skipSpace] at h
    split_ifs at h with hc
    intro d hd
    rcases List.mem_cons.1 hd with rfl | hd
    · exact hc
    · exact isSpace_of_skipSpace_eq_nil h d hd

/-- Text that `strings.TrimSpace` leaves alone does not start with JSON white space. -/
theorem isSpace_eq_false_of_trimSpace {b : UInt8} {t : GoString} (h : trimSpace (b :: t) = b :: t) :
    isSpace b = false := by
  by_contra hb
  obtain ⟨h1, h2⟩ := isSpace_ascii (Bool.not_eq_false _ ▸ hb)
  have := length_trimSpace_le t
  rw [← trimSpace_cons_space t h1 h2, h, List.length_cons] at this
  omega

end Ofelia.Json