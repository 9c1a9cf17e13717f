import Ofelia.Json.RoundTrip

/-! `json.Unmarshal` reads back every value `json.Marshal` writes, when the
value is one the decoder can build: its strings and keys are valid UTF-8, its
numbers are literals the scanner reads whole, the keys of each object are in
strictly increasing order (the order a Go map is marshalled in), and its
nesting stays within `maxNestingDepth`. The decoded value is the value itself.

Reading a value never looks past its last byte, except that a number literal is
ended by the byte after it, which in marshalled text is `,`, `]`, `}` or the end
of the input. -/

namespace Ofelia.Json

/-! ### Number literals -/

/-- Bytes that cannot continue a number literal: the scanner ends one there. -/
def EndsNumber (z : GoString) : Prop :=
  ∀ c ∈ z.head?, isDigit c = false ∧ c ≠ 0x2E ∧ c ≠ 0x65 ∧ c ≠ 0x45

instance (z : GoString) : Decidable (EndsNumber z) := by
  unfold EndsNumber; infer_instance

section

variable {z : GoString} (hz : EndsNumber z)
include hz

theorem digits_append : ∀ {s d r : GoString}, digits s = (d, r) → digits (s ++ z) = (d, r ++ z)
  | [], d, r, h => by
    cases h
    cases z with
    | nil => rfl
    | cons c z => simp [digits, (hz c rfl).1]
  | c :: s, d, r, h => by
    rw [List.cons_append]
    simp only [digits] at h ⊢
    split_ifs at h ⊢ with hc
    · rcases hs : digits s with ⟨d', r'⟩
      rw [hs] at h
      cases h
      rw [digits_append hs]
    · cases h; rfl

theorem someDigits_append {context s d r : GoString} (h : someDigits context s = .ok (d, r)) :
    someDigits context (s ++ z) = .ok (d, r ++ z) := by
  cases s with
  | nil => cases h
  | cons c s =>
    rw [List.cons_append]
    simp only [someDigits] at h ⊢
    split_ifs at h ⊢ with hc
    rcases hs : digits s with ⟨d', r'⟩
    rw [hs] at h
    cases h
    rw [digits_append hz hs]

theorem exponentPart_append {s x r : GoString} (h : exponentPart s = .ok (x, r)) :
    exponentPart (s ++ z) = .ok (x, r ++ z) := by
  rcases s with _ | ⟨e, s⟩
  · cases h
    cases z with
    | nil => rfl
    | cons c z =>
      obtain ⟨-, -, he, hE⟩ := hz c rfl
      simp [exponentPart, he, hE]
  · rw [List.cons_append]
    simp only [exponentPart] at h ⊢
    split_ifs at h ⊢ with he
    · rcases s with _ | ⟨sg, s⟩
      · cases h
      · simp only [List.cons_append] at h ⊢
        split_ifs at h ⊢ with hsg
        · obtain ⟨⟨d, r'⟩, hd, he'⟩ := map_eq_ok h
          cases he'
          rw [someDigits_append hz hd]
          rfl
        · obtain ⟨⟨d, r'⟩, hd, he'⟩ := map_eq_ok h
          cases he'
          rw [← List.cons_append, someDigits_append hz hd]
          rfl
    · cases h; rfl

theorem numberTail_append {s t r : GoString} (h : numberTail s = .ok (t, r)) :
    numberTail (s ++ z) = .ok (t, r ++ z) := by
  by_cases hd : ∃ s', s = 0x2E :: s'
  · obtain ⟨s, rfl⟩ := hd
    simp only [numberTail, bind, Except.bind, List.cons_append] at h ⊢
    split at h
    · cases h
    rename_i f hf
    rw [someDigits_append hz hf]
    dsimp only
    split at h
    · cases h
    rename_i x hx
    rw [exponentPart_append hz hx]
    simp only [pure, Except.pure, Except.ok.injEq, Prod.mk.injEq] at h ⊢
    exact ⟨h.1, by rw [h.2]⟩
  · push_neg at hd
    rw [numberTail.eq_2 s fun s' e => hd s' e] at h
    rw [numberTail.eq_2 _ fun s' e => ?_, exponentPart_append hz h]
    rcases s with _ | ⟨c, s⟩
    · rw [List.nil_append] at e
      exact (hz 0x2E (by simp [e])).2.1 rfl
    · cases e
      exact hd s rfl

theorem integerPart_append {s i r : GoString} (h : integerPart s = .ok (i, r)) :
    integerPart (s ++ z) = .ok (i, r ++ z) := by
  rcases s with _ | ⟨d, s⟩
  · cases h
  · by_cases h0 : d = 0x30
    · subst h0
      simp only [integerPart, Except.ok.injEq, Prod.mk.injEq] at h
      rw [← h.1, ← h.2]
      rfl
    · rw [integerPart.eq_2 d s h0] at h
      rw [List.cons_append, integerPart.eq_2 d _ h0]
      split_ifs at h ⊢
      rcases hs : digits s with ⟨ds, r'⟩
      rw [hs] at h
      cases h
      rw [digits_append hz hs]

omit hz in
theorem bind_eq_ok {α β ε : Type} {x : Except ε α} {f : α → Except ε β} {b : β}
    (h : x.bind f = .ok b) : ∃ a, x = .ok a ∧ f a = .ok b := by
  cases x <;> simp_all [Except.bind]

omit hz in
theorem numberLiteral_minus (s : GoString) : numberLiteral (0x2D :: s) =
    (integerPart s).bind fun p => (numberTail p.2).bind fun q => .ok (0x2D :: p.1 ++ q.1, q.2) := rfl

omit hz in
theorem numberLiteral_of_ne {c : UInt8} (hc : c ≠ 0x2D) (s : GoString) : numberLiteral (c :: s) =
    (integerPart (c :: s)).bind fun p => (numberTail p.2).bind fun q => .ok (p.1 ++ q.1, q.2) := by
  unfold numberLiteral
  split
  rename_i heq
  split at heq
  · rename_i heq'
    cases heq'
    exact absurd rfl hc
  · cases heq
    rfl

/-- The scanner reads a number literal up to the first byte that cannot continue it. -/
theorem numberLiteral_append {s n r : GoString} (h : numberLiteral s = .ok (n, r)) :
    numberLiteral (s ++ z) = .ok (n, r ++ z) := by
  have key : ∀ (sign t : GoString), ((integerPart t).bind fun p => (numberTail p.2).bind fun q =>
      (.ok (sign ++ p.1 ++ q.1, q.2) : Except DecodeError (GoString × GoString))) = .ok (n, r) →
      ((integerPart (t ++ z)).bind fun p => (numberTail p.2).bind fun q =>
      (.ok (sign ++ p.1 ++ q.1, q.2) : Except DecodeError (GoString × GoString))) = .ok (n, r ++ z) := by
    intro sign t h
    obtain ⟨⟨i, r₁⟩, hi, h⟩ := bind_eq_ok h
    obtain ⟨⟨u, r₂⟩, ht, h⟩ := bind_eq_ok h
    cases h
    simp only [integerPart_append hz hi, Except.bind, numberTail_append hz ht]
  rcases s with _ | ⟨c, s⟩
  · cases h
  · by_cases hc : c = 0x2D
    · subst hc
      rw [List.cons_append, numberLiteral_minus] at *
      exact key [0x2D] s h
    · rw [List.cons_append, numberLiteral_of_ne hc] at *
      exact key [] (c :: s) h

omit hz in
/-- A number literal read whole starts with `-` or a digit. -/
theorem numberLiteral_head {s n : GoString} (h : numberLiteral s = .ok (n, [])) :
    ∃ c t, s = c :: t ∧ (c = 0x2D ∨ isDigit c = true) := by
  rcases s with _ | ⟨c, t⟩
  · cases h
  · refine ⟨c, t, rfl, ?_⟩
    by_cases hc : c = 0x2D
    · exact .inl hc
    · rw [numberLiteral_of_ne hc] at h
      obtain ⟨⟨i, r⟩, hi, -⟩ := bind_eq_ok h
      by_cases h0 : c = 0x30
      · subst h0; exact .inr rfl
      · rw [integerPart.eq_2 c t h0] at hi
        split_ifs at hi with hd
        exact .inr hd

end

/-- A byte of a number literal: a digit, a sign, the point or an exponent mark. -/
def isNumberByte (c : UInt8) : Bool :=
  isDigit c || c = 0x2D || c = 0x2B || c = 0x2E || c = 0x65 || c = 0x45

theorem digits_bytes : ∀ {s d r : GoString}, digits s = (d, r) → ∀ c ∈ d, isDigit c = true
  | [], _, _, h => by cases h; simp
  | c :: s, _, _, h => by
    simp only [digits] at h
    split_ifs at h with hc
    · rcases hs : digits s with ⟨d', r'⟩
      rw [hs] at h
      cases h
      exact List.forall_mem_cons.2 ⟨hc, digits_bytes hs⟩
    · cases h; simp

theorem someDigits_bytes {context s d r : GoString} (h : someDigits context s = .ok (d, r)) :
    ∀ c ∈ d, isDigit c = true := by
  rcases s with _ | ⟨c, s⟩
  · cases h
  · simp only [someDigits] at h
    split_ifs at h with hc
    rcases hs : digits s with ⟨d', r'⟩
    rw [hs] at h
    cases h
    exact List.forall_mem_cons.2 ⟨hc, digits_bytes hs⟩

theorem isNumberByte_of_isDigit {c : UInt8} (h : isDigit c = true) : isNumberByte c = true := by
  simp [isNumberByte, h]

theorem exponentPart_bytes {s x r : GoString} (h : exponentPart s = .ok (x, r)) :
    ∀ c ∈ x, isNumberByte c = true := by
  rcases s with _ | ⟨e, s⟩
  · cases h; simp
  · simp only [exponentPart] at h
    split_ifs at h with he
    · have he' : isNumberByte e = true := by rcases he with rfl | rfl <;> rfl
      rcases s with _ | ⟨sg, s⟩
      · cases h
      · simp only at h
        split_ifs at h with hsg
        · obtain ⟨⟨d, r'⟩, hd, he''⟩ := map_eq_ok h
          cases he''
          have hsg' : isNumberByte sg = true := by rcases hsg with rfl | rfl <;> rfl
          exact List.forall_mem_cons.2 ⟨he', List.forall_mem_cons.2 ⟨hsg',
            fun c hc => isNumberByte_of_isDigit (someDigits_bytes hd c hc)⟩⟩
        · obtain ⟨⟨d, r'⟩, hd, he''⟩ := map_eq_ok h
          cases he''
          exact List.forall_mem_cons.2 ⟨he', fun c hc => isNumberByte_of_isDigit (someDigits_bytes hd c hc)⟩
    · cases h; simp

theorem numberTail_bytes {s t r : GoString} (h : numberTail s = .ok (t, r)) : ∀ c ∈ t, isNumberByte c = true := by
  by_cases hd : ∃ s', s = 0x2E :: s'
  · obtain ⟨s, rfl⟩ := hd
    obtain ⟨⟨f, r₁⟩, hf, h⟩ := bind_eq_ok h
    obtain ⟨⟨x, r₂⟩, hx, h⟩ := bind_eq_ok h
    cases h
    intro c hc
    simp only [List.cons_append, List.mem_cons, List.mem_append] at hc
    rcases hc with rfl | hc | hc
    · rfl
    · exact isNumberByte_of_isDigit (someDigits_bytes hf c hc)
    · exact exponentPart_bytes hx c hc
  · push_neg at hd
    rw [numberTail.eq_2 s fun s' e => hd s' e] at h
    exact exponentPart_bytes h

theorem integerPart_bytes {s i r : GoString} (h : integerPart s = .ok (i, r)) : ∀ c ∈ i, isDigit c = true := by
  rcases s with _ | ⟨d, s⟩
  · cases h
  · by_cases h0 : d = 0x30
    · subst h0
      simp only [integerPart, Except.ok.injEq, Prod.mk.injEq] at h
      rw [← h.1]
      decide
    · rw [integerPart.eq_2 d s h0] at h
      split_ifs at h with hd
      rcases hs : digits s with ⟨ds, r'⟩
      rw [hs] at h
      cases h
      exact List.forall_mem_cons.2 ⟨hd, digits_bytes hs⟩

/-- The bytes of a number literal are digits, signs, points and exponent marks. -/
theorem numberLiteral_bytes {s n r : GoString} (h : numberLiteral s = .ok (n, r)) :
    ∀ c ∈ n, isNumberByte c = true := by
  have key : ∀ (sign t : GoString), (∀ c ∈ sign, isNumberByte c = true) →
      ((integerPart t).bind fun p => (numberTail p.2).bind fun q =>
        (.ok (sign ++ p.1 ++ q.1, q.2) : Except DecodeError (GoString × GoString))) = .ok (n, r) →
      ∀ c ∈ n, isNumberByte c = true := by
    intro sign t hs h
    obtain ⟨⟨i, r₁⟩, hi, h⟩ := bind_eq_ok h
    obtain ⟨⟨u, r₂⟩, ht, h⟩ := bind_eq_ok h
    cases h
    intro c hc
    simp only [List.mem_append] at hc
    rcases hc with (hc | hc) | hc
    · exact hs c hc
    · exact isNumberByte_of_isDigit (integerPart_bytes hi c hc)
    · exact numberTail_bytes ht c hc
  rcases s with _ | ⟨c, s⟩
  · cases h
  · by_cases hc : c = 0x2D
    · subst hc
      rw [numberLiteral_minus] at h
      exact key [0x2D] s (by decide) h
    · rw [numberLiteral_of_ne hc] at h
      exact key [] (c :: s) (by simp) h

/-! ### Objects -/

theorem strLt_irrefl : ∀ s : GoString, strLt s s = false
  | [] => rfl
  | a :: s => by simp [strLt, strLt_irrefl s]

theorem strLt_asymm : ∀ {s t : GoString}, strLt s t = true → strLt t s = false
  | [], [], h => by cases h
  | [], _ :: _, _ => rfl
  | _ :: _, [], h => by cases h
  | a :: s, b :: t, h => by
    simp only [strLt, Bool.or_eq_true, Bool.and_eq_true, decide_eq_true_eq] at h
    rcases h with h | ⟨rfl, h⟩
    · have h' : a.toNat < b.toNat := h
      simp only [strLt, Bool.or_eq_false_iff, decide_eq_false_iff_not, Bool.and_eq_false_iff]
      exact ⟨fun e => absurd (show b.toNat < a.toNat from e) (by omega),
        .inl fun e => by subst e; omega⟩
    · simp [strLt, strLt_asymm h]

/-- A key greater than every key of the map goes to its end. -/
theorem insertMember_of_lt (k : GoString) (v : Value) : ∀ acc : List (GoString × Value),
    (∀ p ∈ acc, strLt p.1 k = true) → insertMember k v acc = acc ++ [(k, v)]
  | [], _ => rfl
  | (k', v') :: acc, h => by
    have h1 := h (k', v') (List.mem_cons_self _ _)
    have hne : k ≠ k' := fun e => by rw [e, strLt_irrefl] at h1; cases h1
    rw [insertMember, if_neg hne, if_neg (by rw [strLt_asymm h1]; decide),
      insertMember_of_lt k v acc fun p hp => h p (List.mem_cons_of_mem _ hp)]
    rfl

/-! ### Values the decoder builds -/

mutual
/-- A value `json.Unmarshal` builds when it meets the value at nesting depth
`depth`: strings and keys of valid UTF-8, number literals read whole, keys in
strictly increasing order, and no deeper nesting than `maxNestingDepth`. -/
def decodable (depth : Nat) : Value → Bool
  | .null | .bool _ => true
  | .number n => decide (numberLiteral n = .ok (n, []))
  | .string s => validString s
  | .array xs => decide (depth < maxNestingDepth) && decodableElems (depth + 1) xs
  | .object kvs => decide (depth < maxNestingDepth) &&
      decide ((kvs.map (·.1)).Pairwise fun a b => strLt a b = true) && decodableMembers (depth + 1) kvs

def decodableElems (depth : Nat) : List Value → Bool
  | [] => true
  | x :: xs => decodable depth x && decodableElems depth xs

def decodableMembers (depth : Nat) : List (GoString × Value) → Bool
  | [] => true
  | (k, v) :: kvs => validString k && decodable depth v && decodableMembers depth kvs
end

example : decodable 0 (.object [(lit "a", .array [.number (lit "-1.5e3"), .null]), (lit "b", .bool true)]) = true ∧
    decodable 0 (.object [(lit "b", .null), (lit "a", .null)]) = false ∧ decodable 0 (.number (lit "01")) = false := by
  decide

/-- Bytes that may follow a value in marshalled text. -/
def EndsValue (z : GoString) : Prop := ∀ c ∈ z.head?, c = 0x2C ∨ c = 0x5D ∨ c = 0x7D

theorem EndsValue.endsNumber {z : GoString} (h : EndsValue z) : EndsNumber z := by
  intro c hc
  rcases h c hc with rfl | rfl | rfl <;> decide

/-- The first byte of a number literal is none of the bytes that start
another kind of value or end one, and not white space. -/
theorem numberStart_ne {c : UInt8} (h : c = 0x2D ∨ isDigit c = true) :
    c ≠ 0x7B ∧ c ≠ 0x5B ∧ c ≠ 0x22 ∧ isSpace c = false ∧ c ≠ 0x5D ∧ c ≠ 0x7D := by
  rcases h with rfl | h
  · decide
  simp only [isSpace, Bool.or_eq_false_iff, decide_eq_false_iff_not]
  refine ⟨?_, ?_, ?_, ⟨⟨⟨?_, ?_⟩, ?_⟩, ?_⟩, ?_, ?_⟩ <;> rintro rfl <;> exact absurd h (by decide)

/-- The first byte of a value the decoder builds is not white space and does
not close an array or an object. -/
theorem marshal_head {depth : Nat} {v : Value} (hv : decodable depth v = true) :
    ∃ c t, marshal v = c :: t ∧ isSpace c = false ∧ c ≠ 0x5D ∧ c ≠ 0x7D := by
  cases v with
  | number n =>
    obtain ⟨c, t, rfl, hc⟩ := numberLiteral_head (of_decide_eq_true (by simpa [decodable] using hv))
    exact ⟨c, t, rfl, (numberStart_ne hc).2.2.2⟩
  | bool b => cases b <;> exact ⟨_, _, rfl, by decide⟩
  | null => exact ⟨_, _, rfl, by decide⟩
  | string s => exact ⟨_, _, rfl, by decide⟩
  | array xs => exact ⟨_, _, rfl, by decide⟩
  | object kvs => exact ⟨_, _, rfl, by decide⟩

theorem endsValue_elemsTail (xs : List Value) (rest : GoString) :
    EndsValue (marshalElemsTail xs ++ 0x5D :: rest) := by
  cases xs <;> simp [EndsValue, marshalElemsTail]

theorem endsValue_membersTail (kvs : List (GoString × Value)) (rest : GoString) :
    EndsValue (marshalMembersTail kvs ++ 0x7D :: rest) := by
  cases kvs <;> simp [EndsValue, marshalMembersTail]

/-! ### Reading back -/

mutual
/-- The text `json.Marshal` writes for a value the decoder builds reads back as
that value, and decoding resumes after it. -/
theorem parseValue_marshal : ∀ (v : Value) (depth fuel : Nat) (rest : GoString),
    decodable depth v = true → (marshal v).length < fuel → EndsValue rest →
    parseValue fuel depth (marshal v ++ rest) = .ok (v, rest)
  | _, _, 0, _, _, hf, _ => absurd hf (Nat.not_lt_zero _)
  | .null, _, _ + 1, _, _, _, _ => rfl
  | .bool true, _, _ + 1, _, _, _, _ => rfl
  | .bool false, _, _ + 1, _, _, _, _ => rfl
  | .number n, _, _ + 1, rest, hv, _, hr => by
    have hn : numberLiteral n = .ok (n, []) := of_decide_eq_true hv
    obtain ⟨c, t, rfl, hc⟩ := numberLiteral_head hn
    obtain ⟨h1, h2, h3, h4, -⟩ := numberStart_ne hc
    have hl := numberLiteral_append hr.endsNumber hn
    rw [List.nil_append] at hl
    rw [marshal, List.cons_append, parseValue, skipSpace_cons _ h4]
    simp only [if_neg h1, if_neg h2, if_neg h3, if_pos hc, ← List.cons_append, hl]
    rfl
  | .string s, _, fuel + 1, rest, hv, _, _ => parseValue_quote fuel _ hv rest
  | .array xs, depth, fuel + 1, rest, hv, hf, _ => by
    simp only [decodable, Bool.and_eq_true, decide_eq_true_eq] at hv
    simp only [marshal, List.cons_append, List.append_assoc, List.singleton_append, List.length_cons,
      List.length_append, List.length_nil] at hf ⊢
    rw [parseValue, skipSpace_cons _ (rfl : isSpace 0x5B = false)]
    simp only [if_neg (show (0x5B : UInt8) ≠ 0x7B by decide), if_true, if_neg (not_le.2 hv.1)]
    rcases xs with _ | ⟨x, xs⟩
    · rfl
    · obtain ⟨hx, -⟩ : decodable (depth + 1) x = true ∧ _ := by
        simpa only [decodableElems, Bool.and_eq_true] using hv.2
      obtain ⟨c, t, hm, hs, h5D, -⟩ := marshal_head hx
      have e := parseElems_marshal (x :: xs) [] (depth + 1) fuel rest (List.cons_ne_nil _ _) hv.2 (by omega)
      rw [marshalElems, hm, List.cons_append, List.cons_append] at e ⊢
      rw [skipSpace_cons _ hs]
      split
      · rename_i heq
        exact absurd (List.cons.inj heq).1 h5D
      · simpa using e
  | .object kvs, depth, fuel + 1, rest, hv, hf, _ => by
    simp only [decodable, Bool.and_eq_true, decide_eq_true_eq] at hv
    simp only [marshal, List.cons_append, List.append_assoc, List.singleton_append, List.length_cons,
      List.length_append, List.length_nil] at hf ⊢
    rw [parseValue, skipSpace_cons _ (rfl : isSpace 0x7B = false)]
    simp only [if_true, if_neg (not_le.2 hv.1.1)]
    rcases kvs with _ | ⟨⟨k, v⟩, kvs⟩
    · rfl
    · have e := parseMembers_marshal ((k, v) :: kvs) [] (depth + 1) fuel rest (List.cons_ne_nil _ _) hv.2
        (by simpa using hv.1.2) (by omega)
      simp only [List.nil_append, marshalMembers, quote, List.cons_append, List.append_assoc,
        List.singleton_append] at e ⊢
      rw [skipSpace_cons _ (rfl : isSpace 0x22 = false)]
      simpa using e

/-- The elements of an array from the first one on, then `]`. -/
theorem parseElems_marshal : ∀ (l acc : List Value) (depth fuel : Nat) (rest : GoString),
    l ≠ [] → decodableElems depth l = true → (marshalElems l).length + 1 < fuel →
    parseElems fuel depth acc (marshalElems l ++ 0x5D :: rest) = .ok (.array (acc.reverse ++ l), rest)
  | [], _, _, _, _, hl, _, _ => absurd rfl hl
  | _ :: _, _, _, 0, _, _, _, hf => absurd hf (Nat.not_lt_zero _)
  | x :: xs, acc, depth, fuel + 1, rest, _, hv, hf => by
    simp only [decodableElems, Bool.and_eq_true] at hv
    simp only [marshalElems, List.length_append] at hf
    rw [marshalElems, List.append_assoc, parseElems,
      parseValue_marshal x depth fuel _ hv.1 (by omega) (endsValue_elemsTail xs rest)]
    dsimp only
    by_cases hxs : xs = []
    · subst hxs
      rw [marshalElemsTail, List.nil_append, skipSpace_cons _ (rfl : isSpace 0x5D = false)]
      simp
    · have ih := parseElems_marshal xs (x :: acc) depth fuel rest hxs hv.2 (by
        obtain ⟨y, ys, rfl⟩ := List.exists_cons_of_ne_nil hxs
        simp only [marshalElemsTail, marshalElems, List.length_cons, List.length_append] at hf ⊢
        omega)
      obtain ⟨y, ys, rfl⟩ := List.exists_cons_of_ne_nil hxs
      rw [marshalElems, List.append_assoc] at ih
      simp only [marshalElemsTail, List.cons_append, List.append_assoc]
      rw [skipSpace_cons _ (rfl : isSpace 0x2C = false)]
      simp only [ih, List.reverse_cons, List.append_assoc, List.singleton_append]

/-- The members of an object from the first one on, then `}`; keys in
increasing order are stored at the end of the map. -/
theorem parseMembers_marshal : ∀ (l acc : List (GoString × Value)) (depth fuel : Nat) (rest : GoString),
    l ≠ [] → decodableMembers depth l = true →
    ((acc ++ l).map (·.1)).Pairwise (fun a b => strLt a b = true) → (marshalMembers l).length < fuel →
    parseMembers fuel depth acc (marshalMembers l ++ 0x7D :: rest) = .ok (.object (acc ++ l), rest)
  | [], _, _, _, _, hl, _, _, _ => absurd rfl hl
  | _ :: _, _, _, 0, _, _, _, _, hf => absurd hf (Nat.not_lt_zero _)
  | (k, v) :: kvs, acc, depth, fuel + 1, rest, _, hv, hs, hf => by
    simp only [decodableMembers, Bool.and_eq_true] at hv
    obtain ⟨⟨hk, hv⟩, hkvs⟩ := hv
    have hlt : ∀ p ∈ acc, strLt p.1 k = true := fun p hp =>
      (List.pairwise_append.1 (List.map_append _ _ _ ▸ hs)).2.2 _ (List.mem_map_of_mem _ hp) _
        (List.mem_cons_self _ _)
    simp only [marshalMembers, quote, List.length_append, List.length_cons] at hf
    simp only [marshalMembers, quote, List.cons_append, List.append_assoc, List.singleton_append]
    rw [parseMembers, skipSpace_cons _ (rfl : isSpace 0x22 = false)]
    simp only [List.nil_append, stringBody_escape k hk]
    rw [skipSpace_cons _ (rfl : isSpace 0x3A = false)]
    simp only [parseValue_marshal v depth fuel _ hv (by omega) (endsValue_membersTail kvs rest)]
    rw [insertMember_of_lt k v acc hlt]
    by_cases hkvs' : kvs = []
    · subst hkvs'
      rw [marshalMembersTail, List.nil_append, skipSpace_cons _ (rfl : isSpace 0x7D = false)]
      simp only []
    · have ih := parseMembers_marshal kvs (acc ++ [(k, v)]) depth fuel rest hkvs' hkvs (by simpa using hs) (by
        obtain ⟨⟨k', v'⟩, ys, rfl⟩ := List.exists_cons_of_ne_nil hkvs'
        simp only [marshalMembersTail, marshalMembers, List.length_cons, List.length_append] at hf ⊢
        omega)
      obtain ⟨⟨k', v'⟩, ys, rfl⟩ := List.exists_cons_of_ne_nil hkvs'
      simp only [marshalMembers, quote, List.cons_append, List.append_assoc, List.singleton_append,
        List.nil_append] at ih
      simp only [marshalMembersTail, quote, List.cons_append, List.append_assoc, List.singleton_append,
        List.nil_append]
      rw [skipSpace_cons _ (rfl : isSpace 0x2C = false)]
      simp only [ih]
end

/-- `json.Unmarshal` reads back every value `json.Marshal` writes, when the
value is one the decoder builds: numbers in JSON syntax, the keys of each
object in increasing order, and nesting within the decoder's bound. -/
theorem unmarshal_marshal (v : Value) (hv : decodable 0 v = true) : unmarshal (marshal v) = .ok v := by
  have h := parseValue_marshal v 0 _ [] hv (Nat.lt_succ_self _) (by simp [EndsValue])
  rw [List.append_nil] at h
  rw [unmarshal, h]
  rfl

end Ofelia.Json
