import Ofelia.Json.Values

/-! The fuel of the decoder. `parseValue`, `parseElems` and `parseMembers`
count their nested calls down from a fuel, where Go's decoder recurses without
a bound. A call that succeeds needs at most one unit of fuel more than the
bytes it reads: each unit is spent on an opening bracket, a comma, or a key and
its colon, each read once. So the fuel `unmarshal` gives, one more than the
length of the text, never turns a document Go accepts into an error, and the
document decodes to the same value with any larger fuel.

A call that fails may run out of fuel before it reaches the byte Go reports:
an opening bracket costs two units and reads one byte, so text nested deeper
than half its length and left unterminated (`[[[[[x`) ends with an unexpected
end where Go names the invalid character. -/

namespace Ofelia.Json

/-! ### What the scanners read -/

theorem length_skipSpace_le : ∀ s : GoString, (skipSpace s).length ≤ s.length
  | [] => le_rfl
  | c :: s => by
    rw [skipSpace]
    split_ifs
    · exact (length_skipSpace_le s).trans (Nat.le_succ _)
    · exact le_rfl

theorem digits_eq : ∀ {s d r : GoString}, digits s = (d, r) → s = d ++ r
  | [], _, _, h => by cases h; rfl
  | c :: s, d, r, h => by
    rw [digits] at h
    split_ifs at h
    · rcases hd : digits s with ⟨d', r'⟩
      rw [hd] at h
      cases h
      rw [digits_eq hd]
      rfl
    · cases h
      rfl

theorem someDigits_eq {context s d r : GoString} (h : someDigits context s = .ok (d, r)) : s = d ++ r := by
  rcases s with _ | ⟨c, s⟩
  · cases h
  · rw [someDigits] at h
    split_ifs at h
    rcases hd : digits s with ⟨d', r'⟩
    rw [hd] at h
    cases h
    rw [digits_eq hd]
    rfl

theorem exponentPart_eq {s x r : GoString} (h : exponentPart s = .ok (x, r)) : s = x ++ r := by
  rcases s with _ | ⟨e, s⟩
  · cases h
    rfl
  · simp only [exponentPart] at h
    split_ifs at h
    · rcases s with _ | ⟨sg, s⟩
      · cases h
      · dsimp only at h
        split_ifs at h <;>
        · obtain ⟨⟨d, r'⟩, hd, he⟩ := map_eq_ok h
          cases he
          rw [someDigits_eq hd]
          rfl
    · cases h
      rfl

theorem numberTail_eq {s t r : GoString} (h : numberTail s = .ok (t, r)) : s = t ++ r := by
  by_cases hd : ∃ s', s = 0x2E :: s'
  · obtain ⟨s, rfl⟩ := hd
    simp only [numberTail, bind, Except.bind] at h
    split at h
    · cases h
    rename_i f hf
    split at h
    · cases h
    rename_i x hx
    simp only [pure, Except.pure, Except.ok.injEq, Prod.mk.injEq] at h
    rw [← h.1, ← h.2, someDigits_eq hf, exponentPart_eq hx]
    simp
  · push_neg at hd
    rw [numberTail.eq_2 s fun s' e => hd s' e] at h
    exact exponentPart_eq h

theorem integerPart_eq {s i r : GoString} (h : integerPart s = .ok (i, r)) : s = i ++ r := by
  rcases s with _ | ⟨d, s⟩
  · cases h
  · by_cases h0 : d = 0x30
    · subst h0
      simp only [integerPart, Except.ok.injEq, Prod.mk.injEq] at h
      rw [← h.1, ← h.2]
      rfl
    · rw [integerPart.eq_2 d s h0] at h
      split_ifs at h
      rcases hs : digits s with ⟨ds, r'⟩
      rw [hs] at h
      cases h
      rw [digits_eq hs]
      rfl

theorem numberLiteral_eq {s n r : GoString} (h : numberLiteral s = .ok (n, r)) : s = n ++ r := by
  rcases s with _ | ⟨c, s⟩
  · cases h
  · by_cases hc : c = 0x2D
    · subst hc
      rw [numberLiteral_minus] at h
      obtain ⟨⟨i, r₁⟩, hi, h⟩ := bind_eq_ok h
      obtain ⟨⟨t, r₂⟩, ht, h⟩ := bind_eq_ok h
      cases h
      dsimp only at ht ⊢
      rw [integerPart_eq hi, numberTail_eq ht]
      simp
    · rw [numberLiteral_of_ne hc] at h
      obtain ⟨⟨i, r₁⟩, hi, h⟩ := bind_eq_ok h
      obtain ⟨⟨t, r₂⟩, ht, h⟩ := bind_eq_ok h
      cases h
      dsimp only at ht ⊢
      rw [integerPart_eq hi, numberTail_eq ht]
      simp

theorem ok_of_prependOut {bs : GoString} {x : Except DecodeError (GoString × GoString)} {out r : GoString}
    (h : prependOut bs x = .ok (out, r)) : ∃ out', x = .ok (out', r) := by
  rcases x with _ | ⟨out', r'⟩
  · cases h
  · cases h
    exact ⟨out', rfl⟩

/-- A string body reads at least its closing quote. -/
theorem stringBody_length : ∀ (n : Nat) (s : GoString), s.length ≤ n → ∀ {k r : GoString},
    stringBody s = .ok (k, r) → r.length < s.length
  | 0, [], _, _, _, h => by cases h
  | n + 1, s, hn, k, r, h => by
    rw [stringBody.eq_def] at h
    repeat' split at h
    all_goals first
      | (cases h; done)
      | (cases h; simp)
      | (obtain ⟨_, h⟩ := ok_of_prependOut h
         have := stringBody_length n _ (by simp only [List.length_cons] at hn ⊢; omega) h
         simp only [List.length_cons] at this hn ⊢
         omega)

theorem length_lt_of_skipSpace {s rest : GoString} {c : UInt8} (h : skipSpace s = c :: rest) :
    rest.length + 1 ≤ s.length := by
  simpa [h] using length_skipSpace_le s

/-! ### Fuel -/

/-- A call that returned `(v, r)` read at most its input, and returns the same
with any fuel one more than the bytes it read. -/
def Adequate (call : Nat → Except DecodeError (Value × GoString)) (s : GoString) (v : Value) (r : GoString) :
    Prop :=
  r.length ≤ s.length ∧ ∀ m, s.length + 1 ≤ m + r.length → call m = .ok (v, r)

theorem adequate_of_succ {call : Nat → Except DecodeError (Value × GoString)} {s : GoString} {v : Value}
    {r : GoString} (h : r.length ≤ s.length ∧ ∀ m, s.length ≤ m + r.length → call (m + 1) = .ok (v, r)) :
    Adequate call s v r :=
  ⟨h.1, fun m hm => by
    obtain ⟨m, rfl⟩ : ∃ k, m = k + 1 := ⟨m - 1, by omega⟩
    exact h.2 m (by omega)⟩

/-- What the induction on the fuel carries: the three parsers' successes with
fuel `n` are adequate. -/
def AdequateAt (n : Nat) : Prop :=
  (∀ d s v r, parseValue n d s = .ok (v, r) → Adequate (parseValue · d s) s v r) ∧
  (∀ d acc s v r, parseElems n d acc s = .ok (v, r) → Adequate (parseElems · d acc s) s v r) ∧
  (∀ d acc s v r, parseMembers n d acc s = .ok (v, r) → Adequate (parseMembers · d acc s) s v r)

theorem read_adequate {read : Nat → GoString → Except DecodeError (Value × GoString)} {s rest r : GoString}
    {v : Value} (hl : rest.length + 1 ≤ s.length) (h : Adequate (read · (skipSpace rest)) (skipSpace rest) v r) :
    r.length ≤ s.length ∧ ∀ m, s.length ≤ m + r.length → read m (skipSpace rest) = .ok (v, r) := by
  have := length_skipSpace_le rest
  exact ⟨by have := h.1; omega, fun m hm => h.2 m (by omega)⟩

theorem parseValue_adequate {n : Nat} (ih : AdequateAt n) {d : Nat} {s : GoString} {v : Value} {r : GoString}
    (h : parseValue (n + 1) d s = .ok (v, r)) : Adequate (parseValue · d s) s v r := by
  rw [parseValue] at h
  split at h
  · cases h
  rename_i c rest hs
  have hl := length_lt_of_skipSpace hs
  apply adequate_of_succ
  simp only [parseValue, hs]
  by_cases hb : c = 0x7B ∨ c = 0x5B
  · rcases hb with rfl | rfl
    -- an object: `}` right away, or the members with one unit less
    · simp only [↓reduceIte] at h ⊢
      split_ifs at h ⊢
      split at h
      · rename_i r₀ hr₀
        cases h
        exact ⟨by have := length_lt_of_skipSpace hr₀; omega, fun _ _ => rfl⟩
      · exact read_adequate hl (ih.2.2 _ _ _ _ _ h)
    -- an array: `]` right away, or the elements with one unit less
    · simp only [show (0x5B : UInt8) ≠ 0x7B by decide, ↓reduceIte] at h ⊢
      split_ifs at h ⊢
      split at h
      · rename_i r₀ hr₀
        cases h
        exact ⟨by have := length_lt_of_skipSpace hr₀; omega, fun _ _ => rfl⟩
      · exact read_adequate hl (ih.2.1 _ _ _ _ _ h)
  -- a scalar: what is read does not depend on the fuel
  simp only [if_neg fun e => hb (.inl e), if_neg fun e => hb (.inr e)] at h ⊢
  refine ⟨?_, fun _ _ => h⟩
  split_ifs at h
  -- a string
  · obtain ⟨⟨_, r'⟩, hb, he⟩ := map_eq_ok h
    cases he
    exact (stringBody_length _ rest le_rfl hb).le.trans (by omega)
  -- a number
  · obtain ⟨⟨_, r'⟩, hb, he⟩ := map_eq_ok h
    cases he
    have := congrArg List.length (numberLiteral_eq hb)
    simp only [List.length_append, List.length_cons] at this ⊢
    omega
  -- true, false, null
  all_goals
    obtain ⟨r', hb, he⟩ := map_eq_ok h
    cases he
    have := congrArg List.length (literalRest_ok hb)
    simp only [List.length_append] at this
    omega

theorem parseElems_adequate {n : Nat} (ih : AdequateAt n) {d : Nat} {acc : List Value} {s : GoString} {v : Value}
    {r : GoString} (h : parseElems (n + 1) d acc s = .ok (v, r)) : Adequate (parseElems · d acc s) s v r := by
  rw [parseElems] at h
  split at h
  · cases h
  rename_i v₁ r₁ hv
  obtain ⟨hr₁, hm₁⟩ := ih.1 _ _ _ _ hv
  dsimp only at hm₁
  apply adequate_of_succ
  split at h
  -- a comma: the next elements with one unit less
  · rename_i r' hr'
    obtain ⟨hr, hm⟩ := ih.2.1 _ _ _ _ _ h
    dsimp only at hm
    have := length_lt_of_skipSpace hr'
    refine ⟨by omega, fun m hm' => ?_⟩
    rw [parseElems, hm₁ m (by omega)]
    simp only [hr']
    exact hm m (by omega)
  -- the closing bracket
  · rename_i r' hr'
    cases h
    have := length_lt_of_skipSpace hr'
    refine ⟨by omega, fun m hm' => ?_⟩
    rw [parseElems, hm₁ m (by omega)]
    simp only [hr']
  all_goals cases h

theorem parseMembers_adequate {n : Nat} (ih : AdequateAt n) {d : Nat} {acc : List (GoString × Value)}
    {s : GoString} {v : Value} {r : GoString} (h : parseMembers (n + 1) d acc s = .ok (v, r)) :
    Adequate (parseMembers · d acc s) s v r := by
  rw [parseMembers] at h
  split at h
  case h_1 r₀ hr₀ =>
    split at h
    · cases h
    rename_i k r₁ hk
    split at h
    case h_1 r₂ hr₂ =>
      split at h
      · cases h
      rename_i v₃ r₃ hv
      obtain ⟨hr₃, hm₃⟩ := ih.1 _ _ _ _ hv
      dsimp only at hm₃
      have h₀ := length_lt_of_skipSpace hr₀
      have h₁ := stringBody_length _ r₀ le_rfl hk
      have h₂ := length_lt_of_skipSpace hr₂
      apply adequate_of_succ
      split at h
      -- a comma: the next members with one unit less
      · rename_i r' hr'
        obtain ⟨hr, hm⟩ := ih.2.2 _ _ _ _ _ h
        dsimp only at hm
        have := length_lt_of_skipSpace hr'
        refine ⟨by omega, fun m hm' => ?_⟩
        rw [parseMembers, hr₀]
        simp only [hk, hr₂, hm₃ m (by omega), hr']
        exact hm m (by omega)
      -- the closing brace
      · rename_i r' hr'
        cases h
        have := length_lt_of_skipSpace hr'
        refine ⟨by omega, fun m hm' => ?_⟩
        rw [parseMembers, hr₀]
        simp only [hk, hr₂, hm₃ m (by omega), hr']
      all_goals cases h
    all_goals cases h
  all_goals cases h

/-- The induction on the fuel: every success of the three parsers is adequate. -/
theorem adequateAt : ∀ n, AdequateAt n
  | 0 => ⟨fun _ _ _ _ h => (by cases h), fun _ _ _ _ _ h => (by cases h), fun _ _ _ _ _ h => (by cases h)⟩
  | n + 1 =>
    ⟨fun _ _ _ _ => parseValue_adequate (adequateAt n), fun _ _ _ _ _ => parseElems_adequate (adequateAt n),
      fun _ _ _ _ _ => parseMembers_adequate (adequateAt n)⟩

/-- `unmarshal` accepts exactly the documents the decoder reads with some fuel,
as Go's decoder reads them without a bound, and returns the same value. -/
theorem unmarshal_eq_ok_iff (data : GoString) (v : Value) :
    unmarshal data = .ok v ↔ ∃ n r, parseValue n 0 data = .ok (v, r) ∧ skipSpace r = [] := by
  constructor
  · intro h
    rw [unmarshal] at h
    split at h
    · cases h
    rename_i v' r hv
    split at h
    · cases h
      exact ⟨_, r, hv, by assumption⟩
    · cases h
  · rintro ⟨n, r, hv, hr⟩
    have hm : parseValue (data.length + 1) 0 data = .ok (v, r) := ((adequateAt n).1 _ _ _ _ hv).2 _ (by omega)
    simp only [unmarshal, hm, hr]

end Ofelia.Json
