import Ofelia.Template.Lex
import Mathlib.Tactic.LiftLets

/-! The lexer's fuel never runs out. `lexFrom` stands for the loop
`for state := lexText; state != nil; state = state(l)`, which ends when a state
emits `eof` or an error; the model bounds it by a fuel, and with no fuel left
it returns the items so far. Every state here consumes at least one byte before
it hands over to the next, so the `|s| + 1` states `lex` allows are enough, and
the item list of every template ends as the Go lexer's does.

Each scanning helper gets one lemma saying that what it leaves is a suffix of
what follows the first byte; the induction on the fuel cites them. -/

namespace Ofelia.Template

/-- The lexer stopped on its own: the last item is `eof` or an error. -/
def finished (items : List Item) : Bool :=
  match items.getLast? with
  | some .eof | some (.error _) => true
  | _ => false

theorem finished_append (l : List Item) {l' : List Item} (h : finished l' = true) :
    finished (l ++ l') = true := by
  unfold finished at h ⊢
  rw [List.getLast?_append]
  cases hl : l'.getLast? with
  | none => rw [hl] at h; cases h
  | some e => rw [hl] at h; exact h

theorem finished_cons (i : Item) {l : List Item} (h : finished l = true) : finished (i :: l) = true :=
  finished_append [i] h

theorem finished_emit {k : GoString → List Item} {x : Except LexError (Item × GoString)}
    (h : ∀ i r, x = .ok (i, r) → finished (k r) = true) : finished (emit k x) = true := by
  rcases x with e | ⟨i, r⟩
  · rfl
  · exact finished_cons i (h i r rfl)

/-! ### What each scanner leaves -/

theorem indexOf_add_le {sep : GoString} : ∀ {s : GoString} {x : Nat},
    indexOf sep s = some x → x + sep.length ≤ s.length
  | [], x, h => by
    unfold indexOf at h
    split at h
    · cases h; simp_all
    · cases h
  | c :: s, x, h => by
    unfold indexOf at h
    split at h
    · cases h; simpa using (List.isPrefixOf_iff_prefix.1 ‹_›).length_le
    · obtain ⟨y, hy, rfl⟩ := Option.map_eq_some'.1 h
      have := indexOf_add_le hy
      simp only [List.length_cons]; omega

theorem atRightDelim_length {s : GoString} (h : (atRightDelim s).1 = true) : 2 ≤ s.length := by
  unfold atRightDelim at h
  split at h
  · have := (List.isPrefixOf_iff_prefix.1 (Bool.and_eq_true_iff.1 ‹_›).2).length_le
    simp only [rightDelim, List.length_cons, List.length_nil, List.length_drop] at this; omega
  · split at h
    · simpa [rightDelim] using (List.isPrefixOf_iff_prefix.1 ‹_›).length_le
    · cases h

theorem afterRightDelim_suffix (trim : Bool) (s : GoString) : afterRightDelim trim s <:+ s.drop 2 := by
  unfold afterRightDelim
  split
  · exact (List.dropWhile_suffix _).trans (List.drop_suffix _ _)
  · exact List.suffix_refl _

theorem lexComment_suffix {r rest : GoString} (h : lexComment r = .ok rest) : rest <:+ r := by
  unfold lexComment at h
  split at h
  · cases h
  · dsimp only at h
    split at h
    · cases h
    · cases h
      exact (afterRightDelim_suffix _ _).trans ((List.drop_suffix _ _).trans (List.drop_suffix _ _))

theorem scanQuoted_suffix (quote : UInt8) : ∀ {s b r : GoString}, scanQuoted quote s = some (b, r) → r <:+ s
  | [], _, _, h => by cases h
  | c :: s, b, r, h => by
    unfold scanQuoted at h
    split_ifs at h
    · split at h
      · split_ifs at h
        obtain ⟨⟨b', r'⟩, h', he⟩ := Option.map_eq_some'.1 h
        cases he
        exact (scanQuoted_suffix quote h').trans ((List.suffix_cons _ _).trans (List.suffix_cons _ _))
      · cases h
    · cases h; exact List.suffix_cons _ _
    · obtain ⟨⟨b', r'⟩, h', he⟩ := Option.map_eq_some'.1 h
      cases he
      exact (scanQuoted_suffix quote h').trans (List.suffix_cons _ _)

theorem scanRawQuoted_suffix : ∀ {s b r : GoString}, scanRawQuoted s = some (b, r) → r <:+ s
  | [], _, _, h => by cases h
  | c :: s, b, r, h => by
    unfold scanRawQuoted at h
    split_ifs at h
    · cases h; exact List.suffix_cons _ _
    · obtain ⟨⟨b', r'⟩, h', he⟩ := Option.map_eq_some'.1 h
      cases he
      exact (scanRawQuoted_suffix h').trans (List.suffix_cons _ _)

/-- The first rune of a nonempty string takes its first byte. -/
theorem runes_cons (c : UInt8) (t : GoString) :
    ∃ bs rest, runes (c :: t) = ((decodeRune (c :: t)).1, c :: bs) :: runes rest ∧ bs ++ rest = t := by
  rw [runes.eq_def]
  dsimp only
  split <;> exact ⟨_, _, rfl, rfl⟩

theorem flatMap_dropWhile_suffix (p : Nat × GoString → Bool) (l : List (Nat × GoString)) :
    (l.dropWhile p).flatMap Prod.snd <:+ l.flatMap Prod.snd := by
  conv => rhs; rw [← List.takeWhile_append_dropWhile p l, List.flatMap_append]
  exact List.suffix_append _ _

theorem spanRunes_suffix (p : Nat → Bool) (s : GoString) : (spanRunes p s).2 <:+ s := by
  have hs : (runes s).flatMap Prod.snd = s := flatten_runes s
  have := flatMap_dropWhile_suffix (p ·.1) (runes s)
  rwa [hs] at this

/-- A span that takes the first rune leaves a suffix of what follows the first byte. -/
theorem spanRunes_cons_suffix {p : Nat → Bool} {c : UInt8} {t : GoString} (hp : p (decodeRune (c :: t)).1 = true) :
    (spanRunes p (c :: t)).2 <:+ t := by
  obtain ⟨bs, rest, hr, rfl⟩ := runes_cons c t
  show ((runes _).dropWhile (p ·.1)).flatMap Prod.snd <:+ _
  rw [hr, List.dropWhile_cons_of_pos (p := fun x : Nat × GoString => p x.1) hp]
  exact (spanRunes_suffix p rest).trans (List.suffix_append _ _)

theorem lexIdentifier_suffix {lib : Lib} {c : UInt8} {t : GoString} {i : Item} {r : GoString}
    (hp : isAlphaNumeric lib (decodeRune (c :: t)).1 = true) (h : lexIdentifier lib (c :: t) = .ok (i, r)) :
    r <:+ t := by
  unfold lexIdentifier at h
  split at h
  next word rest hs =>
  have hr : rest <:+ t := by simpa [hs] using spanRunes_cons_suffix hp
  split_ifs at h <;> split at h <;> (cases h; exact hr)

theorem lexFieldOrVariable_suffix {lib : Lib} {typ : ItemType} {sigil : UInt8} {s : GoString} {i : Item}
    {r : GoString} (h : lexFieldOrVariable lib typ sigil s = .ok (i, r)) : r <:+ s := by
  unfold lexFieldOrVariable at h
  by_cases ht : atTerminator s
  · rw [if_pos ht] at h; cases h; exact List.suffix_refl _
  · rw [if_neg ht] at h
    split at h
    next word rest hs =>
    split_ifs at h
    cases h
    simpa [hs] using spanRunes_suffix (isAlphaNumeric lib) s

theorem accept_suffix (valid x : GoString) : (accept valid x).2 <:+ x := by
  unfold accept
  split
  · split
    · exact List.suffix_cons _ _
    · exact List.suffix_refl _
  · exact List.suffix_refl _

theorem suffix_of_accept {valid x y : GoString} {b : Bool} (h : accept valid x = (b, y)) : y <:+ x := by
  simpa [h] using accept_suffix valid x

theorem accept_mem {valid t : GoString} {c : UInt8} (h : c ∈ valid) : accept valid (c :: t) = (true, t) := by
  simp [accept, h]

theorem accept_not_mem {valid t : GoString} {c : UInt8} (h : c ∉ valid) :
    accept valid (c :: t) = (false, c :: t) := by
  simp [accept, h]

theorem mem_decimal {c : UInt8} (h : 0x30 ≤ c ∧ c ≤ 0x39) : c ∈ lit "0123456789_" := by
  have key : ∀ n < 10, UInt8.ofNat (48 + n) ∈ lit "0123456789_" := by decide
  have h1 : 48 ≤ c.toNat := h.1
  have h2 : c.toNat ≤ 57 := h.2
  have e : UInt8.ofNat (48 + (c.toNat - 48)) = c := UInt8.eq_of_val_eq <| Fin.eq_of_val_eq <| by
    show (48 + (c.toNat - 48)) % 256 = c.toNat
    omega
  rw [← e]
  exact key _ (by omega)

/-- `scanNumber` consumes the byte a number starts with: a sign is taken by the
first `accept`, a `0` by the second, another digit by the run of digits, and a
`.` by the fraction's `accept`. Each later stage only drops bytes. -/
theorem scanNumber_suffix (lib : Lib) {c : UInt8} (t : GoString)
    (hc : c = 0x2E ∨ c = 0x2B ∨ c = 0x2D ∨ (0x30 ≤ c ∧ c ≤ 0x39)) :
    (scanNumber lib (c :: t)).2 <:+ t := by
  unfold scanNumber
  lift_lets
  intro s1
  have h1 : s1 <:+ t ∨ s1 = c :: t ∧ c ∉ lit "+-" := by
    by_cases hm : c ∈ lit "+-"
    · exact .inl (by simp only [s1, accept_mem hm, List.suffix_refl])
    · exact .inr ⟨by simp only [s1, accept_not_mem hm], hm⟩
  split
  next zero s2 h2 =>
  have h2' : s2 <:+ t ∨ s2 = c :: t ∧ zero = false ∧ c ∉ lit "+-" ∧ c ∉ lit "0" := by
    rcases h1 with h1 | ⟨h1, hp⟩
    · exact .inl ((suffix_of_accept h2).trans h1)
    · rw [h1] at h2
      by_cases h0 : c ∈ lit "0"
      · rw [accept_mem h0] at h2; cases h2; exact .inl (List.suffix_refl _)
      · rw [accept_not_mem h0] at h2; cases h2; exact .inr ⟨rfl, rfl, hp, h0⟩
  split
  next digits s3 h3 =>
  have h3' : s3 <:+ t ∨ s3 = c :: t ∧ digits = lit "0123456789_" ∧ c ∉ lit "+-" ∧ c ∉ lit "0" := by
    rcases h2' with h2' | ⟨rfl, rfl, hp, h0⟩
    · refine .inl (List.IsSuffix.trans ?_ h2')
      split at h3
      · split at h3
        · cases h3; exact suffix_of_accept ‹_›
        · split at h3
          · cases h3; exact (suffix_of_accept ‹_›).trans (suffix_of_accept ‹_›)
          · split at h3 <;>
            · cases h3
              exact (suffix_of_accept ‹_›).trans ((suffix_of_accept ‹_›).trans (suffix_of_accept ‹_›))
      · cases h3; exact List.suffix_refl _
    · cases h3; exact .inr ⟨rfl, rfl, hp, h0⟩
  lift_lets
  intro s4 s5 s6 s7 s8
  have h4 : s4 <:+ t ∨ s4 = c :: t ∧ c = 0x2E := by
    rcases h3' with h3' | ⟨rfl, rfl, hp, -⟩
    · exact .inl ((List.dropWhile_suffix _).trans h3')
    · rcases hc with rfl | rfl | rfl | hd
      · exact .inr ⟨by simp only [s4]; exact List.dropWhile_cons_of_neg (by decide), rfl⟩
      · exact absurd (by decide) hp
      · exact absurd (by decide) hp
      · refine .inl ?_
        simp only [s4]
        rw [List.dropWhile_cons_of_pos (by simpa using mem_decimal hd)]
        exact List.dropWhile_suffix _
  have h5 : s5 <:+ t := by
    rcases h4 with h4 | ⟨h4, rfl⟩
    · refine List.IsSuffix.trans ?_ h4
      simp only [s5]
      split
      next h => exact (List.dropWhile_suffix _).trans (suffix_of_accept h)
      next h => exact suffix_of_accept h
    · simp only [s5, h4, accept_mem (show (0x2E : UInt8) ∈ lit "." by decide)]
      exact List.dropWhile_suffix _
  have exponent : ∀ (P : Prop) [Decidable P] (marker x : GoString),
      (if P then
        match accept marker x with
        | (true, s) => List.dropWhile (fun x => decide (x ∈ lit "0123456789_")) (accept (lit "+-") s).2
        | (false, s) => s
      else x) <:+ x := by
    intro P _ marker x
    split
    · split
      next h => exact (List.dropWhile_suffix _).trans ((accept_suffix _ _).trans (suffix_of_accept h))
      next h => exact suffix_of_accept h
    · exact List.suffix_refl _
  have h6 : s6 <:+ s5 := exponent _ _ _
  have h7 : s7 <:+ s6 := exponent _ _ _
  have h8 : s8 <:+ t := (accept_suffix _ _).trans (h7.trans (h6.trans h5))
  split
  · exact (List.drop_suffix _ _).trans h8
  · exact h8

theorem lexNumber_suffix {lib : Lib} {c : UInt8} {t : GoString} {i : Item} {r : GoString}
    (hc : c = 0x2E ∨ c = 0x2B ∨ c = 0x2D ∨ (0x30 ≤ c ∧ c ≤ 0x39)) (h : lexNumber lib (c :: t) = .ok (i, r)) :
    r <:+ t := by
  unfold lexNumber at h
  dsimp only at h
  split at h
  · cases h
  next r₀ hs =>
  have h₀ : r₀ <:+ t := by simpa [hs] using scanNumber_suffix lib t hc
  split_ifs at h with hsign
  · cases h
    obtain ⟨c', r₂, rfl, hc'⟩ : ∃ c' r₂, r₀ = c' :: r₂ ∧ (c' = 0x2B ∨ c' = 0x2D) := by
      rcases r₀ with _ | ⟨c', r₂⟩
      · simp at hsign
      · exact ⟨c', r₂, rfl, by simpa using hsign⟩
    exact (scanNumber_suffix lib r₂ (.inr (hc'.imp_right .inl))).trans ((List.suffix_cons _ _).trans h₀)
  · cases h; exact h₀

/-! ### The run -/

/-- With more fuel than bytes left, the lexer stops on its own. -/
theorem lexFrom_finished (lib : Lib) : ∀ (fuel : Nat) (mode : Mode) (s : GoString),
    s.length < fuel → finished (lexFrom lib fuel mode s) = true
  | 0, _, _, h => absurd h (Nat.not_lt_zero _)
  | fuel + 1, .text, s, h => by
    simp only [lexFrom]
    split
    · split <;> rfl
    next x hx =>
    have hx := indexOf_add_le hx
    refine finished_append _ ?_
    generalize hr : (if hasLeftTrimMarker (s.drop (x + 2)) = true then (s.drop (x + 2)).drop 2
      else s.drop (x + 2)) = r
    have hlen : r.length + 2 ≤ s.length := by
      have : r.length ≤ (s.drop (x + 2)).length := by
        rw [← hr]; split <;> simp only [List.length_drop] <;> omega
      simp only [List.length_drop, leftDelim, List.length_cons, List.length_nil] at this hx; omega
    split
    · split
      · rfl
      next rest hrest =>
      exact lexFrom_finished lib fuel _ _ (by have := (lexComment_suffix hrest).length_le; omega)
    · exact finished_cons _ (lexFrom_finished lib fuel _ _ (by omega))
  | fuel + 1, .action d, s, h => by
    simp only [lexFrom]
    split
    next trim hd =>
      have h2 := atRightDelim_length (by rw [hd])
      split
      · exact finished_cons _ (lexFrom_finished lib fuel _ _ (by
          have := (afterRightDelim_suffix trim s).length_le
          simp only [List.length_drop] at this; omega))
      · rfl
    rcases s with _ | ⟨c, t⟩
    · rfl
    simp only []
    have ih : ∀ m r, r <:+ t → finished (lexFrom lib fuel m r) = true := fun m r hr =>
      lexFrom_finished lib fuel m r (by have := hr.length_le; simp only [List.length_cons] at h; omega)
    have ihDrop : ∀ m n, 0 < n → finished (lexFrom lib fuel m ((c :: t).drop n)) = true := by
      intro m n hn
      obtain ⟨k, rfl⟩ : ∃ k, n = k + 1 := ⟨n - 1, by omega⟩
      exact ih m (t.drop k) (List.drop_suffix _ _)
    by_cases hsp : isSpace c = true
    · rw [if_pos hsp]
      have hn : 0 < (List.takeWhile isSpace (c :: t)).length := by
        rw [List.takeWhile_cons_of_pos hsp]; exact Nat.succ_pos _
      split
      · split
        · exact finished_cons _ (ih _ _ ((afterRightDelim_suffix _ _).trans (List.drop_suffix 1 t)))
        · exact finished_cons _ (ihDrop _ _ (by omega))
      · exact finished_cons _ (ihDrop _ _ hn)
    rw [if_neg hsp]
    by_cases hc : c = 0x3D
    · rw [if_pos hc]; exact finished_cons _ (ih _ _ (List.suffix_refl t))
    rw [if_neg hc]
    by_cases hc : c = 0x3A
    · rw [if_pos hc]
      split
      · exact finished_cons _ (ih _ _ (List.drop_suffix _ _))
      · rfl
    rw [if_neg hc]
    by_cases hc : c = 0x7C
    · rw [if_pos hc]; exact finished_cons _ (ih _ _ (List.suffix_refl t))
    rw [if_neg hc]
    by_cases hc : c = 0x22
    · rw [if_pos hc]
      split
      · rfl
      next hq => exact finished_cons _ (ih _ _ (scanQuoted_suffix _ hq))
    rw [if_neg hc]
    by_cases hc : c = 0x60
    · rw [if_pos hc]
      split
      · rfl
      next hq => exact finished_cons _ (ih _ _ (scanRawQuoted_suffix hq))
    rw [if_neg hc]
    by_cases hc : c = 0x24
    · rw [if_pos hc]; exact finished_emit fun _ _ hx => ih _ _ (lexFieldOrVariable_suffix hx)
    rw [if_neg hc]
    by_cases hc : c = 0x27
    · rw [if_pos hc]
      split
      · rfl
      next hq => exact finished_cons _ (ih _ _ (scanQuoted_suffix _ hq))
    rw [if_neg hc]
    by_cases hc : c = 0x2E ∧ ∃ d0 ∈ t.head?, d0 < 0x30 ∨ 0x39 < d0
    · rw [if_pos hc]; exact finished_emit fun _ _ hx => ih _ _ (lexFieldOrVariable_suffix hx)
    rw [if_neg hc]
    by_cases hc : c = 0x2E ∨ c = 0x2B ∨ c = 0x2D ∨ (0x30 ≤ c ∧ c ≤ 0x39)
    · rw [if_pos hc]; exact finished_emit fun _ _ hx => ih _ _ (lexNumber_suffix hc hx)
    rw [if_neg hc]
    by_cases hc : isAlphaNumeric lib (decodeRune (c :: t)).1 = true
    · rw [if_pos hc]; exact finished_emit fun _ _ hx => ih _ _ (lexIdentifier_suffix hc hx)
    rw [if_neg hc]
    by_cases hc : c = 0x28
    · rw [if_pos hc]; exact finished_cons _ (ih _ _ (List.suffix_refl t))
    rw [if_neg hc]
    by_cases hc : c = 0x29
    · rw [if_pos hc]
      refine finished_cons _ ?_
      split
      · rfl
      · exact ih _ _ (List.suffix_refl t)
    rw [if_neg hc]
    split
    · exact finished_cons _ (ih _ _ (List.suffix_refl t))
    · rfl

/-- `lex` never runs out of fuel: the items of every template end with `eof`
or with the error that stopped the lexer. -/
theorem lex_finished (lib : Lib) (s : GoString) : finished (lex lib s) = true :=
  lexFrom_finished lib _ _ s (Nat.lt_succ_self _)

end Ofelia.Template
